import RestForge.Source.Token

/-!
# Generated source as a tree

The parts of the generated language that generated files use, from paths to whole files, and the
tokens of each.

* `Path`, `Ty`, `Pattern`, `Expr`, `Stmt`: what function bodies are made of.
* `Constant`, `Function`, `StructItem`, `Item`: what files are made of.
* `File`: a generated file; `File.tokens`: its tokens.

Call arguments and parameters may have a comma behind the last one; the layout of a file does not
depend on it.
-/

set_option autoImplicit false

namespace RestForge.Source

/-! ## Paths and types -/

/-- Names with `::` between them, and in front of them if the path is global. -/
structure Path where
  isGlobal : Bool
  names : List String
  deriving Repr, DecidableEq

namespace Path

def rel (names : List String) : Path := ⟨false, names⟩

def glob (names : List String) : Path := ⟨true, names⟩

/-- The path of a name inside. -/
def child (p : Path) (name : String) : Path := { p with names := p.names ++ [name] }

def tokens (p : Path) : List Token :=
  (if p.isGlobal then colons else []) ++ List.intercalate colons (p.names.map word)

def text (p : Path) : String :=
  (if p.isGlobal then "::" else "") ++ String.intercalate "::" p.names

end Path

inductive Ty where
  /-- A path with type arguments. -/
  | path (p : Path) (args : List Ty)
  /-- A reference, for the whole run of the program if `isStatic`. -/
  | ref (isStatic : Bool) (target : Ty)
  | slice (item : Ty)
  | tuple (items : List Ty)
  /-- Any value with the given trait. -/
  | dyn (bound : Path)
  deriving Repr

namespace Ty

def named (p : Path) : Ty := path p []

def lifetime : List Token := [.mark '\'' true, .word "static"]

mutual

def tokens : Ty → List Token
  | path p [] => p.tokens
  | path p (arg :: args) =>
    p.tokens ++ mark '<' ++ commaSeparated false (arg.tokens :: tokensAll args) ++ mark '>'
  | ref isStatic target => mark '&' ++ (if isStatic then lifetime else []) ++ target.tokens
  | slice item => brackets item.tokens
  | tuple items => parens (commaSeparated false (tokensAll items))
  | dyn bound => word "dyn" ++ bound.tokens

def tokensAll : List Ty → List (List Token)
  | [] => []
  | t :: ts => t.tokens :: tokensAll ts

end

end Ty

/-! ## Patterns -/

inductive Pattern where
  | name (n : String)
  | tuple (names : List String)
  /-- A variant with one value. -/
  | variant (p : Path) (arg : Pattern)
  /-- Some fields of a record; `..` stands for the others. -/
  | record (p : Path) (fields : List String)
  deriving Repr

def Pattern.tokens : Pattern → List Token
  | name n => word n
  | tuple names => parens (commaSeparated false (names.map word))
  | variant p arg => p.tokens ++ parens arg.tokens
  | record p fields =>
    p.tokens ++ braces (fields.flatMap (fun f => word f ++ mark ',') ++ marks ['.', '.'])

/-! ## Expressions -/

mutual

inductive Expr where
  | path (p : Path)
  | text (s : String)
  | int (n : Nat)
  | ref (e : Expr)
  | deref (e : Expr)
  /-- Hands an error on to the caller. -/
  | question (e : Expr)
  | call (f : Expr) (args : List Expr) (trailing : Bool)
  | method (receiver : Expr) (name : String) (args : List Expr) (trailing : Bool)
  | field (base : Expr) (name : String)
  | array (items : List Expr)
  | tuple (items : List Expr)
  /-- A record; `rest` leaves the other fields at their defaults. -/
  | record (p : Path) (fields : List FieldInit) (rest : Bool)
  | closure (param : String) (body : Expr)
  /-- An invocation `name!` with arguments between delimiters. -/
  | invoke (name : String) (d : Delimiter) (args : List Expr)

inductive FieldInit where
  /-- The field takes the value of the variable of its name. -/
  | same (name : String)
  | value (name : String) (e : Expr)

end

namespace Expr

def var (name : String) : Expr := path (.rel [name])

/-- The default value of a type that is clear from the context. -/
def defaultValue : Path := .rel ["Default", "default"]

mutual

def tokens : Expr → List Token
  | path p => p.tokens
  | text s => Source.text s
  | int n => [.literal (toString n)]
  | ref e => mark '&' ++ e.tokens
  | deref e => mark '*' ++ e.tokens
  | question e => e.tokens ++ mark '?'
  | call f args trailing => f.tokens ++ parens (commaSeparated trailing (tokensAll args))
  | method receiver name args trailing =>
    receiver.tokens ++ mark '.' ++ word name ++ parens (commaSeparated trailing (tokensAll args))
  | field base name => base.tokens ++ mark '.' ++ word name
  | array items => brackets (commaSeparated false (tokensAll items))
  | tuple items => parens (commaSeparated false (tokensAll items))
  | record p fields rest =>
    p.tokens ++ braces (tokensFields fields
      ++ (if rest then marks ['.', '.'] ++ defaultValue.tokens ++ parens [] else []))
  | closure param body => mark '|' ++ word param ++ mark '|' ++ body.tokens
  | invoke name d args =>
    word name ++ mark '!' ++ [.group d (commaSeparated false (tokensAll args))]

def tokensAll : List Expr → List (List Token)
  | [] => []
  | e :: es => e.tokens :: tokensAll es

def tokensFields : List FieldInit → List Token
  | [] => []
  | .same name :: fields => word name ++ mark ',' ++ tokensFields fields
  | .value name e :: fields =>
    word name ++ mark ':' ++ e.tokens ++ mark ',' ++ tokensFields fields

end

end Expr

/-! ## Statements -/

mutual

inductive Stmt where
  | bind (isMutable : Bool) (pattern : Pattern) (value : Expr)
  | expr (e : Expr) (semicolon : Bool)
  | forEach (name : String) (items : Expr) (body : List Stmt)
  | choose (on : Expr) (arms : List Arm)

inductive Arm where
  | block (pattern : Pattern) (body : List Stmt)
  | value (pattern : Pattern) (body : Expr)

end

namespace Stmt

def bindName (name : String) (value : Expr) : Stmt := bind false (.name name) value

def run (e : Expr) : Stmt := expr e true

def result (e : Expr) : Stmt := expr e false

mutual

def tokens : Stmt → List Token
  | bind isMutable pattern value =>
    word "let" ++ (if isMutable then word "mut" else []) ++ pattern.tokens ++ mark '='
      ++ value.tokens ++ mark ';'
  | expr e semicolon => e.tokens ++ (if semicolon then mark ';' else [])
  | forEach name items body =>
    word "for" ++ word name ++ word "in" ++ items.tokens ++ braces (tokensAll body)
  | choose on arms => word "match" ++ on.tokens ++ braces (tokensArms arms)

def tokensAll : List Stmt → List Token
  | [] => []
  | s :: ss => s.tokens ++ tokensAll ss

def tokensArms : List Arm → List Token
  | [] => []
  | .block pattern body :: arms =>
    pattern.tokens ++ marks ['=', '>'] ++ braces (tokensAll body) ++ tokensArms arms
  | .value pattern body :: arms =>
    pattern.tokens ++ marks ['=', '>'] ++ body.tokens ++ mark ',' ++ tokensArms arms

end

end Stmt

/-! ## Attributes -/

inductive Attribute where
  | doc (text : String)
  | derive (traits : List Path)
  | test
  /-- Compiled in test builds only. -/
  | testOnly
  /-- The wire name of a field; the field may be absent and is left out when unset. -/
  | rename (wire : String)
  deriving Repr, DecidableEq

namespace Attribute

/-- What stands between the brackets, less the name. -/
def name : Attribute → String
  | doc _ => "doc"
  | derive _ => "derive"
  | test => "test"
  | testOnly => "cfg"
  | rename _ => "serde"

def arguments : Attribute → List Token
  | doc text => mark '=' ++ Source.text text
  | derive traits => parens (commaSeparated false (traits.map Path.tokens))
  | test => []
  | testOnly => parens (word "test")
  | rename wire =>
    parens (word "rename" ++ mark '=' ++ Source.text wire ++ mark ',' ++ word "default" ++ mark ','
      ++ word "skip_serializing_if" ++ mark '=' ++ Source.text "Option::is_none")

def tokens (a : Attribute) : List Token :=
  mark '#' ++ brackets (word a.name ++ a.arguments)

end Attribute

def attributeTokens (attrs : List Attribute) : List Token := attrs.flatMap Attribute.tokens

/-! ## Items -/

def visibilityTokens (isPublic : Bool) : List Token := if isPublic then word "pub" else []

structure Constant where
  attrs : List Attribute
  isPublic : Bool
  name : String
  type : Ty
  value : Expr

def Constant.tokens (c : Constant) : List Token :=
  attributeTokens c.attrs ++ visibilityTokens c.isPublic ++ word "const" ++ word c.name ++ mark ':'
    ++ c.type.tokens ++ mark '=' ++ c.value.tokens ++ mark ';'

structure Param where
  name : String
  type : Ty

def Param.tokens (p : Param) : List Token := word p.name ++ mark ':' ++ p.type.tokens

/-- `takesSelf` puts a reference to the receiver before the parameters. -/
structure Function where
  attrs : List Attribute
  isPublic : Bool
  name : String
  takesSelf : Bool
  params : List Param
  trailing : Bool
  returns : Option Ty
  body : List Stmt

namespace Function

def receiver (f : Function) : List (List Token) :=
  if f.takesSelf then [mark '&' ++ word "self"] else []

def tokens (f : Function) : List Token :=
  attributeTokens f.attrs ++ visibilityTokens f.isPublic ++ word "fn" ++ word f.name
    ++ parens (commaSeparated f.trailing (f.receiver ++ f.params.map Param.tokens))
    ++ (match f.returns with
      | some t => marks ['-', '>'] ++ t.tokens
      | none => [])
    ++ braces (Stmt.tokensAll f.body)

end Function

structure StructField where
  attrs : List Attribute
  isPublic : Bool
  name : String
  type : Ty

def StructField.tokens (f : StructField) : List Token :=
  attributeTokens f.attrs ++ visibilityTokens f.isPublic ++ word f.name ++ mark ':' ++ f.type.tokens
    ++ mark ','

structure StructItem where
  attrs : List Attribute
  name : String
  fields : List StructField

def StructItem.tokens (s : StructItem) : List Token :=
  attributeTokens s.attrs ++ word "pub" ++ word "struct" ++ word s.name
    ++ braces (s.fields.flatMap StructField.tokens)

/-- Constants and functions of a type, for a trait or of its own. -/
structure ImplItem where
  trait? : Option Path
  target : String
  constants : List Constant
  functions : List Function

def ImplItem.tokens (i : ImplItem) : List Token :=
  word "impl"
    ++ (match i.trait? with
      | some p => p.tokens ++ word "for"
      | none => [])
    ++ word i.target
    ++ braces (i.constants.flatMap Constant.tokens ++ i.functions.flatMap Function.tokens)

inductive Item where
  | constant (c : Constant)
  | function (f : Function)
  | struct (s : StructItem)
  | impl (i : ImplItem)
  /-- A module with its items. -/
  | module (attrs : List Attribute) (isPublic : Bool) (name : String) (items : List Item)
  /-- A module in a file of its own. -/
  | moduleFile (attrs : List Attribute) (isPublic : Bool) (name : String)
  /-- Makes a name of another module a public name of this one. -/
  | reexport (p : Path)

namespace Item

mutual

def tokens : Item → List Token
  | constant c => c.tokens
  | function f => f.tokens
  | struct s => s.tokens
  | impl i => i.tokens
  | module attrs isPublic name items =>
    attributeTokens attrs ++ visibilityTokens isPublic ++ word "mod" ++ word name
      ++ braces (tokensAll items)
  | moduleFile attrs isPublic name =>
    attributeTokens attrs ++ visibilityTokens isPublic ++ word "mod" ++ word name ++ mark ';'
  | reexport p => word "pub" ++ word "use" ++ p.tokens ++ mark ';'

def tokensAll : List Item → List Token
  | [] => []
  | i :: is => i.tokens ++ tokensAll is

end

end Item

/-! ## Files -/

/-- The documentation of a file, line by line, and its items. -/
structure File where
  docs : List String
  items : List Item

def innerDocTokens (text : String) : List Token :=
  mark '#' ++ mark '!' ++ brackets (word "doc" ++ mark '=' ++ Source.text text)

def File.tokens (f : File) : List Token :=
  f.docs.flatMap innerDocTokens ++ Item.tokensAll f.items

end RestForge.Source
