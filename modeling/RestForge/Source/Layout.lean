import RestForge.Naming.Identifier
import RestForge.Source.Doc
import RestForge.Source.Tree
import RestForge.Text.Split

/-!
# The layout of generated source

Every part of generated source as a document: where its lines may be broken and how its parts are
indented then.

* `Expr.layout`: expressions. A chain of method calls and field accesses is one group.
* `Stmt.layout`, `Item.layout`: statements and items; each ends its line.
* `File.text`: the contents of a file.
-/

set_option autoImplicit false

namespace RestForge.Source

open Doc

/-- Columns of one level of indentation. -/
def step : Int := 4

/-- Parts with a comma between them; if the group is broken, also behind the last. -/
def elements : List (List Doc) → List Doc
  | [] => []
  | [part] => part ++ [brk { Break.zero with before := "," }]
  | part :: parts => part ++ str "," ++ sp ++ elements parts

/-- Like `elements`, with a space behind the last part if the group is not broken. -/
def spacedElements : List (List Doc) → List Doc
  | [] => []
  | [part] => part ++ [brk { Break.space with before := "," }]
  | part :: parts => part ++ str "," ++ sp ++ spacedElements parts

/-- Elements between delimiters, one a line if they do not fit. -/
def enclosed (opening closing : String) (parts : List (List Doc)) : List Doc :=
  str opening ++ cbox step (shift (-step) (zb ++ elements parts)) ++ str closing

/-- A head and a body in braces, one statement or item a line. -/
def braced (head body : List Doc) : List Doc :=
  cbox step (shift (-step) (head ++ str "\x7b" ++ hbIfNonempty ++ body)) ++ str "\x7d"

/-! ## Types and patterns -/

namespace Ty

mutual

def layout : Ty → List Doc
  | path p [] => str p.text
  | path p (arg :: args) => str p.text ++ enclosed "<" ">" (arg.layout :: layoutAll args)
  | ref isStatic target => str (if isStatic then "&'static " else "&") ++ target.layout
  | slice item => str "[" ++ item.layout ++ str "]"
  | tuple items => enclosed "(" ")" (layoutAll items)
  | dyn bound => str ("dyn " ++ bound.text)

def layoutAll : List Ty → List (List Doc)
  | [] => []
  | t :: ts => t.layout :: layoutAll ts

end

end Ty

def Pattern.layout : Pattern → List Doc
  | name n => str n
  | tuple names => enclosed "(" ")" (names.map str)
  | variant p arg => str p.text ++ enclosed "(" ")" [arg.layout]
  | record p fields =>
    cbox step (shift (-step)
      (str (p.text ++ " \x7b") ++ spIfNonempty ++ fields.flatMap (fun f => str f ++ str "," ++ sp)
        ++ str ".." ++ sp)) ++ str "\x7d"

/-! ## Arguments of macros -/

/-- What stands before a token decides whether a space goes between. -/
inductive Spacing where
  | start
  | dot
  | colon
  | colons
  | ident
  | delimited
  | other
  deriving Repr, DecidableEq

/-- Is a space wanted before the token, and what does it leave behind? -/
def Spacing.next (s : Spacing) : Token → Bool × Spacing
  | .group .brace _ => (true, other)
  | .group _ _ => (s != ident, delimited)
  | .word w =>
    if Naming.keywords.contains w then (true, other) else (s != dot && s != colons, ident)
  | .literal _ => (s != dot, ident)
  | .mark ':' joint =>
    if s = colon then (false, colons)
    else if joint then (s != ident, colon)
    else (true, other)
  | .mark ',' _ => (false, other)
  | .mark ';' _ => (false, other)
  | .mark '.' _ => (s != ident && s != delimited, dot)
  | .mark _ _ => (true, other)

def Token.isDot : Token → Bool
  | .mark '.' _ => true
  | _ => false

def Token.isJoint : Token → Bool
  | .mark _ joint => joint
  | _ => false

mutual

def Token.layout : Token → List Doc
  | .word s => str s
  | .mark c _ => str (String.singleton c)
  | .literal s => str s
  | .group d body => str d.opening ++ layoutTokens .start true body ++ str d.closing

/-- `joined` tells that the token before belongs together with the next one. -/
def layoutTokens (s : Spacing) (joined : Bool) : List Token → List Doc
  | [] => []
  | t :: ts =>
    let (wanted, after) := s.next t
    let gap := if joined then [] else if wanted then sp else if t.isDot then zb else []
    gap ++ t.layout ++ layoutTokens after t.isJoint ts

end

/-- An invocation of a macro. -/
def layoutInvocation (name : String) (d : Delimiter) (args : List Token) : List Doc :=
  let body :=
    if args.isEmpty then []
    else cbox step (shift (-step) (zb ++ ibox 0 (layoutTokens .start true args) ++ zb))
  str (name ++ "!" ++ d.opening) ++ body ++ str d.closing

/-! ## Expressions -/

namespace Expr

/-- A name of at most four letters; a call on it stays on its line. -/
def isShortName : Expr → Bool
  | path ⟨false, [name]⟩ => name.utf8ByteSize ≤ 4
  | _ => false

/-- An expression with delimiters of its own, which can stand alone between those of a call. -/
def isBlockLike : Expr → Bool
  | array _ => true
  | tuple _ => true
  | record _ _ _ => true
  | closure _ _ => true
  | _ => false

/-- Does its text end so that a brace behind it may go to a new line? -/
def endsOpen : Expr → Bool
  | call f _ _ => f.endsOpen
  | method _ _ _ _ => true
  | field _ _ => true
  | ref e => e.endsOpen
  | deref e => e.endsOpen
  | question e => e.endsOpen
  | _ => false

/-- The innermost part of a chain takes back the indentation of the chain. -/
def innermost (chained : Bool) (parts : List Doc) : List Doc :=
  if chained then cbox (-step) parts else parts

/-- The chain as a whole is one group. -/
def outermost (chained : Bool) (parts : List Doc) : List Doc :=
  if chained then parts else cbox step parts

def layoutArguments (args : List Expr) (parts : List (List Doc)) : List Doc :=
  match args, parts with
  | [arg], [part] =>
    if arg.isBlockLike then str "(" ++ part ++ str ")" else enclosed "(" ")" [part]
  | _, _ => enclosed "(" ")" parts

/-- A record is broken as well when it is wider than this. -/
def widestRecord : Nat := 34

def layoutRecord (p : Path) (fields : List (List Doc)) (rest : Bool) : List Doc :=
  let listed :=
    if rest then
      fields.flatMap (fun f => f ++ str "," ++ sp)
        ++ str ("." ++ "." ++ defaultValue.text ++ "()") ++ sp
    else spacedElements fields
  limited widestRecord step
    (shift (-step) (str (p.text ++ " \x7b") ++ spIfNonempty ++ listed)) ++ str "\x7d"

def layoutClosure (param : String) (body : List Doc) : List Doc :=
  ibox step (shift (-step) (str "|" ++ zb ++ str param ++ str "|" ++ sp)) ++ measured
    ++ cbox step ([brk { Break.zero with before := "\x7b" }] ++ body
      ++ [brk { Break.zero with offset := -step, after := "\x7d" }])

mutual

/-- `chained` tells that the expression is part of a chain, `first` that a statement starts with
it. -/
def layout (chained first : Bool) : Expr → List Doc
  | path p => innermost chained (str p.text)
  | text s => innermost chained (str (Text.literal s))
  | int n => innermost chained (str (toString n))
  | ref e => innermost chained (str "&" ++ e.layout false false)
  | deref e => innermost chained (str "*" ++ e.layout false false)
  | question e => e.layout chained first ++ str "?"
  | call f args _ =>
    f.layout chained (first && !chained) ++ layoutArguments args (layoutAll args)
  | method receiver name args _ =>
    let short := first && receiver.isShortName
    outermost chained
      (receiver.layout true first ++ (if short then [] else zb) ++ str ("." ++ name)
        ++ cbox (if short && !chained then -step else 0) (layoutArguments args (layoutAll args)))
  | field base name =>
    let short := first && base.isShortName
    outermost chained
      (base.layout true first ++ (if short then [] else zb) ++ str ("." ++ name))
  | array [] => innermost chained (str "[]")
  | array (item :: items) =>
    innermost chained (enclosed "[" "]" (item.layout false false :: layoutAll items))
  | tuple items => innermost chained (enclosed "(" ")" (layoutAll items))
  | record p fields rest => innermost chained (layoutRecord p (layoutFields fields) rest)
  | closure param body => innermost chained (layoutClosure param (body.layout false false))
  | invoke name d args =>
    innermost chained (layoutInvocation name d (commaSeparated false (tokensAll args)))

def layoutAll : List Expr → List (List Doc)
  | [] => []
  | e :: es => e.layout false false :: layoutAll es

def layoutFields : List FieldInit → List (List Doc)
  | [] => []
  | .same name :: fields => str name :: layoutFields fields
  | .value name e :: fields =>
    (str (name ++ ": ") ++ ibox 0 (e.layout false false)) :: layoutFields fields

end

/-- An expression before the brace of a loop or of a choice. -/
def layoutHead (e : Expr) : List Doc :=
  cbox 0 (e.layout false false ++ (if e.endsOpen then sp else str " "))

end Expr

/-! ## Statements -/

/-- Statements in braces behind text on the same line. -/
def blockBody (body : List Doc) : List Doc :=
  str "\x7b" ++ measured ++ cbox step (shift (-step) (hbIfNonempty ++ body)) ++ str "\x7d"

namespace Stmt

mutual

def layout : Stmt → List Doc
  | bind isMutable pattern value =>
    ibox 0 (str (if isMutable then "let mut " else "let ") ++ pattern.layout ++ str " = " ++ measured
      ++ value.layout false false) ++ str ";" ++ hb
  | expr (.invoke name d args) semicolon =>
    (Expr.invoke name d args).layout false false ++ (if semicolon then str ";" else []) ++ hb
  | expr e semicolon =>
    ibox 0 (e.layout false true ++ (if semicolon then str ";" else [])) ++ hb
  | forEach name items body =>
    ibox 0 (str ("for " ++ name ++ " in ") ++ measured ++ items.layoutHead ++ blockBody (layoutAll body))
      ++ hb
  | choose on arms =>
    ibox 0 (ibox 0 (str "match " ++ on.layoutHead ++ blockBody (layoutArms arms))) ++ hb

def layoutAll : List Stmt → List Doc
  | [] => []
  | s :: ss => s.layout ++ layoutAll ss

/-- The value of an arm gets braces when it does not fit behind the arrow. -/
def layoutArms : List Arm → List Doc
  | [] => []
  | .block pattern body :: arms =>
    ibox 0 (pattern.layout ++ str " => " ++ blockBody (layoutAll body)) ++ hb ++ layoutArms arms
  | .value pattern body :: arms =>
    ibox 0 (pattern.layout ++ str " => " ++ measured
      ++ cbox step ([brk { Break.zero with before := "\x7b" }] ++ body.layout false true
        ++ [brk { Break.zero with offset := -step, after := "\x7d", inLine := "," }]))
      ++ hb ++ layoutArms arms

end

end Stmt

/-! ## Attributes -/

/-- Can the text stand in a comment with two ends? -/
def balancedComment (depth : Nat) : List Char → Bool
  | '/' :: '*' :: rest => balancedComment (depth + 1) rest
  | '*' :: '/' :: rest =>
    match depth with
    | 0 => false
    | outer + 1 => balancedComment outer rest
  | _ :: rest => balancedComment depth rest
  | [] => depth == 0

def fitsBlockComment (text : String) : Bool :=
  balancedComment 0 text.toList && text.toList.getLast? != some '/'

/-- Every line but the last loses the spaces at its end. -/
def trimInnerLines (text : String) : String :=
  let pieces := Text.split '\n' text
  String.intercalate "\n" (pieces.dropLast.map Text.trimEndSpaces ++ pieces.getLast?.toList)

def startsWithAny (chars : List Char) (text : String) : Bool :=
  match text.toList with
  | c :: _ => chars.contains c
  | [] => false

/-- A documentation line of an item or, if `inner`, of the file itself. -/
def layoutDoc (inner : Bool) (text : String) : List Doc :=
  let oneLine := !text.toList.contains '\n'
  if oneLine && (inner || !startsWithAny ['/'] text) then
    str (if inner then "//!" else "///") ++ str (Text.trimEndSpaces text) ++ hb
  else if fitsBlockComment text && (inner || !startsWithAny ['*', '/'] text) then
    str (if inner then "/*!" else "/**") ++ str (trimInnerLines text) ++ str "*/" ++ hb
  else
    str (if inner then "#![" else "#[") ++ str "doc = " ++ str (Text.literal text) ++ str "]" ++ sp

def Attribute.layoutArguments (a : Attribute) : List (List Doc) :=
  match a with
  | doc _ => []
  | derive traits => traits.map fun p => str p.text
  | test => []
  | testOnly => [str "test"]
  | rename wire =>
    [str "rename = " ++ str (Text.literal wire), str "default",
      str "skip_serializing_if = " ++ str (Text.literal "Option::is_none")]

def Attribute.layout (a : Attribute) : List Doc :=
  match a with
  | doc text => layoutDoc false text
  | test => str "#[test]" ++ sp
  | _ =>
    str ("#[" ++ a.name ++ "(")
      ++ cbox step (shift (-step)
        (zb ++ List.intercalate (str "," ++ sp) a.layoutArguments ++ zb))
      ++ str ")]" ++ sp

def layoutAttributes (attrs : List Attribute) : List Doc := attrs.flatMap Attribute.layout

/-! ## Items -/

def visibilityText (isPublic : Bool) : String := if isPublic then "pub " else ""

def Constant.layout (c : Constant) : List Doc :=
  layoutAttributes c.attrs
    ++ cbox 0 (str (visibilityText c.isPublic ++ "const " ++ c.name ++ ": ") ++ c.type.layout
      ++ str " = " ++ measured ++ c.value.layout false false ++ str ";")
    ++ hb

namespace Function

def layoutParams (f : Function) : List (List Doc) :=
  (if f.takesSelf then [str "&self"] else [])
    ++ f.params.map fun p => str (p.name ++ ": ") ++ p.type.layout

def layoutReturns (f : Function) : List Doc :=
  match f.returns with
  | some t => str " -> " ++ t.layout
  | none => []

def layout (f : Function) : List Doc :=
  layoutAttributes f.attrs
    ++ braced (str (visibilityText f.isPublic ++ "fn " ++ f.name ++ "(") ++ measured
        ++ cbox 0 (shift (-step) (zb ++ elements f.layoutParams)) ++ str ")"
        ++ cbox (-step) f.layoutReturns ++ str " ")
      (Stmt.layoutAll f.body)
    ++ hb

end Function

def StructField.layout (f : StructField) : List Doc :=
  layoutAttributes f.attrs ++ str (visibilityText f.isPublic ++ f.name ++ ": ") ++ f.type.layout
    ++ str "," ++ hb

def StructItem.layout (s : StructItem) : List Doc :=
  layoutAttributes s.attrs
    ++ braced (str ("pub struct " ++ s.name ++ " ")) (s.fields.flatMap StructField.layout) ++ hb

def ImplItem.layout (i : ImplItem) : List Doc :=
  let subject :=
    match i.trait? with
    | some p => str p.text ++ sp ++ str ("for " ++ i.target)
    | none => str i.target
  braced (ibox (-step) (cbox step (str "impl") ++ str " " ++ subject) ++ str " ")
      (i.constants.flatMap Constant.layout ++ i.functions.flatMap Function.layout)
    ++ hb

namespace Item

mutual

def layout : Item → List Doc
  | constant c => c.layout
  | function f => f.layout
  | struct s => s.layout
  | impl i => i.layout
  | module attrs isPublic name items =>
    layoutAttributes attrs
      ++ braced (str (visibilityText isPublic ++ "mod " ++ name ++ " ")) (layoutAll items) ++ hb
  | moduleFile attrs isPublic name =>
    layoutAttributes attrs
      ++ cbox step (str (visibilityText isPublic ++ "mod " ++ name ++ ";")) ++ hb
  | reexport p => str ("pub use " ++ p.text ++ ";") ++ hb

def layoutAll : List Item → List Doc
  | [] => []
  | i :: is => i.layout ++ layoutAll is

end

end Item

/-! ## Files -/

def File.layout (f : File) : List Doc :=
  cbox 0 (f.docs.flatMap (layoutDoc true) ++ Item.layoutAll f.items)

/-- The notice that starts every generated file. -/
def notice : String :=
  "// This code was automatically generated by stencil-gen. Do not edit manually.\n\n"

def File.text (f : File) : String := notice ++ render f.layout

end RestForge.Source
