import RestForge.Text.CamelCase

/-!
# Identifiers made from wire names

Wire names are free text; code names are lowercase identifiers.

* `ScopeKind`: what a name is used for, which decides the words it must avoid.
* `identifier`: the code name that a wire name asks for.
* `typeName`: the name of a generated type, from the code names that lead to its table.
* `valuesConstant`: the name of the constant that lists the declared values of a field.
* `isIdentifier`: may a word stand as a name in generated source at all?
-/

set_option autoImplicit false

namespace RestForge.Naming

/-- Fields of one table, modules below one parent, or types of one resource. -/
inductive ScopeKind where
  | fields
  | modules
  | types
  deriving Repr, DecidableEq, Hashable

def ScopeKind.text : ScopeKind → String
  | fields => "fields"
  | modules => "modules"
  | types => "types"

/-! ## Reserved words -/

/-- Keywords of the generated language, the reserved ones and the lone underscore included. -/
def keywords : List String :=
  ["_", "abstract", "as", "async", "await", "become", "box", "break", "const", "continue",
    "crate", "do", "dyn", "else", "enum", "extern", "false", "final", "fn", "for", "gen", "if",
    "impl", "in", "let", "loop", "macro", "match", "mod", "move", "mut", "override", "priv", "pub",
    "ref", "return", "self", "static", "struct", "super", "trait", "true", "try", "type", "typeof",
    "unsafe", "unsized", "use", "virtual", "where", "while", "yield"]

/-- A client keeps its endpoint in a field, and a resource its artifacts in modules, of these
names; the last three modules would shadow crates. -/
def ScopeKind.reserved : ScopeKind → List String
  | fields => ["endpoint"]
  | modules => ["model", "client", "validators", "tests", "std", "core", "alloc"]
  | types => []

def isReserved (kind : ScopeKind) (name : String) : Bool :=
  keywords.contains name || kind.reserved.contains name

/-- Types that generated code uses without a path. -/
def reservedTypes : List String := ["Self", "Option", "Result", "String", "Vec", "Box"]

/-! ## Code names -/

def isNameChar (c : Char) : Bool := c.isLower || c.isDigit || c == '_'

/-- Small letters, digits and underscores stay, capitals become small, all else an underscore. -/
def foldChar (c : Char) : Char :=
  if isNameChar c.toLower then c.toLower else '_'

def startsWithDigit (name : String) : Bool :=
  match name.toList with
  | c :: _ => c.isDigit
  | [] => false

/-- Folds every character, puts an underscore behind a reserved word and an `n` before a digit. -/
def identifier (kind : ScopeKind) (wire : String) : String :=
  let folded := String.ofList (wire.toList.map foldChar)
  let named := if folded.isEmpty then "_" else folded
  let free := if isReserved kind named then named ++ "_" else named
  if startsWithDigit free then "n" ++ free else free

/-! ## Derived names -/

def typeName (parts : List String) : String :=
  let camel := Text.camelCase (String.intercalate "_" parts)
  let named := if camel.isEmpty then "Resource" else camel
  if reservedTypes.contains named then named ++ "_" else named

def valuesConstant (codeName : String) : String :=
  String.ofList (codeName.toList.map Char.toUpper) ++ "_VALUES"

/-- A letter or underscore, then letters, digits and underscores. -/
def isIdentifier (name : String) : Bool :=
  match name.toList with
  | [] => false
  | c :: cs => (c.isAlpha || c == '_') && cs.all fun d => d.isAlphanum || d == '_'

end RestForge.Naming
