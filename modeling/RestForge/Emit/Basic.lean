import RestForge.Naming.TypeNames
import RestForge.Source.Tree
import RestForge.Text.Split

/-!
# What the generated files of a resource have in common

* `docAttributes`: documentation text as attributes, one a line.
* `runtime`: paths into the runtime library that generated code calls.
* `resourceModule`: where a resource lives in the generated crate.
* `scalarType`: the type of a field that is no table.
* `IllegalName`: a type name that cannot stand in source; `checkNames` looks for one.
-/

set_option autoImplicit false

namespace RestForge.Emit

open Source

/-! ## Documentation -/

/-- A line is trimmed and put one space behind the comment mark, so that no indentation is left. -/
def docLine (line : String) : String :=
  let trimmed := Text.trim line
  if trimmed.isEmpty then "" else " " ++ trimmed

def docAttributes (text : String) : List Attribute :=
  (Text.lines text).map fun line => .doc (docLine line)

/-- A text in backticks. -/
def ticked (s : String) : String := "`" ++ s ++ "`"

/-! ## Paths and types -/

def runtime (names : List String) : Path := .glob ("stencil" :: names)

def runtimeType (name : String) : Ty := .named (runtime [name])

def resourceModule (r : Resource) : Path := .rel ("crate" :: r.category.text :: r.modules)

def textType : Ty := .named (.glob ["std", "string", "String"])

def scalarType (f : Field) : Ty :=
  match f.type with
  | .integer => .named (.rel ["i64"])
  | .boolean => .named (.rel ["bool"])
  | _ => textType

/-- A reference to text. -/
def strRef (isStatic : Bool) : Ty := .ref isStatic (.named (.rel ["str"]))

/-- A constant list of texts. -/
def textList (isStatic : Bool) : Ty := .ref isStatic (.slice (strRef isStatic))

def applied (name : String) (args : List Ty) : Ty := .path (.rel [name]) args

/-- The result of a function that may fail. -/
def outcome (value error : Ty) : Ty := applied "Result" [value, error]

/-! ## Expressions -/

def texts (items : List String) : Expr := .ref (.array (items.map .text))

def callPath (p : Path) (args : List Expr) : Expr := .call (.path p) args false

def callName (name : String) (args : List Expr) : Expr := callPath (.rel [name]) args

/-! ## Names -/

/-- A type name that begins with no letter and no underscore. -/
structure IllegalName where
  name : String
  deriving Repr, DecidableEq

def checkNames : List String → Except IllegalName Unit
  | [] => .ok ()
  | name :: names =>
    if Naming.isIdentifier name then checkNames names else .error ⟨name⟩

end RestForge.Emit
