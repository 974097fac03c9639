import RestForge.Emit.Basic

/-!
# Checks of payloads

Every table has its constants (required fields, the declared values of each enum) and two checks. A
create payload is checked for required fields and then for enum values, an update payload for enum
values only; both checks descend into the rows of the tables below, which have modules of their own.

* `Check`: the two checks.
* `validatorItems`: constants and checks of one table, followed by the modules below.
* `validatorsFile`: the file of a resource.
-/

set_option autoImplicit false

namespace RestForge.Emit

open Source Naming

inductive Check where
  | create
  | update
  deriving Repr, DecidableEq

namespace Check

def name : Check → String
  | create => "validate_create"
  | update => "validate_update"

def doc : Check → String
  | create => " Checks a create payload: required fields first, then enum values."
  | update => " Checks an update payload. Absent fields are never an error."

end Check

/-! ## Constants -/

def valuesConstantOf (f : Field) : Constant :=
  ⟨[.doc (" Declared values of " ++ ticked f.wireName ++ ".")], true, valuesConstant f.codeName,
    textList false, texts f.distinctValues⟩

def enumEntry (f : Field) : Expr := .tuple [.text f.wireName, .var (valuesConstant f.codeName)]

def validatorConstants (p : PlacedTable) : List Constant :=
  [⟨[.doc " Dotted path reported in validation errors."], true, "RESOURCE", strRef false,
      .text p.dotted⟩,
    ⟨[.doc " Fields that must be present on create."], true, "REQUIRED_FIELDS", textList false,
      texts (p.requiredFields.map Field.wireName)⟩]
  ++ p.enumFields.map valuesConstantOf
  ++ [⟨[.doc " Enum fields and their declared values."], true, "ENUM_FIELDS",
      .ref false (.slice (.tuple [strRef false, textList false])),
      .ref (.array (p.enumFields.map enumEntry))⟩]

/-! ## Functions -/

def validateCall (function constant : String) : Stmt :=
  .run (.question (callPath (runtime ["validate", function])
    [.var "RESOURCE", .var "payload", .var constant]))

/-- Runs a check on every row of a table below, found under the last piece of its path. -/
def rowCheck (check : Check) (c : PlacedTable) : Stmt :=
  .forEach "row"
    (callPath (runtime ["validate", "table_rows"]) [.var "payload", .text c.segment])
    [.run (.question (callPath (.rel [c.codeName, check.name]) [.var "row"]))]

def checkBody (p : PlacedTable) (check : Check) : List Stmt :=
  (match check with
    | .create => [validateCall "require_fields" "REQUIRED_FIELDS"]
    | .update => [])
  ++ [validateCall "check_enums" "ENUM_FIELDS"]
  ++ p.childTables.map (rowCheck check)
  ++ [.result (callName "Ok" [.tuple []])]

def checkFunction (p : PlacedTable) (check : Check) : Function :=
  { attrs := [.doc check.doc]
    isPublic := true
    name := check.name
    takesSelf := false
    params := [⟨"payload", .ref false (runtimeType "Record")⟩]
    trailing := false
    returns := some (outcome (.tuple []) (runtimeType "ValidationError"))
    body := checkBody p check }

/-! ## Items -/

def validatorModule (c : PlacedTable) (items : List Item) : Item :=
  .module [.doc (" Validators for rows of " ++ ticked c.dotted ++ ".")] true c.codeName items

def validatorItems : PlacedTable → List Item :=
  PlacedTable.fold fun p below =>
    (validatorConstants p).map .constant
      ++ [.function (checkFunction p .create), .function (checkFunction p .update)]
      ++ List.zipWith validatorModule p.childTables below

def validatorsFile (r : Resource) : File :=
  { docs := [" Validators for " ++ ticked r.dottedPath ++ "."]
    items := validatorItems (PlacedTable.ofResource r) }

end RestForge.Emit
