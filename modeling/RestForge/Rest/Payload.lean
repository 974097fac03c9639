import RestForge.Rest.Failure

/-!
# Checks of payloads

* `requireFields`: all required fields have a value.
* `checkEnums`: the enum fields that have a value have a declared one.
* `tableRows`: the rows of a nested table in a payload.
-/

set_option autoImplicit false

namespace RestForge.Rest

/-- A field without a value is absent or `null`. -/
def isUnset (payload : Record) (field : String) : Bool :=
  match payload.get? field with
  | none => true
  | some value => value.isNull

/-- Every missing field is named, in the order of `required`. -/
def requireFields (resource : String) (payload : Record) (required : List String) :
    Except ValidationError Unit :=
  match required.filter (isUnset payload) with
  | [] => .ok ()
  | missing => .error (.missingRequired resource missing)

/-- An enum field and its declared values. -/
structure EnumField where
  field : String
  values : List String
  deriving Repr, DecidableEq

/-- The text of a value that is compared with the declared ones: a string itself, any other value as
it is written. -/
def enumText? : Json → Option String
  | .null => none
  | .string s => some s
  | other => some other.compact

/-- The value of an enum field that is none of the declared ones. -/
def undeclared? (payload : Record) (e : EnumField) : Option String :=
  ((payload.get? e.field).bind enumText?).filter fun text => !e.values.contains text

/-- The first enum field with an undeclared value is the error. -/
def checkEnums (resource : String) (payload : Record) : List EnumField → Except ValidationError Unit
  | [] => .ok ()
  | e :: es =>
    match undeclared? payload e with
    | some text => .error (.invalidEnum resource e.field text e.values)
    | none => checkEnums resource payload es

def rowOf? : Json → Option Record
  | .object members => some members
  | _ => none

/-- Items that are no objects are passed over. -/
def tableRows (payload : Record) (field : String) : List Record :=
  match payload.get? field with
  | some (.array items) => items.filterMap rowOf?
  | _ => []

end RestForge.Rest
