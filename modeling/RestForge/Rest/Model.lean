import RestForge.Json.Value
import RestForge.Rest.DecodeError

/-!
# Models

A model type has optional fields of four sorts; a field of rows holds models of another type. A value
of a model type is seen in two ways: as one slot per field, and as a record with the wire names of
the fields that are set.

* `ModelShape`, `FieldShape`: model types; `ModelShape.fields`: their wire names in order.
* `FieldValue`, `ModelValue`: values by slot.
* `ModelShape.read`: the slots of a record. `null` and an absent key leave a slot empty, and keys that
  name no field are ignored. A list stands for the slots in order, as far as it goes.
* `ModelShape.write`: the record of the slots.
-/

set_option autoImplicit false

namespace RestForge.Rest

/-! ## Types and values -/

mutual

inductive ModelShape where
  | model (name : String) (fields : List (String × FieldShape))

inductive FieldShape where
  | text
  | integer
  | boolean
  | rows (m : ModelShape)

end

namespace ModelShape

def name : ModelShape → String
  | model name _ => name

def shapes : ModelShape → List (String × FieldShape)
  | model _ fields => fields

/-- The wire names of the fields, in declaration order. -/
def fields (m : ModelShape) : List String := m.shapes.map Prod.fst

end ModelShape

inductive FieldValue where
  | text (s : String)
  | integer (i : Int)
  | boolean (b : Bool)
  | rows (rows : List (List (Option FieldValue)))
  deriving Repr

/-- One slot per field, in declaration order. -/
abbrev ModelValue := List (Option FieldValue)

/-! ## Reading -/

abbrev FieldReaders := List (String × Reader FieldValue)

/-- The fields that the members of a record set; members are read in the order of their keys. -/
def readMembers (readers : FieldReaders) : Record → Except DecodeError (List (String × FieldValue))
  | [] => .ok []
  | (key, value) :: members =>
    match readers.lookup key with
    | none => readMembers readers members
    | some read => do
      let slot ← Reader.optional read value
      let rest ← readMembers readers members
      return (slot.map fun v => (key, v)).toList ++ rest

def readRecord (readers : FieldReaders) (members : Record) : Except DecodeError ModelValue := do
  let found ← readMembers readers members
  return readers.map fun r => found.lookup r.1

/-- The slots that a list gives, and what is left of the list. -/
def readSlots : FieldReaders → List Json → Except DecodeError (ModelValue × List Json)
  | [], items => .ok ([], items)
  | _ :: readers, [] => .ok (none :: readers.map fun _ => none, [])
  | (_, read) :: readers, item :: items => do
    let slot ← Reader.optional read item
    let (slots, left) ← readSlots readers items
    return (slot :: slots, left)

def readList (readers : FieldReaders) (items : List Json) : Except DecodeError ModelValue := do
  let (slots, left) ← readSlots readers items
  if left.isEmpty then return slots else throw (.tooLong items.length)

def readModel (name : String) (readers : FieldReaders) : Reader ModelValue
  | .object members => readRecord readers members
  | .array items => readList readers items
  | j => Reader.mismatch (.record name) j

mutual

def ModelShape.read : ModelShape → Reader ModelValue
  | .model name fields => readModel name (fieldReaders fields)

def FieldShape.read : FieldShape → Reader FieldValue
  | .text => fun j => (Reader.string j).map .text
  | .integer => fun j => (Reader.int64 j).map .integer
  | .boolean => fun j => (Reader.boolean j).map .boolean
  | .rows m => fun j => (Reader.items m.read j).map .rows

def fieldReaders : List (String × FieldShape) → FieldReaders
  | [] => []
  | (wire, shape) :: fields => (wire, shape.read) :: fieldReaders fields

end

/-! ## Writing -/

/-- A member for every slot that is set. -/
def writeSlots : List (String × (FieldValue → Json)) → ModelValue → List (String × Json)
  | (wire, write) :: writers, some value :: slots => (wire, write value) :: writeSlots writers slots
  | _ :: writers, none :: slots => writeSlots writers slots
  | _, _ => []

/-- Rows have no form of their own without the type of the rows. -/
def scalarJson : FieldValue → Json
  | .text s => .string s
  | .integer i => .number (.whole i)
  | .boolean b => .bool b
  | .rows _ => .null

def rowsJson (write : ModelValue → Record) : FieldValue → Json
  | .rows rows => .array (rows.map fun row => .object (write row))
  | value => scalarJson value

mutual

def ModelShape.write : ModelShape → ModelValue → Record
  | .model _ fields => fun slots => Record.ofList (writeSlots (fieldWriters fields) slots)

def FieldShape.write : FieldShape → FieldValue → Json
  | .text => scalarJson
  | .integer => scalarJson
  | .boolean => scalarJson
  | .rows m => rowsJson m.write

def fieldWriters : List (String × FieldShape) → List (String × (FieldValue → Json))
  | [] => []
  | (wire, shape) :: fields => (wire, shape.write) :: fieldWriters fields

end

namespace ModelShape

/-- One field of the record, by its wire name. -/
def field? (m : ModelShape) (value : ModelValue) (wire : String) : Option Json :=
  (m.write value).get? wire

end ModelShape

end RestForge.Rest
