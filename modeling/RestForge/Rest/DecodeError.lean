import RestForge.Json.Printer
import RestForge.Text.Quoted

/-!
# Values that do not fit

* `Found`: what a value is, as far as messages tell.
* `Wanted`: what stands in its place in a fitting document.
* `DecodeError`: why a value does not fit; its text.
-/

set_option autoImplicit false

namespace RestForge.Rest

inductive Found where
  | null
  | bool (b : Bool)
  | number (n : Number)
  | string (s : String)
  | sequence
  | map
  deriving Repr, DecidableEq

namespace Found

def ofJson : Json → Found
  | .null => null
  | .bool b => bool b
  | .number n => number n
  | .string s => string s
  | .array _ => sequence
  | .object _ => map

def text : Found → String
  | null => "null"
  | bool true => "boolean `true`"
  | bool false => "boolean `false`"
  | number (.whole i) => s!"integer `{(Number.whole i).text}`"
  | number (.double x) => s!"floating point `{(Number.double x).text}`"
  | string s => "string " ++ Text.quote s
  | sequence => "sequence"
  | map => "map"

end Found

inductive Wanted where
  | string
  | int64
  | boolean
  | sequence
  | uint16
  | unit
  | record (name : String)
  /-- A word, or an object with the word as its only key. -/
  | word
  | singleKey
  deriving Repr, DecidableEq

def Wanted.text : Wanted → String
  | string => "a string"
  | int64 => "i64"
  | boolean => "a boolean"
  | sequence => "a sequence"
  | uint16 => "u16"
  | unit => "unit"
  | record name => "struct " ++ name
  | word => "string or map"
  | singleKey => "map with a single key"

inductive DecodeError where
  | wrongType (found : Found) (wanted : Wanted)
  | wrongValue (found : Found) (wanted : Wanted)
  /-- A list that ends before the last field without a default. -/
  | tooShort (length : Nat) (record : String) (fields : Nat)
  /-- A list that is longer than the list of fields. -/
  | tooLong (length : Nat)
  | missingField (name : String)
  | unknownWord (word first second : String)
  /-- A payload of another shape, with its text. -/
  | wrongShape (wanted found : String)
  deriving Repr, DecidableEq

def DecodeError.text : DecodeError → String
  | wrongType found wanted => s!"invalid type: {found.text}, expected {wanted.text}"
  | wrongValue found wanted => s!"invalid value: {found.text}, expected {wanted.text}"
  | tooShort length record fields =>
    s!"invalid length {length}, expected struct {record} with {fields} elements"
  | tooLong length => s!"invalid length {length}, expected fewer elements in array"
  | missingField name => s!"missing field `{name}`"
  | unknownWord word first second =>
    s!"unknown variant `{word}`, expected `{first}` or `{second}`"
  | wrongShape wanted found => s!"expected {wanted}, found {found}"

/-- Reading of a value of some type. -/
abbrev Reader (α : Type) := Json → Except DecodeError α

namespace Reader

def mismatch {α : Type} (wanted : Wanted) (j : Json) : Except DecodeError α :=
  .error (.wrongType (.ofJson j) wanted)

def string : Reader String
  | .string s => .ok s
  | j => mismatch .string j

def boolean : Reader Bool
  | .bool b => .ok b
  | j => mismatch .boolean j

/-- A whole number within bounds. -/
def wholeWithin (low high : Int) (wanted : Wanted) : Reader Int
  | .number (.whole i) =>
    if low ≤ i ∧ i ≤ high then .ok i else .error (.wrongValue (.number (.whole i)) wanted)
  | j => mismatch wanted j

def int64 : Reader Int := wholeWithin (-9223372036854775808) 9223372036854775807 .int64

def uint16 : Reader Nat := fun j => (wholeWithin 0 65535 .uint16 j).map Int.toNat

def items {α : Type} (read : Reader α) : Reader (List α)
  | .array xs => xs.mapM read
  | j => mismatch .sequence j

/-- `null` stands for no value. -/
def optional {α : Type} (read : Reader α) : Reader (Option α)
  | .null => .ok none
  | j => (read j).map some

end Reader

end RestForge.Rest
