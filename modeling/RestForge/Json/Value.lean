import RestForge.Decimal.Binary64
import RestForge.KeyedList

/-!
# JSON values

* `Number`: a whole number within 64 bits, or a double.
* `Json`: a value. The members of an object are kept in increasing order of their keys, each key
  once.
* `Record`: the members of an object, with look-up, insertion and removal by key.
* `Json.kind`: the sort of a value, and the words that messages use for it.
-/

set_option autoImplicit false

namespace RestForge

open Decimal (Binary64)

inductive Number where
  | whole (i : Int)
  | double (x : Binary64)
  deriving Repr, DecidableEq

inductive Json where
  | null
  | bool (b : Bool)
  | number (n : Number)
  | string (s : String)
  | array (items : List Json)
  | object (members : List (String × Json))
  deriving Repr, Inhabited

/-- What sort of value a value is. -/
inductive Json.Kind where
  | null
  | bool
  | number
  | string
  | array
  | object
  deriving Repr, DecidableEq

/-- The words for it in messages about documents. -/
def Json.Kind.phrase : Json.Kind → String
  | null => "null"
  | bool => "a boolean"
  | number => "a number"
  | string => "a string"
  | array => "an array"
  | object => "an object"

/-- The members of an object, in increasing order of their keys. -/
abbrev Record := List (String × Json)

namespace Record

def get? (r : Record) (key : String) : Option Json := KeyedList.get? r key

def contains (r : Record) (key : String) : Bool := (r.get? key).isSome

/-- A later value for a key replaces the earlier one. -/
def insert (key : String) (value : Json) (r : Record) : Record := KeyedList.insert key value r

def ofList (members : List (String × Json)) : Record := KeyedList.ofList members

@[simp] theorem get?_nil (key : String) : get? [] key = none := rfl

theorem get?_insert (r : Record) (key other : String) (value : Json) :
    (insert key value r).get? other = if other = key then some value else r.get? other :=
  KeyedList.get?_insert r key other value

end Record

namespace Json

def isNull : Json → Bool
  | null => true
  | _ => false

def kind : Json → Kind
  | null => .null
  | bool _ => .bool
  | number _ => .number
  | string _ => .string
  | array _ => .array
  | object _ => .object

def nat (n : Nat) : Json := number (.whole n)

def strings (items : List String) : Json := array (items.map string)

end Json

end RestForge
