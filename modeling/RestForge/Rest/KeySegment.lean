/-!
# Keys in paths

* `KeySegment.encode`: a key as one segment of a path. Letters, digits and `-`, `_`, `.`, `~` stay;
  every other byte of the key is a percent sign with two hexadecimal digits.
* `KeySegment.decode?`: the bytes that a segment stands for.
-/

set_option autoImplicit false

namespace RestForge.Rest.KeySegment

/-! ## Digits -/

def hexDigit (n : Nat) : Char :=
  if n < 10 then Char.ofNat ('0'.toNat + n) else Char.ofNat ('A'.toNat + (n - 10))

def hexDigit? (c : Char) : Option Nat :=
  if '0' ≤ c ∧ c ≤ '9' then some (c.toNat - '0'.toNat)
  else if 'A' ≤ c ∧ c ≤ 'F' then some (c.toNat - 'A'.toNat + 10)
  else none

/-! ## Writing -/

/-- Characters that stay as they are. -/
def isPlain (c : Char) : Bool := c.isAlphanum || c == '-' || c == '_' || c == '.' || c == '~'

def encodeByte (b : UInt8) : List Char :=
  let c := Char.ofNat b.toNat
  if isPlain c then [c] else ['%', hexDigit (b.toNat / 16), hexDigit (b.toNat % 16)]

def encode (key : String) : String :=
  String.ofList (key.toUTF8.data.toList.flatMap encodeByte)

/-! ## Reading -/

def decodeChars : List Char → Option (List UInt8)
  | [] => some []
  | '%' :: high :: low :: rest => do
    let h ← hexDigit? high
    let l ← hexDigit? low
    let bytes ← decodeChars rest
    return UInt8.ofNat (16 * h + l) :: bytes
  | c :: rest => do
    if isPlain c then
      let bytes ← decodeChars rest
      return UInt8.ofNat c.toNat :: bytes
    else none

def decode? (segment : String) : Option (List UInt8) := decodeChars segment.toList

end RestForge.Rest.KeySegment
