import RestForge.Json.Value

/-!
# Reading JSON text

* `Reason`, `SyntaxError`: why a text is no JSON, and the line and the byte column up to which it was
  read.
* `Cursor`: the text still to be read and the position reached.
* `Json.parse`: one value with white space around it. Of the members with one key the last counts.

A number without fraction and exponent is whole if it fits 64 bits. Any other is a double: the
first digits that fit 64 bits, as a double, times or divided by the double nearest the power of ten.
-/

set_option autoImplicit false

namespace RestForge

open Decimal (Binary64)

namespace Json

/-! ## Errors -/

inductive Reason where
  | endInValue
  | endInArray
  | endInObject
  | endInString
  | valueExpected
  | wordExpected
  | colonExpected
  | commaOrBraceExpected
  | commaOrBracketExpected
  | trailingComma
  | trailingText
  | keyNotString
  | badNumber
  | numberTooBig
  | badEscape
  | halfSurrogatePair
  | loneSurrogate
  | rawControl
  | nestedTooDeep
  deriving Repr, DecidableEq

def Reason.message : Reason → String
  | endInValue => "EOF while parsing a value"
  | endInArray => "EOF while parsing a list"
  | endInObject => "EOF while parsing an object"
  | endInString => "EOF while parsing a string"
  | valueExpected => "expected value"
  | wordExpected => "expected ident"
  | colonExpected => "expected `:`"
  | commaOrBraceExpected => "expected `,` or `\x7d`"
  | commaOrBracketExpected => "expected `,` or `]`"
  | trailingComma => "trailing comma"
  | trailingText => "trailing characters"
  | keyNotString => "key must be a string"
  | badNumber => "invalid number"
  | numberTooBig => "number out of range"
  | badEscape => "invalid escape"
  | halfSurrogatePair => "unexpected end of hex escape"
  | loneSurrogate => "lone leading surrogate in hex escape"
  | rawControl => "control character (\\u0000-\\u001F) found while parsing a string"
  | nestedTooDeep => "recursion limit exceeded"

/-- Lines count from one; the column counts the bytes read of the line. -/
structure SyntaxError where
  reason : Reason
  line : Nat
  column : Nat
  deriving Repr, DecidableEq

def SyntaxError.message (e : SyntaxError) : String :=
  s!"{e.reason.message} at line {e.line} column {e.column}"

/-! ## Positions -/

structure Cursor where
  rest : List Char
  line : Nat
  column : Nat
  deriving Repr

namespace Cursor

def ofString (s : String) : Cursor := ⟨s.toList, 1, 0⟩

/-- Moves past one character. -/
def advance (c : Cursor) : Cursor :=
  match c.rest with
  | [] => c
  | '\n' :: rest => ⟨rest, c.line + 1, 0⟩
  | ch :: rest => ⟨rest, c.line, c.column + ch.utf8Size⟩

/-- Fails at the position reached. -/
def fail {α : Type} (c : Cursor) (reason : Reason) : Except SyntaxError α :=
  .error ⟨reason, c.line, c.column⟩

/-- Fails at the byte that is being looked at, which counts as read. -/
def failAtNext {α : Type} (c : Cursor) (reason : Reason) : Except SyntaxError α :=
  match c.rest with
  | [] => c.fail reason
  | '\n' :: _ => .error ⟨reason, c.line + 1, 0⟩
  | _ :: _ => .error ⟨reason, c.line, c.column + 1⟩

/-- Moves past a number of bytes, possibly into a character. -/
def advanceBytes (c : Cursor) : Nat → List Char → Cursor
  | 0, rest => { c with rest := rest }
  | _ + 1, [] => { c with rest := [] }
  | bytes + 1, ch :: rest =>
    if ch = '\n' then advanceBytes ⟨rest, c.line + 1, 0⟩ bytes rest
    else if ch.utf8Size ≤ bytes + 1 then
      advanceBytes { c with column := c.column + ch.utf8Size } (bytes + 1 - ch.utf8Size) rest
    else { c with rest := ch :: rest, column := c.column + bytes + 1 }

def skipBlanksIn (line column : Nat) : List Char → Cursor
  | [] => ⟨[], line, column⟩
  | ch :: rest =>
    if ch = '\n' then skipBlanksIn (line + 1) 0 rest
    else if ch = ' ' || ch = '\t' || ch = '\r' then skipBlanksIn line (column + 1) rest
    else ⟨ch :: rest, line, column⟩

def skipBlanks (c : Cursor) : Cursor := skipBlanksIn c.line c.column c.rest

/-- The decimal digits that come next, and the cursor behind them. -/
def digits (c : Cursor) : List Nat × Cursor :=
  let ds := c.rest.takeWhile Char.isDigit
  (ds.map fun d => d.toNat - '0'.toNat,
    ⟨c.rest.dropWhile Char.isDigit, c.line, c.column + ds.length⟩)

end Cursor

/-! ## Words -/

/-- Expects the characters of a word; anything else fails at its first wrong byte. -/
def readWord (value : Json) : List Char → Cursor → Except SyntaxError (Json × Cursor)
  | [], c => .ok (value, c)
  | w :: ws, c =>
    match c.rest with
    | [] => c.fail .endInValue
    | ch :: _ => if ch = w then readWord value ws c.advance else c.failAtNext .wordExpected

/-! ## Numbers -/

/-- The greatest whole number of 64 bits. -/
def maxWord : Nat := 18446744073709551615

/-- The size of the least whole number of 64 bits with a sign. -/
def leastMagnitude : Nat := 9223372036854775808

/-- Decimal exponents are read up to 31 bits. -/
def maxExponent : Nat := 2147483647

/-- The greatest power of ten that a double holds. -/
def greatestPower : Nat := 308

/-- Takes up digits as long as the number stays within `bound`; returns it with the count taken. -/
def absorb (bound : Nat) : Nat → List Nat → Nat × Nat
  | n, [] => (n, 0)
  | n, d :: ds =>
    if bound < n * 10 + d then (n, 0)
    else
      let (m, taken) := absorb bound (n * 10 + d) ds
      (m, taken + 1)

/-- Divides `rounds` times by the greatest power, or until nothing is left, and then by
`10^power`. -/
def scaleDown (x : Binary64) (power : Nat) : Nat → Option Binary64
  | 0 => (Binary64.powerOfTen? power).bind x.div?
  | rounds + 1 =>
    if x.isZero then some x
    else
      match (Binary64.powerOfTen? greatestPower).bind x.div? with
      | some y => scaleDown y power rounds
      | none => none

/-- `significand · 10^exponent`, or `none` beyond the doubles. -/
def scaled (significand : Nat) (exponent : Int) : Option Binary64 := do
  let x ← Binary64.ofNat? significand
  if exponent < 0 then
    let rounds := (exponent.natAbs - 1) / greatestPower
    scaleDown x (exponent.natAbs - rounds * greatestPower) rounds
  else if exponent.natAbs ≤ greatestPower then
    let p ← Binary64.powerOfTen? exponent.natAbs
    x.mul? p
  else if x.isZero then some x
  else none

def finishDouble (negative : Bool) (significand : Nat) (exponent : Int) (c : Cursor) :
    Except SyntaxError (Json × Cursor) :=
  match scaled significand exponent with
  | some x => .ok (.number (.double (if negative then x.neg else x)), c)
  | none => c.fail .numberTooBig

/-- The cursor stands behind the mark of the exponent. -/
def readExponent (negative : Bool) (significand : Nat) (start : Int) (c : Cursor) :
    Except SyntaxError (Json × Cursor) :=
  let (down, c) :=
    match c.rest with
    | '+' :: _ => (false, c.advance)
    | '-' :: _ => (true, c.advance)
    | _ => (false, c)
  match c.rest with
  | [] => c.fail .endInValue
  | ch :: _ =>
    if ch.isDigit then
      let (ds, after) := c.digits
      let (exponent, taken) := absorb maxExponent 0 ds
      if taken < ds.length then
        if significand ≠ 0 ∧ down = false then
          Cursor.fail { c with column := c.column + taken + 1 } .numberTooBig
        else .ok (.number (.double (Binary64.zero negative)), after)
      else
        finishDouble negative significand (if down then start - exponent else start + exponent) after
    else c.failAtNext .badNumber

/-- The cursor stands behind the decimal point. -/
def readFraction (negative : Bool) (significand : Nat) (start : Int) (c : Cursor) :
    Except SyntaxError (Json × Cursor) :=
  let (ds, after) := c.digits
  if ds.isEmpty then c.failAtNext (if c.rest.isEmpty then .endInValue else .badNumber)
  else
    let (significand, taken) := absorb maxWord significand ds
    let exponent := start - taken
    match after.rest with
    | ch :: _ =>
      if ch = 'e' || ch = 'E' then readExponent negative significand exponent after.advance
      else finishDouble negative significand exponent after
    | [] => finishDouble negative significand exponent after

/-- A negative whole number must fit 64 bits with its sign; minus zero is a double. -/
def finishWhole (negative : Bool) (n : Nat) (c : Cursor) : Except SyntaxError (Json × Cursor) :=
  if negative then
    if n = 0 ∨ leastMagnitude < n then finishDouble true n 0 c
    else .ok (.number (.whole (-n)), c)
  else .ok (.number (.whole n), c)

/-- Goes on behind the whole digits, `dropped` of which did not fit into `significand`. -/
def readTail (negative : Bool) (significand dropped : Nat) (c : Cursor) :
    Except SyntaxError (Json × Cursor) :=
  match c.rest with
  | '.' :: _ => readFraction negative significand dropped c.advance
  | 'e' :: _ => readExponent negative significand dropped c.advance
  | 'E' :: _ => readExponent negative significand dropped c.advance
  | _ =>
    if dropped = 0 then finishWhole negative significand c
    else finishDouble negative significand dropped c

/-- The cursor stands behind the sign. -/
def readNumber (negative : Bool) (c : Cursor) : Except SyntaxError (Json × Cursor) :=
  match c.rest with
  | [] => c.fail .endInValue
  | ch :: _ =>
    if ch = '0' then
      match c.advance.rest with
      | next :: _ =>
        if next.isDigit then c.advance.failAtNext .badNumber else readTail negative 0 0 c.advance
      | [] => readTail negative 0 0 c.advance
    else if ch.isDigit then
      let (ds, after) := c.digits
      let (significand, taken) := absorb maxWord 0 ds
      readTail negative significand (ds.length - taken) after
    else c.failAtNext .badNumber

/-! ## Strings -/

def hexValue? (ch : Char) : Option Nat :=
  if ch.isDigit then some (ch.toNat - '0'.toNat)
  else if 'a' ≤ ch && ch ≤ 'f' then some (ch.toNat - 'a'.toNat + 10)
  else if 'A' ≤ ch && ch ≤ 'F' then some (ch.toNat - 'A'.toNat + 10)
  else none

def bytesOf (cs : List Char) : Nat := cs.foldl (fun n ch => n + ch.utf8Size) 0

/-- Four hexadecimal digits, taken as the next four bytes. -/
def readHex (c : Cursor) : Except SyntaxError (Nat × Cursor) :=
  if bytesOf (c.rest.take 4) < 4 then
    Cursor.fail (c.advanceBytes 4 c.rest) .endInString
  else
    match c.rest with
    | a :: b :: d :: e :: _ =>
      match hexValue? a, hexValue? b, hexValue? d, hexValue? e with
      | some a, some b, some d, some e =>
        .ok (((a * 16 + b) * 16 + d) * 16 + e, c.advanceBytes 4 c.rest)
      | _, _, _, _ => Cursor.fail (c.advanceBytes 4 c.rest) .badEscape
    | _ => Cursor.fail (c.advanceBytes 4 c.rest) .badEscape

/-- Expects one character of the second half of a surrogate pair. -/
def expectPair (ch : Char) (c : Cursor) : Except SyntaxError Cursor :=
  match c.rest with
  | [] => c.fail .endInString
  | next :: _ => if next = ch then .ok c.advance else c.failAtNext .halfSurrogatePair

/-- The cursor stands behind `\u`. A character beyond the first plane takes two escapes. -/
def readUnicode (c : Cursor) : Except SyntaxError (Char × Cursor) := do
  let (n, c) ← readHex c
  if 0xDC00 ≤ n ∧ n ≤ 0xDFFF then c.fail .loneSurrogate
  else if n < 0xD800 ∨ 0xDBFF < n then return (Char.ofNat n, c)
  else
    let c ← expectPair '\\' c
    let c ← expectPair 'u' c
    let (low, c) ← readHex c
    if low < 0xDC00 ∨ 0xDFFF < low then c.fail .loneSurrogate
    else return (Char.ofNat ((n - 0xD800) * 0x400 + (low - 0xDC00) + 0x10000), c)

/-- The cursor stands behind the backslash. -/
def readEscape (c : Cursor) : Except SyntaxError (Char × Cursor) :=
  match c.rest with
  | [] => c.fail .endInString
  | '"' :: _ => .ok ('"', c.advance)
  | '\\' :: _ => .ok ('\\', c.advance)
  | '/' :: _ => .ok ('/', c.advance)
  | 'b' :: _ => .ok ('\x08', c.advance)
  | 'f' :: _ => .ok ('\x0c', c.advance)
  | 'n' :: _ => .ok ('\n', c.advance)
  | 'r' :: _ => .ok ('\r', c.advance)
  | 't' :: _ => .ok ('\t', c.advance)
  | 'u' :: _ => readUnicode c.advance
  | _ :: _ => c.failAtNext .badEscape

/-- The cursor stands behind the opening quote; `taken` holds the characters read, last first. One
unit of fuel goes into each character. -/
def readString (taken : List Char) (c : Cursor) : Nat → Except SyntaxError (String × Cursor)
  | 0 => c.fail .endInString
  | fuel + 1 =>
    match c.rest with
    | [] => c.fail .endInString
    | ch :: _ =>
      if ch = '"' then .ok (String.ofList taken.reverse, c.advance)
      else if ch = '\\' then
        match readEscape c.advance with
        | .error e => .error e
        | .ok (escaped, c) => readString (escaped :: taken) c fuel
      else if ch.toNat < 0x20 then c.failAtNext .rawControl
      else readString (ch :: taken) c.advance fuel

def readText (c : Cursor) : Except SyntaxError (String × Cursor) :=
  readString [] c (c.rest.length + 1)

/-! ## Values -/

/-- The cursor stands at a comma or at the end of a container. A comma must be followed by more. -/
def nextItem (c : Cursor) : Except SyntaxError Cursor :=
  let c := c.advance.skipBlanks
  match c.rest with
  | [] => c.fail .endInValue
  | ']' :: _ => c.failAtNext .trailingComma
  | _ :: _ => .ok c

mutual

/-- Reads a value; `depth` containers may still be opened, and one unit of fuel goes into each step
of the grammar, all of which read at least one character. -/
def readValue (depth : Nat) (c : Cursor) : Nat → Except SyntaxError (Json × Cursor)
  | 0 => c.fail .endInValue
  | fuel + 1 =>
    let c := c.skipBlanks
    match c.rest with
    | [] => c.fail .endInValue
    | 'n' :: _ => readWord .null "ull".toList c.advance
    | 't' :: _ => readWord (.bool true) "rue".toList c.advance
    | 'f' :: _ => readWord (.bool false) "alse".toList c.advance
    | '-' :: _ => readNumber true c.advance
    | '"' :: _ => do
      let (s, c) ← readText c.advance
      return (.string s, c)
    | '[' :: _ =>
      match depth with
      | 0 | 1 => c.failAtNext .nestedTooDeep
      | depth + 2 => readItems (depth + 1) true [] c.advance fuel
    | '\x7b' :: _ =>
      match depth with
      | 0 | 1 => c.failAtNext .nestedTooDeep
      | depth + 2 => readMembers (depth + 1) true [] c.advance fuel
    | ch :: _ => if ch.isDigit then readNumber false c else c.failAtNext .valueExpected

def readItems (depth : Nat) (first : Bool) (taken : List Json) (c : Cursor) :
    Nat → Except SyntaxError (Json × Cursor)
  | 0 => c.fail .endInArray
  | fuel + 1 =>
    let c := c.skipBlanks
    match c.rest with
    | [] => c.fail .endInArray
    | ']' :: _ => .ok (.array taken.reverse, c.advance)
    | ch :: _ => do
      let c ←
        if first then pure c
        else if ch = ',' then nextItem c
        else c.failAtNext .commaOrBracketExpected
      let (item, c) ← readValue depth c fuel
      readItems depth false (item :: taken) c fuel

def readMembers (depth : Nat) (first : Bool) (taken : Record) (c : Cursor) :
    Nat → Except SyntaxError (Json × Cursor)
  | 0 => c.fail .endInObject
  | fuel + 1 =>
    let c := c.skipBlanks
    match c.rest with
    | [] => c.fail .endInObject
    | '\x7d' :: _ => .ok (.object taken, c.advance)
    | ch :: _ => do
      let c ←
        if first then pure c
        else if ch = ',' then
          let c := c.advance.skipBlanks
          match c.rest with
          | [] => c.fail .endInValue
          | '\x7d' :: _ => c.failAtNext .trailingComma
          | _ :: _ => pure c
        else c.failAtNext .commaOrBraceExpected
      let c ←
        match c.rest with
        | '"' :: _ => pure c.advance
        | _ => c.failAtNext .keyNotString
      let (key, c) ← readText c
      let c := c.skipBlanks
      let c ←
        match c.rest with
        | [] => c.fail .endInObject
        | ':' :: _ => pure c.advance
        | _ :: _ => c.failAtNext .colonExpected
      let (value, c) ← readValue depth c fuel
      readMembers depth false (Record.insert key value taken) c fuel

end

/-- A container counts against the limit when it is opened, so at most `nestingLimit - 1` can be
open. -/
def nestingLimit : Nat := 128

def parseNested (limit : Nat) (s : String) : Except SyntaxError Json := do
  let c := Cursor.ofString s
  let (value, c) ← readValue limit c (2 * c.rest.length + 2)
  let c := c.skipBlanks
  if c.rest.isEmpty then return value else c.failAtNext .trailingText

def parse (s : String) : Except SyntaxError Json := parseNested nestingLimit s

end Json

end RestForge
