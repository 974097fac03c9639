import RestForge.Decimal.Binary64

/-!
# The shortest decimal that reads back

A double reads back from every decimal of the interval of numbers that round to it; the ends belong
to the interval exactly when its mantissa is even. For one, two, … digits the two neighbours of the
value on that decimal grid are tried, and the first grid with a hit gives the digits: the nearer
neighbour, or the even one of two equally near.

* `Interval.holds`: membership of a decimal in the interval of a double.
* `shortest`: the digits and the exponent of the first digit.
* `FloatLayout`, `FloatLayout.render`: the decisions of a written form, and the text they give.
-/

set_option autoImplicit false

namespace RestForge.Decimal

/-! ## The interval of a double -/

/-- Bounds `low / den` and `high / den`; `closed` tells whether they belong. -/
structure Interval where
  low : Nat
  high : Nat
  den : Nat
  closed : Bool
  deriving Repr

/-- Below a power of two the neighbouring double is half as far away. -/
def Interval.of (x : Binary64) : Interval :=
  let tight := x.mantissa = Nat.pow 2 (Binary64.mantissaBits - 1) ∧ Binary64.leastExponent < x.exponent
  let unit := Nat.pow 2 x.exponent.toNat
  { low := if tight then (4 * x.mantissa - 1) * unit else (4 * x.mantissa - 2) * unit
    high := (4 * x.mantissa + 2) * unit
    den := 4 * x.den
    closed := x.mantissa % 2 == 0 }

/-- Does the ratio `num / den` lie in the interval? -/
def Interval.holds (i : Interval) (num den : Nat) : Bool :=
  if i.closed then i.low * den ≤ num * i.den && num * i.den ≤ i.high * den
  else i.low * den < num * i.den && num * i.den < i.high * den

/-! ## Digits -/

/-- The exponent of the first decimal digit of `num / den`, for positive `num` and `den`. -/
def leadingExponent (num den : Nat) : Int :=
  if den ≤ num then ((Nat.toDigits 10 (num / den)).length : Int) - 1
  else
    let places := (Nat.toDigits 10 (den / num)).length
    if den ≤ num * Nat.pow 10 (places - 1) then -((places : Int) - 1) else -(places : Int)

/-- `units · 10^exponent`. -/
structure GridPoint where
  units : Nat
  exponent : Int
  deriving Repr

def GridPoint.num (p : GridPoint) : Nat := p.units * Nat.pow 10 p.exponent.toNat

def GridPoint.den (p : GridPoint) : Nat := Nat.pow 10 (-p.exponent).toNat

/-- The neighbour of `num / den` on the grid `10^exponent` that the interval holds, if any. -/
def gridHit (i : Interval) (num den : Nat) (exponent : Int) : Option GridPoint :=
  let top := num * Nat.pow 10 (-exponent).toNat
  let bottom := den * Nat.pow 10 exponent.toNat
  let below : GridPoint := ⟨top / bottom, exponent⟩
  let above : GridPoint := ⟨top / bottom + 1, exponent⟩
  match i.holds below.num below.den, i.holds above.num above.den with
  | false, false => none
  | true, false => some below
  | false, true => some above
  | true, true => some ⟨roundHalfEven top bottom, exponent⟩

/-- Tries `count` digit lengths from `digits` on. -/
def firstHit (i : Interval) (num den : Nat) (leading : Int) (digits : Nat) : Nat → Option GridPoint
  | 0 => none
  | count + 1 =>
    match gridHit i num den (leading - digits + 1) with
    | some p => some p
    | none => firstHit i num den leading (digits + 1) count

/-- Decimal digits and the exponent of the first one. -/
structure Digits where
  digits : List Char
  leading : Int
  deriving Repr

def GridPoint.toDigits (p : GridPoint) : Digits :=
  let written := Nat.toDigits 10 p.units
  let kept := (written.reverse.dropWhile (· == '0')).reverse
  ⟨if kept.isEmpty then ['0'] else kept, p.exponent + written.length - 1⟩

/-- Seventeen digits always suffice. -/
def shortest (x : Binary64) : Digits :=
  if x.isZero then ⟨['0'], 0⟩
  else
    match firstHit (Interval.of x) x.num x.den (leadingExponent x.num x.den) 1 17 with
    | some p => p.toDigits
    | none => ⟨['0'], 0⟩

/-! ## Written form -/

/-- How a number is written: positional notation from the least to the greatest leading exponent,
with an exponent after `mark` elsewhere. -/
structure FloatLayout where
  leastPositional : Int
  greatestPositional : Int
  mark : Char
  deriving Repr

def positional (d : Digits) : List Char :=
  if d.leading < 0 then
    ['0', '.'] ++ List.replicate ((-d.leading).toNat - 1) '0' ++ d.digits
  else
    let whole := d.leading.toNat + 1
    let padded := d.digits ++ List.replicate (whole - d.digits.length) '0'
    let fraction := padded.drop whole
    padded.take whole ++ ['.'] ++ (if fraction.isEmpty then ['0'] else fraction)

def scientific (mark : Char) (d : Digits) : List Char :=
  let fraction := d.digits.drop 1
  d.digits.take 1 ++ (if fraction.isEmpty then [] else '.' :: fraction)
    ++ [mark, if d.leading < 0 then '-' else '+'] ++ Nat.toDigits 10 d.leading.natAbs

def FloatLayout.render (layout : FloatLayout) (x : Binary64) : String :=
  let d := shortest x
  let body :=
    if layout.leastPositional ≤ d.leading ∧ d.leading ≤ layout.greatestPositional then positional d
    else scientific layout.mark d
  String.ofList (if x.negative then '-' :: body else body)

end RestForge.Decimal
