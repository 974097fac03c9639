/-!
# Finite binary floating-point numbers

A double is kept as the sign and the two integers of its exact value `±mantissa · 2^exponent`, so
every operation is exact arithmetic on naturals followed by one rounding.

* `roundHalfEven`: the nearest whole number of a ratio, an exact half going to the even neighbour.
* `Binary64.ofRatio?`: the nearest double of a ratio, with gradual underflow; `none` when the
  rounded value leaves the finite range.
* `Binary64.mul?`, `Binary64.div?`: product and quotient, rounded once.
* `Binary64.powerOfTen?`: the double nearest a power of ten.
-/

set_option autoImplicit false

namespace RestForge.Decimal

def roundHalfEven (num den : Nat) : Nat :=
  let whole := num / den
  let twice := 2 * (num % den)
  if twice < den then whole
  else if den < twice then whole + 1
  else if whole % 2 = 0 then whole
  else whole + 1

/-- The value `±mantissa · 2^exponent`. -/
structure Binary64 where
  negative : Bool
  mantissa : Nat
  exponent : Int
  deriving Repr, DecidableEq

namespace Binary64

/-- Exponent of the smallest positive double. -/
def leastExponent : Int := -1074

/-- Exponent of the largest finite doubles. -/
def greatestExponent : Int := 971

/-- Bits of a full mantissa. -/
def mantissaBits : Nat := 53

def zero (negative : Bool) : Binary64 := ⟨negative, 0, leastExponent⟩

def isZero (x : Binary64) : Bool := x.mantissa == 0

def neg (x : Binary64) : Binary64 := { x with negative := !x.negative }

/-- Numerator of `mantissa · 2^exponent`. -/
def num (x : Binary64) : Nat := x.mantissa * Nat.pow 2 x.exponent.toNat

/-- Denominator of `mantissa · 2^exponent`. -/
def den (x : Binary64) : Nat := Nat.pow 2 (-x.exponent).toNat

/-- The greatest `k` with `2^k ≤ num / den`, for positive `num` and `den`. -/
def floorLog2 (num den : Nat) : Int :=
  let guess : Int := (num.log2 : Int) - den.log2
  if den * Nat.pow 2 guess.toNat ≤ num * Nat.pow 2 (-guess).toNat then guess else guess - 1

def ofRatio? (negative : Bool) (num den : Nat) : Option Binary64 :=
  if num = 0 then some (zero negative)
  else
    let exponent := max (floorLog2 num den - (mantissaBits - 1)) leastExponent
    let mantissa :=
      roundHalfEven (num * Nat.pow 2 (-exponent).toNat) (den * Nat.pow 2 exponent.toNat)
    let rounded : Binary64 :=
      if mantissa = Nat.pow 2 mantissaBits then
        ⟨negative, Nat.pow 2 (mantissaBits - 1), exponent + 1⟩
      else ⟨negative, mantissa, exponent⟩
    if greatestExponent < rounded.exponent then none else some rounded

def ofNat? (n : Nat) : Option Binary64 := ofRatio? false n 1

def powerOfTen? (k : Nat) : Option Binary64 := ofNat? (Nat.pow 10 k)

def mul? (x y : Binary64) : Option Binary64 :=
  ofRatio? (x.negative != y.negative) (x.num * y.num) (x.den * y.den)

def div? (x y : Binary64) : Option Binary64 :=
  if y.isZero then none
  else ofRatio? (x.negative != y.negative) (x.num * y.den) (x.den * y.num)

end Binary64

end RestForge.Decimal
