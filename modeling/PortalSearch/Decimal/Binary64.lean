/-!
# Binary numbers of 64 bits

A number of the double format, given by its 64 bits: one for the sign, eleven for the
exponent, fifty-two for the fraction. A finite number is `significand * 2 ^ exponent`, and
every question about it is answered in whole numbers. Main definition besides the fields:
`nearest`, the number of the format that is nearest to a quotient.
-/

namespace PortalSearch

/-- A number of the double format, by its bits. -/
structure Binary64 where
  /-- the 64 bits -/
  bits : UInt64
  deriving DecidableEq

namespace Binary64

/-! ## Fields -/

/-- Whether the sign bit is set. -/
def isNegative (x : Binary64) : Bool := x.bits.toNat / Nat.pow 2 63 == 1

/-- The exponent field. -/
def exponentField (x : Binary64) : Nat := x.bits.toNat / Nat.pow 2 52 % Nat.pow 2 11

/-- The fraction field. -/
def fractionField (x : Binary64) : Nat := x.bits.toNat % Nat.pow 2 52

/-- Neither infinite nor undefined. -/
def isFinite (x : Binary64) : Bool := x.exponentField != 2047

/-- Not a number. -/
def isNaN (x : Binary64) : Bool := x.exponentField == 2047 && x.fractionField != 0

/-- One of the two zeros. -/
def isZero (x : Binary64) : Bool := x.exponentField == 0 && x.fractionField == 0

/-- The whole number that a finite number is a power of two away from. -/
def significand (x : Binary64) : Nat :=
  if x.exponentField = 0 then x.fractionField else Nat.pow 2 52 + x.fractionField

/-- The power of two that belongs to `significand`. -/
def exponent (x : Binary64) : Int := (max x.exponentField 1 : Nat) - 1075

/-! ## Whole numbers -/

/-- The absolute value, if it is a finite whole number. -/
def wholeMagnitude? (x : Binary64) : Option Nat :=
  if !x.isFinite then none
  else if 0 ≤ x.exponent then some (x.significand * Nat.pow 2 x.exponent.toNat)
  else
    let unit := Nat.pow 2 (-x.exponent).toNat
    if x.significand % unit = 0 then some (x.significand / unit) else none

/-- The value, if it is a finite whole number. Both zeros are the whole number zero. -/
def whole? (x : Binary64) : Option Int :=
  x.wholeMagnitude?.map fun n => if x.isNegative then -(n : Int) else n

/-! ## Rounding

A quotient of whole numbers is rounded to the nearest `m * 2 ^ e` with `m ≤ 2 ^ 53` and
`-1074 ≤ e`, a tie going to the even `m`. -/

/-- The whole number nearest to `num / den`, a tie going to the even one. -/
def roundHalfEven (num den : Nat) : Nat :=
  let q := num / den
  let r := num % den
  if 2 * r < den ∨ (2 * r = den ∧ q % 2 = 0) then q else q + 1

/-- The exponent `e` for which `num / den` lies between `2 ^ (e + 52)` and `2 ^ (e + 53)`, or
`-1074` if that is greater or `num` is zero. -/
def quotientExponent (num den : Nat) : Int :=
  if num = 0 then -1074
  else
    let k : Int := (Nat.log2 num : Int) - (Nat.log2 den : Int)
    let reached :=
      if 0 ≤ k then den * Nat.pow 2 k.toNat ≤ num else den ≤ num * Nat.pow 2 (-k).toNat
    max (if reached then k - 52 else k - 53) (-1074)

/-- The significand and the exponent nearest to `num / den`. -/
def nearestPair (num den : Nat) : Nat × Int :=
  let e := quotientExponent num den
  (roundHalfEven (num * Nat.pow 2 (-e).toNat) (den * Nat.pow 2 e.toNat), e)

/-- The bits of plus or minus infinity. -/
def infinity (negative : Bool) : Binary64 :=
  ⟨if negative then 0xFFF0000000000000 else 0x7FF0000000000000⟩

/-- The number with a sign, a significand of at most `2 ^ 53` and its exponent; infinite if
it is too large for the format. -/
def ofPair (negative : Bool) (m : Nat) (e : Int) : Binary64 :=
  let magnitude := (e + 1074).toNat * Nat.pow 2 52 + m
  if 0x7FF0000000000000 ≤ magnitude then infinity negative
  else ⟨UInt64.ofNat (magnitude + if negative then Nat.pow 2 63 else 0)⟩

/-- The number of the format nearest to `num / den`, with a sign. -/
def nearest (negative : Bool) (num den : Nat) : Binary64 :=
  ofPair negative (nearestPair num den).1 (nearestPair num den).2

/-- The number of the format nearest to `m * 10 ^ p`, with a sign. The powers of ten are not
worked out where the number of digits already shows that the result is infinite or zero. -/
def ofDecimal (negative : Bool) (m : Nat) (p : Int) : Binary64 :=
  let size : Int := (Nat.toDigits 10 m).length + p
  if m = 0 ∨ size < -330 then ofPair negative 0 (-1074)
  else if 310 < size then infinity negative
  else nearest negative (m * Nat.pow 10 p.toNat) (Nat.pow 10 (-p).toNat)

/-- The undefined number that reading gives. -/
def undefined : Binary64 := ⟨0x7FF8000000000000⟩

end Binary64

end PortalSearch
