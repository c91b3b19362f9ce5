import PortalSearch.Text.Basic
import PortalSearch.Decimal.Binary64

/-!
# The shortest decimal that reads back

Among all decimals that are nearer to a given binary number than to any other number of
the format, the one with the fewest digits, and of those the nearest. It is found on the
coarsest power of ten on which such a decimal lies: if a point of that grid reads back,
so does one of the two points next to the number itself, hence only these are tried.

The second half lays the digits out: positionally while the decimal exponent is moderate,
with an exponent part otherwise. `Layout` holds the choices that are not arithmetic.
-/

namespace PortalSearch.Decimal

/-! ## The interval that reads back -/

/-- The numbers that round to a given one: those between `low` and `high` units of
`2 ^ exponent`, the ends among them if `closed`. The number itself is `middle` units. -/
structure Interval where
  /-- the lower end -/
  low : Nat
  /-- the number itself -/
  middle : Nat
  /-- the upper end -/
  high : Nat
  /-- the binary exponent of the unit -/
  exponent : Int
  /-- whether the ends belong to it -/
  closed : Bool

/-- The interval of a positive finite number. Just above a power of two the numbers below
are twice as dense, so the lower half is half as wide. -/
def intervalOf (x : Binary64) : Interval where
  low := 4 * x.significand - if x.fractionField = 0 ∧ 1 < x.exponentField then 1 else 2
  middle := 4 * x.significand
  high := 4 * x.significand + 2
  exponent := x.exponent - 2
  closed := x.significand % 2 == 0

/-- `c * 10 ^ p` brought over a common denominator with `Interval.scaled`. -/
def scaledDecimal (e p : Int) (c : Nat) : Nat := c * Nat.pow 10 p.toNat * Nat.pow 2 (-e).toNat

/-- `n * 2 ^ e` brought over a common denominator with `scaledDecimal`. -/
def scaledBinary (e p : Int) (n : Nat) : Nat := n * Nat.pow 2 e.toNat * Nat.pow 10 (-p).toNat

/-- Whether `c * 10 ^ p` lies in the interval. -/
def Interval.holds (i : Interval) (p : Int) (c : Nat) : Bool :=
  let v := scaledDecimal i.exponent p c
  let lo := scaledBinary i.exponent p i.low
  let hi := scaledBinary i.exponent p i.high
  if i.closed then lo ≤ v && v ≤ hi else lo < v && v < hi

/-- The point of the grid of `10 ^ p` that lies in the interval and is nearest to its
number, if there is one; of two equally near points the even one. -/
def Interval.gridPoint? (i : Interval) (p : Int) : Option Nat :=
  let v := scaledBinary i.exponent p i.middle
  let unit := scaledDecimal i.exponent p 1
  let below := v / unit
  let above := below + 1
  match i.holds p below, i.holds p above with
  | true, true =>
    let r := v % unit
    some (if 2 * r < unit ∨ (2 * r = unit ∧ below % 2 = 0) then below else above)
  | true, false => some below
  | false, true => some above
  | false, false => none

/-- The first grid with a point in the interval, from `10 ^ p` downwards in at most `fuel`
steps, and that point. -/
def Interval.coarsest (i : Interval) : (fuel : Nat) → (p : Int) → Nat × Int
  | 0, p => (i.middle, p)
  | fuel + 1, p =>
    match i.gridPoint? p with
    | some c => (c, p)
    | none => i.coarsest fuel (p - 1)

/-- The shortest decimal of a positive finite number: `c` and `p` of `c * 10 ^ p`. No number of
the format reaches `10 ^ 309`, and `10 ^ -324` is finer than every interval. -/
def shortest (x : Binary64) : Nat × Int := (intervalOf x).coarsest 634 309

/-! ## Layout -/

/-- How the digits of a decimal are laid out. -/
structure Layout where
  /-- the least decimal exponent that is written positionally -/
  least : Int
  /-- the first decimal exponent that is not -/
  limit : Int
  /-- how many digits an exponent has at least -/
  exponentDigits : Nat

/-- The text of `0.d₁d₂… * 10 ^ point`. -/
def Layout.write (style : Layout) (digits : Text) (point : Int) : Text :=
  let exponent := point - 1
  if style.least ≤ exponent ∧ exponent < style.limit then
    if point ≤ 0 then "0." ++ List.replicate (-point).toNat '0' ++ digits
    else if (digits.length : Int) ≤ point then
      digits ++ List.replicate (point.toNat - digits.length) '0' ++ ".0"
    else digits.take point.toNat ++ ['.'] ++ digits.drop point.toNat
  else
    let lead := digits.take 1
    let rest := digits.drop 1
    lead ++ (if rest = [] then [] else '.' :: rest) ++
      ['e', if exponent < 0 then '-' else '+'] ++
      Text.padZeros style.exponentDigits (Text.ofNat exponent.natAbs)

/-- The text of a number of the double format. -/
def Layout.text (style : Layout) (x : Binary64) : Text :=
  if x.isNaN then "nan"
  else
    (if x.isNegative then ['-'] else []) ++
      if !x.isFinite then "inf".toList
      else if x.isZero then "0.0".toList
      else
        let digits := Text.ofNat (shortest x).1
        style.write digits (digits.length + (shortest x).2)

end PortalSearch.Decimal
