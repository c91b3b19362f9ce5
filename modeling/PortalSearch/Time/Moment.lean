import PortalSearch.Time.Date
import PortalSearch.Decimal.Binary64

/-!
# Moments

A day with a time of day, and the distance from universal time if it is known; a moment
without one is read as universal time. The portal takes moments as milliseconds since the
epoch. The seconds are those of the double nearest to the exact quotient, rounded down,
and the milliseconds are taken from the microsecond of the moment itself, so that the
rounding of the double costs none of them. Far from the epoch, where doubles are sparse,
the nearest one can be the next whole second.
-/

namespace PortalSearch

/-- A moment, exact to the microsecond. -/
structure Moment where
  /-- the day -/
  date : Date
  /-- the hour of the day -/
  hour : Nat
  /-- the minute of the hour -/
  minute : Nat
  /-- the second of the minute -/
  second : Nat
  /-- the microsecond of the second -/
  microsecond : Nat
  /-- microseconds by which its clock is ahead of universal time, if known -/
  offset : Option Int
  deriving DecidableEq

namespace Moment

/-- Midnight of a day, in universal time. -/
def startOf (d : Date) : Moment := ⟨d, 0, 0, 0, 0, none⟩

/-- The microseconds from the epoch to a moment. -/
def epochMicroseconds (t : Moment) : Int :=
  ((t.date.epochDay * 86400 + (t.hour * 3600 + t.minute * 60 + t.second : Nat)) * 1000000 +
    (t.microsecond : Int)) - t.offset.getD 0

/-- The largest whole number that is not above plus or minus `m * 2 ^ e`. -/
def floorPair (negative : Bool) (m : Nat) (e : Int) : Int :=
  let signed : Int := if negative then -(m : Int) else m
  (signed * Int.pow 2 e.toNat) / Int.pow 2 (-e).toNat

/-- The whole seconds of the double nearest to so many microseconds. -/
def wholeSeconds (microseconds : Int) : Int :=
  let near := Binary64.nearestPair microseconds.natAbs 1000000
  floorPair (microseconds < 0) near.1 near.2

/-- Milliseconds since the epoch. -/
def epochMilliseconds (t : Moment) : Int :=
  wholeSeconds t.epochMicroseconds * 1000 + (t.microsecond / 1000 : Nat)

/-! ## Text -/

/-- A number with two digits at least. -/
def twoDigits (n : Nat) : Text := Text.padZeros 2 (Text.ofNat n)

/-- A fraction of a second in six digits after a point; nothing if it is zero. -/
def fractionText (microsecond : Nat) : Text :=
  if microsecond = 0 then [] else '.' :: Text.padZeros 6 (Text.ofNat microsecond)

/-- The distance from universal time: sign, hours and minutes, then the rest if there is any. -/
def offsetText (microseconds : Int) : Text :=
  let n := microseconds.natAbs
  let seconds := n / 1000000
  let fraction := n % 1000000
  [if microseconds < 0 then '-' else '+'] ++ twoDigits (seconds / 3600) ++ [':'] ++
    twoDigits (seconds / 60 % 60) ++
    (if seconds % 60 = 0 ∧ fraction = 0 then [] else ':' :: twoDigits (seconds % 60)) ++
    fractionText fraction

/-- Day and time of day with a blank between them, then the distance from universal time. -/
def text (t : Moment) : Text :=
  t.date.text ++ [' '] ++ twoDigits t.hour ++ [':'] ++ twoDigits t.minute ++ [':'] ++
    twoDigits t.second ++ fractionText t.microsecond ++ (t.offset.map offsetText).getD []

end Moment

end PortalSearch
