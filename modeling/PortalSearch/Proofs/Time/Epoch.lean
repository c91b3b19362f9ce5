import Mathlib.Algebra.Order.Ring.Int
import Mathlib.Tactic.NormNum
import PortalSearch.Proofs.Decimal.Nearest
import PortalSearch.Time.Moment

/-!
# Milliseconds since the epoch

The whole seconds of a moment are taken from the double nearest to its exact seconds. Whole numbers
of that size are numbers of the format, so rounding never passes one of them: the double lies
between the two whole seconds around the moment, and its floor is the lower or the upper of them.
Below `2 ^ 34` the format has a number within `2 ^ -20` of every other one, which is less than the
microsecond that a moment keeps from the next whole second, so there the floor is always the lower.

Main result: the milliseconds are those of the exact quotient or one second more, and exact for more
than five hundred years on both sides of the epoch (`epochMilliseconds_cases`).
-/

namespace PortalSearch

/-! ## Days and moments of the calendar -/

/-- Whether a day is one of the calendar, in a year of four digits. -/
structure Date.IsValid (d : Date) : Prop where
  /-- the year -/
  year : 1 ≤ d.year ∧ d.year ≤ 9999
  /-- the month -/
  month : 1 ≤ d.month ∧ d.month ≤ 12
  /-- the day of the month -/
  day : 1 ≤ d.day ∧ d.day ≤ Date.daysInMonth d.year d.month

instance (d : Date) : Decidable d.IsValid :=
  decidable_of_iff (_ ∧ _ ∧ _) ⟨fun ⟨a, b, c⟩ => ⟨a, b, c⟩, fun ⟨a, b, c⟩ => ⟨a, b, c⟩⟩

namespace Moment

/-- Whether a moment is one of the calendar, its clock less than a day from universal time. -/
structure IsValid (t : Moment) : Prop where
  /-- the day -/
  date : t.date.IsValid
  /-- the hour of the day -/
  hour : t.hour < 24
  /-- the minute of the hour -/
  minute : t.minute < 60
  /-- the second of the minute -/
  second : t.second < 60
  /-- the microsecond of the second -/
  microsecond : t.microsecond < 1000000
  /-- the distance from universal time -/
  offset : ∀ o ∈ t.offset, o.natAbs < 86400000000

instance (t : Moment) : Decidable t.IsValid :=
  decidable_of_iff (_ ∧ _ ∧ _ ∧ _ ∧ _ ∧ _)
    ⟨fun ⟨a, b, c, d, e, f⟩ => ⟨a, b, c, d, e, f⟩, fun ⟨a, b, c, d, e, f⟩ => ⟨a, b, c, d, e, f⟩⟩

/-- Whether the distance from universal time is a whole number of seconds. -/
def HasWholeOffset (t : Moment) : Prop := ∀ o ∈ t.offset, (1000000 : Int) ∣ o

instance (t : Moment) : Decidable t.HasWholeOffset :=
  inferInstanceAs (Decidable (∀ o ∈ t.offset, (1000000 : Int) ∣ o))

end Moment

namespace Date

theorem daysInMonth_le (year month : Nat) : daysInMonth year month ≤ 31 := by
  rw [daysInMonth]
  split_ifs <;> omega

theorem daysBeforeMonth_le (year month : Nat) :
    daysBeforeMonth year month ≤ 31 * (month - 1) := by
  rw [daysBeforeMonth]
  induction month - 1 with
  | zero => exact le_rfl
  | succ n ih =>
    rw [List.range_succ, List.foldl_append]
    exact Nat.add_le_add ih (daysInMonth_le year (n + 1))

theorem IsValid.natAbs_epochDay_le {d : Date} (h : d.IsValid) : d.epochDay.natAbs ≤ 4000000 := by
  have hmonth := daysBeforeMonth_le d.year d.month
  have hlength := daysInMonth_le d.year d.month
  have hyear := h.year
  have hmonths := h.month
  have hday := h.day
  rw [epochDay, show daysBeforeYear 1970 + 1 = 719163 from rfl, daysBeforeYear]
  omega

end Date

namespace Moment

/-! ## The double nearest to the seconds -/

/-- Plus or minus one, as the microseconds are not or are below zero. -/
def signOf (n : Int) : ℚ := if n < 0 then -1 else 1

/-- The double nearest to the seconds of so many microseconds. -/
def nearSeconds (n : Int) : ℚ :=
  signOf n * Binary64.valueOf (Binary64.nearestPair n.natAbs 1000000)

theorem abs_signOf (n : Int) : |signOf n| = 1 := by
  rw [signOf]
  split <;> simp

theorem signOf_mul_natAbs (n : Int) : signOf n * n.natAbs = n := by
  rw [signOf, ← Int.cast_natCast, Int.natCast_natAbs]
  split
  · next h =>
    rw [abs_of_neg h]
    push_cast
    ring
  · next h =>
    rw [abs_of_nonneg (not_lt.mp h), one_mul]

theorem floorPair_eq (negative : Bool) (m : Nat) (e : Int) :
    floorPair negative m e =
      ⌊(if negative then -1 else 1 : ℚ) * Binary64.valueOf (m, e)⌋ := by
  have hvalue (signed : Int) : (signed : ℚ) * 2 ^ e =
      (signed * 2 ^ e.toNat : Int) / ((2 ^ (-e).toNat : Nat) : ℚ) := by
    rcases Int.le_total 0 e with he | he
    · obtain ⟨k, rfl⟩ := Int.eq_ofNat_of_zero_le he
      have hneg : (-(k : Int)).toNat = 0 := by omega
      rw [hneg, Int.toNat_natCast, zpow_natCast]
      push_cast
      simp
    · obtain ⟨k, hk⟩ := Int.eq_ofNat_of_zero_le (Int.neg_nonneg_of_nonpos he)
      obtain rfl : e = -(k : Int) := by omega
      rw [neg_neg, Int.toNat_natCast, Int.toNat_neg_natCast, zpow_neg, zpow_natCast,
        ← div_eq_mul_inv]
      push_cast
      simp
  rw [floorPair, Int.pow_eq, Int.pow_eq, Binary64.valueOf, ← mul_assoc]
  have hsigned : (if negative then -1 else 1 : ℚ) * m =
      ((if negative then -(m : Int) else m : Int) : ℚ) := by
    cases negative <;> simp
  rw [hsigned, hvalue, Rat.floor_intCast_div_natCast]
  push_cast
  rfl

theorem wholeSeconds_eq_floor (n : Int) : wholeSeconds n = ⌊nearSeconds n⌋ := by
  rw [wholeSeconds, floorPair_eq, nearSeconds, signOf]
  simp

theorem abs_signOf_mul_sub (n : Int) (x : ℚ) :
    |signOf n * x - n / 1000000| = |x - n.natAbs / (1000000 : Nat)| := by
  rw [← one_mul |x - _|, ← abs_signOf n, ← abs_mul, mul_sub, ← mul_div_assoc,
    signOf_mul_natAbs, Nat.cast_ofNat]

/-- No number of the format, with the sign of the moment, is nearer to its seconds. -/
theorem abs_nearSeconds_sub_le (n : Int) {p : Nat × Int} (hp : Binary64.Fits p) :
    |nearSeconds n - n / 1000000| ≤ |signOf n * Binary64.valueOf p - n / 1000000| := by
  rw [nearSeconds, abs_signOf_mul_sub, abs_signOf_mul_sub]
  exact (Binary64.isNearest_nearestPair n.natAbs (by norm_num)).le p hp

variable {n k : Int}

/-- In particular no whole number is nearer. -/
theorem abs_nearSeconds_sub_le_whole (hk : k.natAbs ≤ 2 ^ 53) (hsign : n < 0 → k ≤ 0)
    (hsign' : 0 ≤ n → 0 ≤ k) :
    |nearSeconds n - n / 1000000| ≤ |(k : ℚ) - n / 1000000| := by
  have hfits : Binary64.Fits (k.natAbs, 0) := ⟨hk, by norm_num⟩
  have hvalue : signOf n * Binary64.valueOf (k.natAbs, 0) = k := by
    have habs : (k.natAbs : ℚ) = (|k| : Int) := by
      rw [← Int.natCast_natAbs, Int.cast_natCast]
    rw [Binary64.valueOf, zpow_zero, mul_one, signOf, habs]
    split
    · next hneg =>
      rw [abs_of_nonpos (hsign hneg)]
      push_cast
      ring
    · next hnonneg =>
      rw [abs_of_nonneg (hsign' (not_lt.mp hnonneg)), one_mul]
  rw [← hvalue]
  exact abs_nearSeconds_sub_le n hfits

/-! ## Whole seconds -/

/-- The double lies between the two whole seconds around the moment. -/
theorem nearSeconds_mem_Icc (h : n.natAbs ≤ 2 ^ 52 * 1000000) :
    ((n / 1000000 : Int) : ℚ) ≤ nearSeconds n ∧
      nearSeconds n ≤ ((n / 1000000 + 1 : Int) : ℚ) := by
  have hlow : ((n / 1000000 : Int) : ℚ) ≤ n / 1000000 := by
    rw [le_div_iff₀ (by norm_num)]
    exact_mod_cast Int.ediv_mul_le n (by norm_num)
  have hhigh : (n : ℚ) / 1000000 ≤ ((n / 1000000 + 1 : Int) : ℚ) := by
    rw [div_le_iff₀ (by norm_num)]
    exact_mod_cast (Int.lt_ediv_add_one_mul_self n (by norm_num)).le
  have hlower := abs_nearSeconds_sub_le_whole (n := n) (k := n / 1000000)
    (by omega) (by omega) (by omega)
  have hupper := abs_nearSeconds_sub_le_whole (n := n) (k := n / 1000000 + 1)
    (by omega) (by omega) (by omega)
  rw [abs_of_nonpos (sub_nonpos.mpr hlow)] at hlower
  rw [abs_of_nonneg (sub_nonneg.mpr hhigh)] at hupper
  have hdown := abs_le.mp hlower
  have hup := abs_le.mp hupper
  constructor <;> linarith

theorem wholeSeconds_cases (h : n.natAbs ≤ 2 ^ 52 * 1000000) :
    wholeSeconds n = n / 1000000 ∨ wholeSeconds n = n / 1000000 + 1 := by
  obtain ⟨hlow, hhigh⟩ := nearSeconds_mem_Icc h
  rw [wholeSeconds_eq_floor]
  have hge := Int.le_floor.mpr hlow
  have hle := Int.floor_mono hhigh
  rw [Int.floor_intCast] at hle
  omega

/-- Whole seconds are kept. -/
theorem wholeSeconds_of_dvd (h : n.natAbs ≤ 2 ^ 52 * 1000000) (hn : 1000000 ∣ n) :
    wholeSeconds n = n / 1000000 := by
  obtain ⟨k, rfl⟩ := hn
  have hexact := abs_nearSeconds_sub_le_whole (n := 1000000 * k) (k := k)
    (by omega) (by omega) (by omega)
  have hquotient : ((1000000 * k : Int) : ℚ) / 1000000 = k := by
    push_cast
    exact mul_div_cancel_left₀ _ (by norm_num)
  rw [hquotient, sub_self, abs_zero, abs_nonpos_iff, sub_eq_zero] at hexact
  rw [wholeSeconds_eq_floor, hexact, Int.floor_intCast, Int.mul_ediv_cancel_left _ (by norm_num)]

/-- Below `2 ^ 34` seconds the format has a number within `2 ^ -20` of every other one. -/
theorem abs_nearSeconds_sub_le_of_lt (h : n.natAbs < 2 ^ 34 * 1000000) :
    |nearSeconds n - n / 1000000| ≤ 1 / 2 ^ 20 := by
  -- the seconds on a unit of `2 ^ -19`, and the whole number nearest to them
  set y : ℚ := n.natAbs / (1000000 : Nat) * 2 ^ 19 with hy
  have hless : y < 2 ^ 53 := by
    have hn : (n.natAbs : ℚ) < (2 ^ 34 * 1000000 : Nat) := by exact_mod_cast h
    rw [hy]
    push_cast at hn ⊢
    linarith
  have hnonneg : 0 ≤ round y := by
    rw [round_eq]
    positivity
  obtain ⟨m, hm⟩ := Int.eq_ofNat_of_zero_le hnonneg
  have hround := abs_sub_round y
  rw [hm, Int.cast_natCast] at hround
  have hfits : Binary64.Fits (m, -19) := by
    refine ⟨?_, by norm_num⟩
    have hlt : (m : ℚ) < (2 ^ 53 + 1 : Nat) := by
      push_cast
      linarith [(abs_le.mp hround).1]
    exact Nat.lt_succ_iff.mp (by exact_mod_cast hlt)
  have hunit : Binary64.valueOf (m, -19) - n.natAbs / (1000000 : Nat) = -(y - m) / 2 ^ 19 := by
    rw [Binary64.valueOf, hy, zpow_neg]
    norm_num
    ring
  calc |nearSeconds n - n / 1000000|
      ≤ |signOf n * Binary64.valueOf (m, -19) - n / 1000000| := abs_nearSeconds_sub_le n hfits
    _ = |y - m| / 2 ^ 19 := by
      have hpos : (0 : ℚ) < 2 ^ 19 := by norm_num
      rw [abs_signOf_mul_sub, hunit, abs_div, abs_neg, abs_of_pos hpos]
    _ ≤ 1 / 2 / 2 ^ 19 := by gcongr
    _ = 1 / 2 ^ 20 := by norm_num

/-- A microsecond before the next whole second, the double is still below it. -/
theorem wholeSeconds_of_lt (h : n.natAbs < 2 ^ 34 * 1000000) : wholeSeconds n = n / 1000000 := by
  obtain ⟨hlow, -⟩ := nearSeconds_mem_Icc (n := n) (by omega)
  rw [wholeSeconds_eq_floor, Int.floor_eq_iff]
  refine ⟨hlow, ?_⟩
  have hnear := (abs_le.mp (abs_nearSeconds_sub_le_of_lt h)).2
  have hgap : (n : ℚ) / 1000000 ≤ (n / 1000000 : Int) + 999999 / 1000000 := by
    have hle : n ≤ (n / 1000000) * 1000000 + 999999 := by omega
    have : (n : ℚ) ≤ (n / 1000000 : Int) * 1000000 + 999999 := by exact_mod_cast hle
    rw [div_le_iff₀ (by norm_num)]
    linarith
  have hhalf : (1 : ℚ) / 2 ^ 20 < 1 / 1000000 := by norm_num
  linarith

/-! ## Milliseconds -/

variable {t : Moment}

theorem IsValid.natAbs_epochMicroseconds_le (h : t.IsValid) :
    t.epochMicroseconds.natAbs ≤ 2 ^ 52 * 1000000 := by
  have hday := h.date.natAbs_epochDay_le
  have hhour := h.hour
  have hminute := h.minute
  have hsecond := h.second
  have hmicrosecond := h.microsecond
  have hoffset : (t.offset.getD 0).natAbs < 86400000000 := by
    cases ho : t.offset with
    | none => decide
    | some o => exact h.offset o ho
  rw [epochMicroseconds]
  push_cast
  omega

/-- An offset of whole seconds leaves the microsecond as it is. -/
theorem HasWholeOffset.exists_seconds (h : t.HasWholeOffset) :
    ∃ seconds : Int, t.epochMicroseconds = seconds * 1000000 + t.microsecond := by
  have hoffset : (1000000 : Int) ∣ t.offset.getD 0 := by
    cases ho : t.offset with
    | none => exact dvd_zero _
    | some o => exact h o ho
  obtain ⟨k, hk⟩ := hoffset
  refine ⟨t.date.epochDay * 86400 + (t.hour * 3600 + t.minute * 60 + t.second : Nat) - k, ?_⟩
  rw [epochMicroseconds, hk]
  ring

/-- A second too much is a thousand milliseconds too much. -/
theorem epochMilliseconds_eq (hvalid : t.IsValid) (hoffset : t.HasWholeOffset) :
    t.epochMilliseconds = t.epochMicroseconds / 1000 +
      (wholeSeconds t.epochMicroseconds - t.epochMicroseconds / 1000000) * 1000 := by
  obtain ⟨seconds, hseconds⟩ := hoffset.exists_seconds
  have hmicrosecond := hvalid.microsecond
  rw [epochMilliseconds]
  push_cast
  omega

theorem isValid_startOf {d : Date} (h : d.IsValid) : (startOf d).IsValid :=
  ⟨h, Nat.succ_pos _, Nat.succ_pos _, Nat.succ_pos _, Nat.succ_pos _, nofun⟩

theorem hasWholeOffset_startOf (d : Date) : (startOf d).HasWholeOffset := nofun

/-- **The milliseconds of a moment** are those of the exact quotient or one second more. They are
exact at the start of every day, and at every moment within `2 ^ 34` seconds of the epoch, where
later moments have no less of them. -/
theorem epochMilliseconds_cases :
    (∀ d : Date, d.IsValid →
      (startOf d).epochMilliseconds = (startOf d).epochMicroseconds / 1000) ∧
    ∀ t : Moment, t.IsValid → t.HasWholeOffset →
      (t.epochMilliseconds = t.epochMicroseconds / 1000 ∨
        t.epochMilliseconds = t.epochMicroseconds / 1000 + 1000) ∧
      (t.epochMicroseconds.natAbs < 2 ^ 34 * 1000000 →
        t.epochMilliseconds = t.epochMicroseconds / 1000 ∧
        ∀ s : Moment, s.IsValid → s.HasWholeOffset →
          s.epochMicroseconds.natAbs < 2 ^ 34 * 1000000 →
          s.epochMicroseconds ≤ t.epochMicroseconds →
          s.epochMilliseconds ≤ t.epochMilliseconds) := by
  have hexact {t : Moment} (hvalid : t.IsValid) (hoffset : t.HasWholeOffset)
      (hwhole : wholeSeconds t.epochMicroseconds = t.epochMicroseconds / 1000000) :
      t.epochMilliseconds = t.epochMicroseconds / 1000 := by
    rw [epochMilliseconds_eq hvalid hoffset, hwhole, sub_self, zero_mul, add_zero]
  refine ⟨?_, ?_⟩
  · intro d hd
    have hvalid := isValid_startOf hd
    have hoffset := hasWholeOffset_startOf d
    obtain ⟨seconds, hseconds⟩ := hoffset.exists_seconds
    refine hexact hvalid hoffset (wholeSeconds_of_dvd hvalid.natAbs_epochMicroseconds_le ?_)
    exact ⟨seconds, by rw [hseconds, mul_comm]; exact add_zero _⟩
  · intro t hvalid hoffset
    refine ⟨?_, ?_⟩
    · rw [epochMilliseconds_eq hvalid hoffset]
      rcases wholeSeconds_cases hvalid.natAbs_epochMicroseconds_le with hwhole | hwhole
      · left
        rw [hwhole]
        ring
      · right
        rw [hwhole]
        ring
    · intro hnear
      have ht := hexact hvalid hoffset (wholeSeconds_of_lt hnear)
      refine ⟨ht, ?_⟩
      intro s hs hsoffset hsnear hle
      rw [ht, hexact hs hsoffset (wholeSeconds_of_lt hsnear)]
      exact Int.ediv_le_ediv (by norm_num) hle

/-- A moment before the epoch by a clock that is behind, one that is earlier by centuries, and one
so late that the nearest double is the next whole second. -/
theorem epochMilliseconds_around_epoch :
    let before : Moment := ⟨⟨1969, 12, 31⟩, 22, 59, 59, 999999, some (-3600000000)⟩
    let earlier : Moment := ⟨⟨1426, 2, 28⟩, 0, 0, 0, 1, none⟩
    let late : Moment := ⟨⟨9999, 12, 31⟩, 23, 59, 59, 999999, some 19800000000⟩
    (startOf ⟨1600, 2, 29⟩).epochMilliseconds = (startOf ⟨1600, 2, 29⟩).epochMicroseconds / 1000 ∧
      before.epochMilliseconds = -1 ∧ earlier.epochMilliseconds ≤ before.epochMilliseconds ∧
      late.epochMilliseconds = late.epochMicroseconds / 1000 + 1000 := by
  intro before earlier late
  have hbefore : before.IsValid ∧ before.HasWholeOffset := by decide
  have hearlier : earlier.IsValid ∧ earlier.HasWholeOffset := by decide
  have hlate : late.IsValid ∧ late.HasWholeOffset := by decide
  obtain ⟨hstart, hmoment⟩ := epochMilliseconds_cases
  obtain ⟨-, hnear⟩ := hmoment before hbefore.1 hbefore.2
  obtain ⟨hvalue, hlater⟩ := hnear (by decide)
  refine ⟨hstart _ (by decide), hvalue.trans (by decide +kernel), ?_, ?_⟩
  · exact hlater earlier hearlier.1 hearlier.2 (by decide +kernel) (by decide +kernel)
  · exact (hmoment late hlate.1 hlate.2).1.resolve_left (by decide +kernel)

end Moment

end PortalSearch
