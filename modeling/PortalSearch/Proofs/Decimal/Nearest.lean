import Mathlib.Algebra.Order.Field.Power
import Mathlib.Algebra.Order.Round
import Mathlib.Data.Rat.Floor
import Mathlib.Tactic.FieldSimp
import Mathlib.Tactic.Linarith
import Mathlib.Tactic.Ring
import PortalSearch.Decimal.Binary64

/-!
# The nearest number of the double format

Rounding a quotient works in whole numbers throughout: the exponent is found by comparing powers of
two, the significand by a division with remainder. Here the result is told in rational numbers. The
quotient over the unit `2 ^ e` is rounded to a whole number at most half away, and below the binade
of the quotient the format has no number that is nearer than the lower end of that binade.

Main result: `nearestPair` gives a number of the format, and no other number of the format is nearer
to the quotient (`isNearest_nearestPair`).
-/

namespace PortalSearch.Binary64

/-- The value `m * 2 ^ e` of a significand and an exponent. -/
def valueOf (p : Nat × Int) : ℚ := p.1 * 2 ^ p.2

/-- Whether a significand and an exponent are within the bounds of the format. How large numbers
can get is left aside. -/
structure Fits (p : Nat × Int) : Prop where
  /-- at most 53 binary digits, or the next power of two -/
  significand : p.1 ≤ 2 ^ 53
  /-- no finer than the format is -/
  exponent : -1074 ≤ p.2

/-- Whether a number of the format is at most as far from `x` as any other. -/
structure IsNearest (p : Nat × Int) (x : ℚ) : Prop where
  /-- it is a number of the format -/
  fits : Fits p
  /-- no other is nearer -/
  le : ∀ q, Fits q → |valueOf p - x| ≤ |valueOf q - x|

/-! ## Rounding to whole numbers -/

theorem abs_roundHalfEven_sub_le (num : Nat) {den : Nat} (hden : 0 < den) :
    |(roundHalfEven num den : ℚ) - num / den| ≤ 1 / 2 := by
  have hpos : (0 : ℚ) < den := by exact_mod_cast hden
  have hquotient : (num : ℚ) / den = (num / den : Nat) + (num % den : Nat) / (den : ℚ) := by
    have hnum : (num : ℚ) = den * (num / den : Nat) + (num % den : Nat) := by
      exact_mod_cast (Nat.div_add_mod num den).symm
    rw [div_eq_iff hpos.ne', add_mul, div_mul_cancel₀ _ hpos.ne', mul_comm _ (den : ℚ)]
    exact hnum
  have hrest : (0 : ℚ) ≤ (num % den : Nat) / (den : ℚ) := by positivity
  rw [hquotient, roundHalfEven]
  split
  · next hdown =>
    have hhalf : (num % den : Nat) / (den : ℚ) ≤ 1 / 2 := by
      have hle : 2 * (num % den) ≤ den := by omega
      rw [div_le_div_iff₀ hpos two_pos, mul_comm, one_mul]
      exact_mod_cast hle
    rw [abs_le]
    constructor <;> linarith
  · next hup =>
    have hhalf : 1 / 2 ≤ (num % den : Nat) / (den : ℚ) := by
      have hle : den ≤ 2 * (num % den) := by omega
      rw [div_le_div_iff₀ two_pos hpos, one_mul, mul_comm]
      exact_mod_cast hle
    have hless : (num % den : Nat) / (den : ℚ) < 1 := by
      rw [div_lt_one hpos]
      exact_mod_cast Nat.mod_lt num hden
    rw [abs_le]
    push_cast
    constructor <;> linarith

/-- What is at most half away from `x` is nearest to `x` among the whole numbers. -/
theorem abs_sub_le_of_half {x : ℚ} {n : Int} (h : |(n : ℚ) - x| ≤ 1 / 2) (k : Int) :
    |(n : ℚ) - x| ≤ |(k : ℚ) - x| := by
  by_cases hk : n = k
  · rw [hk]
  · have hone : (1 : ℚ) ≤ |(n : ℚ) - k| := by exact_mod_cast Int.one_le_abs (sub_ne_zero.mpr hk)
    have hsplit : |(n : ℚ) - k| ≤ |(n : ℚ) - x| + |(k : ℚ) - x| := by
      rw [abs_sub_comm (k : ℚ) x]
      exact abs_sub_le _ _ _
    linarith

/-! ## The exponent -/

/-- A quotient over a power of two, as a quotient of whole numbers. -/
theorem cast_scaled_div (num den : Nat) (e : Int) :
    ((num * Nat.pow 2 (-e).toNat : Nat) : ℚ) / (den * Nat.pow 2 e.toNat : Nat) =
      num / den / 2 ^ e := by
  rcases Int.le_total 0 e with he | he
  · obtain ⟨k, rfl⟩ := Int.eq_ofNat_of_zero_le he
    have hneg : (-(k : Int)).toNat = 0 := by omega
    rw [hneg, Int.toNat_natCast, zpow_natCast, div_div]
    simp
  · obtain ⟨k, hk⟩ := Int.eq_ofNat_of_zero_le (Int.neg_nonneg_of_nonpos he)
    obtain rfl : e = -(k : Int) := by omega
    rw [neg_neg, Int.toNat_natCast, Int.toNat_neg_natCast, zpow_neg, zpow_natCast, div_inv_eq_mul]
    push_cast
    simp
    ring

variable {num den : Nat}

/-- The exponent of the binade of a quotient, or the one below it, shows in the lengths of its
parts. -/
theorem log_lt_quotient (hnum : num ≠ 0) (hden : 0 < den) :
    (2 : ℚ) ^ ((num.log2 : Int) - den.log2 - 1) < num / den := by
  have hpos : (0 : ℚ) < den := by exact_mod_cast hden
  have hlow : (2 : ℚ) ^ num.log2 ≤ num := by exact_mod_cast Nat.log2_self_le hnum
  have hhigh : (den : ℚ) < 2 ^ (den.log2 + 1) := by exact_mod_cast Nat.lt_log2_self
  rw [lt_div_iff₀ hpos]
  calc (2 : ℚ) ^ ((num.log2 : Int) - den.log2 - 1) * den
      < 2 ^ ((num.log2 : Int) - den.log2 - 1) * 2 ^ (den.log2 + 1) := by gcongr
    _ = 2 ^ num.log2 := by
      rw [← zpow_natCast, ← zpow_add₀ two_ne_zero, ← zpow_natCast]
      congr 1
      push_cast
      ring
    _ ≤ num := hlow

theorem quotient_lt_log (hden : 0 < den) :
    (num : ℚ) / den < 2 ^ ((num.log2 : Int) - den.log2 + 1) := by
  have hpos : (0 : ℚ) < den := by exact_mod_cast hden
  have hlow : (2 : ℚ) ^ den.log2 ≤ den := by exact_mod_cast Nat.log2_self_le hden.ne'
  have hhigh : (num : ℚ) < 2 ^ (num.log2 + 1) := by exact_mod_cast Nat.lt_log2_self
  rw [div_lt_iff₀ hpos]
  calc (num : ℚ) < 2 ^ (num.log2 + 1) := hhigh
    _ = 2 ^ ((num.log2 : Int) - den.log2 + 1) * 2 ^ den.log2 := by
      rw [← zpow_natCast, ← zpow_natCast, ← zpow_add₀ two_ne_zero]
      congr 1
      push_cast
      ring
    _ ≤ 2 ^ ((num.log2 : Int) - den.log2 + 1) * den := by gcongr

theorem reached_iff (num : Nat) (hden : 0 < den) (k : Int) :
    (if 0 ≤ k then den * Nat.pow 2 k.toNat ≤ num else den ≤ num * Nat.pow 2 (-k).toNat) ↔
      (2 : ℚ) ^ k ≤ num / den := by
  have hpos : (0 : ℚ) < den := by exact_mod_cast hden
  rw [le_div_iff₀ hpos]
  split
  · next hk =>
    obtain ⟨j, rfl⟩ := Int.eq_ofNat_of_zero_le hk
    rw [Int.toNat_natCast, zpow_natCast, mul_comm]
    exact_mod_cast Iff.rfl
  · next hk =>
    obtain ⟨j, hj⟩ := Int.eq_ofNat_of_zero_le (a := -k) (by omega)
    obtain rfl : k = -(j : Int) := by omega
    rw [neg_neg, Int.toNat_natCast, zpow_neg, zpow_natCast, inv_mul_le_iff₀ (by positivity),
      mul_comm (2 ^ j : ℚ)]
    exact_mod_cast Iff.rfl

/-- The exponent puts a quotient into a binade of 53 digits, unless it is the least of all. -/
theorem quotientExponent_spec (num : Nat) (hden : 0 < den) :
    -1074 ≤ quotientExponent num den ∧
      (num : ℚ) / den < 2 ^ (quotientExponent num den + 53) ∧
      (quotientExponent num den = -1074 ∨
        (2 : ℚ) ^ (quotientExponent num den + 52) ≤ num / den) := by
  rw [quotientExponent]
  split
  · next hzero =>
    rw [hzero]
    refine ⟨le_rfl, ?_, .inl rfl⟩
    rw [Nat.cast_zero, zero_div]
    positivity
  · next hnum =>
    -- the exponent before it is kept above the least one
    set k : Int := (num.log2 : Int) - den.log2 with hk
    have hspec : ∀ e : Int, ((2 : ℚ) ^ (e + 52) ≤ num / den ∧ (num : ℚ) / den < 2 ^ (e + 53)) →
        -1074 ≤ max e (-1074) ∧ (num : ℚ) / den < 2 ^ (max e (-1074) + 53) ∧
          (max e (-1074) = -1074 ∨ (2 : ℚ) ^ (max e (-1074) + 52) ≤ num / den) := by
      rintro e ⟨hlow, hhigh⟩
      refine ⟨le_max_right .., hhigh.trans_le ?_, ?_⟩
      · exact zpow_le_zpow_right₀ one_le_two (add_le_add_left (le_max_left ..) _)
      · rcases max_choice e (-1074) with he | he
        · rw [he]
          exact .inr hlow
        · exact .inl he
    have hreached := reached_iff num hden k
    dsimp only
    by_cases hyes : (2 : ℚ) ^ k ≤ num / den
    · rw [if_pos (hreached.mpr hyes)]
      refine hspec _ ⟨?_, ?_⟩
      · rw [sub_add_cancel]
        exact hyes
      · rw [show k - 52 + 53 = k + 1 by ring]
        exact quotient_lt_log hden
    · rw [if_neg (mt hreached.mp hyes)]
      refine hspec _ ⟨?_, ?_⟩
      · rw [show k - 53 + 52 = k - 1 by ring]
        exact (log_lt_quotient hnum hden).le
      · rw [sub_add_cancel]
        exact lt_of_not_ge hyes

/-! ## The nearest number -/

theorem abs_valueOf_sub (m : Nat) (e : Int) (x : ℚ) :
    |valueOf (m, e) - x| = |(m : ℚ) - x / 2 ^ e| * 2 ^ e := by
  have hpos : (0 : ℚ) < 2 ^ e := by positivity
  rw [valueOf, ← abs_of_pos hpos, ← abs_mul, abs_of_pos hpos, sub_mul, div_mul_cancel₀ _ hpos.ne']

/-- The significand is the whole number nearest to the quotient over the unit. -/
theorem abs_nearestPair_sub_le (num : Nat) (hden : 0 < den) :
    |((nearestPair num den).1 : ℚ) - num / den / 2 ^ (nearestPair num den).2| ≤ 1 / 2 := by
  rw [nearestPair, ← cast_scaled_div]
  exact abs_roundHalfEven_sub_le _ (Nat.mul_pos hden (Nat.two_pow_pos _))

theorem fits_nearestPair (num : Nat) (hden : 0 < den) : Fits (nearestPair num den) := by
  obtain ⟨hleast, hless, -⟩ := quotientExponent_spec num hden
  refine ⟨?_, hleast⟩
  have hunit : (0 : ℚ) < 2 ^ (nearestPair num den).2 := by positivity
  have hbelow : (num : ℚ) / den / 2 ^ (nearestPair num den).2 < 2 ^ 53 := by
    rw [div_lt_iff₀ hunit, ← zpow_natCast, ← zpow_add₀ two_ne_zero, add_comm]
    exact hless
  have hhalf := (abs_le.mp (abs_nearestPair_sub_le num hden)).2
  have hlt : ((nearestPair num den).1 : ℚ) < (2 ^ 53 + 1 : Nat) := by
    push_cast
    linarith
  exact Nat.lt_succ_iff.mp (by exact_mod_cast hlt)

/-- **Rounding gives the nearest number of the format.** A number on a coarser unit is a multiple of
the unit that was chosen; one on a finer unit is below the binade of the quotient, whose lower end
is nearer. -/
theorem isNearest_nearestPair (num : Nat) (hden : 0 < den) :
    IsNearest (nearestPair num den) (num / den) := by
  refine ⟨fits_nearestPair num hden, ?_⟩
  rintro ⟨m, e⟩ hfits
  set unit := (nearestPair num den).2 with hunit
  have hpos : (0 : ℚ) < 2 ^ unit := by positivity
  have hmultiple (k : Int) :
      |valueOf (nearestPair num den) - num / den| ≤ |k * 2 ^ unit - (num : ℚ) / den| := by
    have hnearest := abs_sub_le_of_half (n := (nearestPair num den).1)
      (abs_nearestPair_sub_le num hden) k
    calc |valueOf (nearestPair num den) - num / den|
        = |((nearestPair num den).1 : ℚ) - num / den / 2 ^ unit| * 2 ^ unit :=
          abs_valueOf_sub _ unit _
      _ ≤ |(k : ℚ) - num / den / 2 ^ unit| * 2 ^ unit :=
          mul_le_mul_of_nonneg_right (by exact_mod_cast hnearest) hpos.le
      _ = |k * 2 ^ unit - (num : ℚ) / den| := by
          rw [← abs_of_pos hpos, ← abs_mul, abs_of_pos hpos, sub_mul, div_mul_cancel₀ _ hpos.ne']
  rcases le_or_gt unit e with hcoarse | hfine
  · -- on a coarser unit
    obtain ⟨j, hj⟩ := Int.le.dest hcoarse
    have hvalue : valueOf (m, e) = ((m * 2 ^ j : Nat) : Int) * (2 : ℚ) ^ unit := by
      rw [valueOf, ← hj, zpow_add₀ two_ne_zero, zpow_natCast]
      push_cast
      ring
    rw [hvalue]
    exact hmultiple _
  · -- on a finer unit
    obtain ⟨-, -, hleast | hlow⟩ := quotientExponent_spec num hden
    · have : unit = -1074 := hleast
      have := hfits.exponent
      dsimp only at this
      omega
    have hend : valueOf (m, e) ≤ 2 ^ 52 * 2 ^ unit := by
      have hsignificand : (m : ℚ) ≤ 2 ^ 53 := by exact_mod_cast hfits.significand
      calc valueOf (m, e) = m * 2 ^ e := rfl
        _ ≤ 2 ^ 53 * 2 ^ (unit - 1) := by
            gcongr
            · exact one_le_two
            · omega
        _ = 2 ^ 52 * 2 ^ unit := by
            rw [zpow_sub_one₀ two_ne_zero]
            ring
    have hbinade : (2 : ℚ) ^ 52 * 2 ^ unit ≤ num / den := by
      have hsame : (2 : ℚ) ^ 52 * 2 ^ unit = 2 ^ (unit + 52) := by
        rw [zpow_add₀ two_ne_zero, mul_comm]
        rfl
      rw [hsame]
      exact hlow
    have hstart := hmultiple (2 ^ 52)
    rw [Int.cast_pow, Int.cast_ofNat] at hstart
    refine hstart.trans ?_
    rw [abs_of_nonpos (sub_nonpos.mpr hbinade), abs_of_nonpos (sub_nonpos.mpr (hend.trans hbinade))]
    linarith

end PortalSearch.Binary64
