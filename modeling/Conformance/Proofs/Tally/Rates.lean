import Conformance.Proofs.Number.Nearest
import Conformance.Tally
/-!
# What a percentage is worth

A percentage is rounded after its division and again after its multiplication. Both roundings are
monotone, so a percentage reaches a threshold wherever the exact ratio does, as soon as it does so at
the threshold itself. It misses the threshold wherever the exact ratio does, as soon as it does so for
the nearest miss that a total of up to `2 ^ 51` allows. Two doubles then decide for all counts at
once.
-/

namespace Conformance

open Binary64

/-- The greatest total for which counts in doubles are told apart from their neighbours at every
threshold. -/
def exactTotal : ℕ := 2 ^ 51

/-- The percentage of an exact ratio, rounded after each of the two operations. -/
def roundedPercent (x : ℚ) : ℚ := nearest (nearest x * 100)

theorem roundedPercent_mono {x y : ℚ} (hx : 0 ≤ x) (h : x ≤ y) :
    roundedPercent x ≤ roundedPercent y := by
  refine nearest_mono (mul_nonneg (nearest_nonneg x) (by norm_num)) ?_
  gcongr
  exact nearest_mono hx h

theorem nearest_hundred : nearest 100 = 100 := by
  exact_mod_cast nearest_natCast (n := 100) (by norm_num)

theorem roundedPercent_div (num : ℕ) {den : ℕ} (h : den ≠ 0) :
    roundedPercent (num / den) = ((ofRatio num den).mul (ofNat 100)).toRat := by
  rw [roundedPercent, toRat_mul, toRat_ofRatio num h, toRat_ofNat, Nat.cast_ofNat, nearest_hundred]

section

variable {part total : UInt64}

/-- Counts of up to 53 bits enter a percentage as they are. -/
theorem toRat_percentage (hpos : 1 ≤ total.toNat) (hmax : total.toNat ≤ exactTotal)
    (hpart : part.toNat ≤ total.toNat) :
    (percentage part total).toRat = roundedPercent (part.toNat / total.toNat) := by
  have hne : total ≠ 0 := by
    rintro rfl
    exact absurd hpos (by decide)
  have hexact {n : ℕ} (h : n ≤ total.toNat) : (ofNat n).toRat = n := by
    rw [toRat_ofNat]
    exact nearest_natCast ((h.trans hmax).trans_lt (by decide))
  have htotal : (ofNat total.toNat).toRat ≠ 0 := by
    rw [hexact le_rfl]
    exact_mod_cast Nat.one_le_iff_ne_zero.mp hpos
  rw [percentage, if_neg hne, toRat_mul, toRat_div _ htotal, hexact hpart, hexact le_rfl,
    toRat_ofNat, Nat.cast_ofNat, nearest_hundred, roundedPercent]

/-! ## Thresholds -/

/-- A threshold of `n` percent, which is the ratio `a / b`, is reached by the rounded percentage
exactly if it is reached by the counts. It is enough that rounding respects the ratio itself, and the
one ratio below that no ratio with so small a denominator comes nearer than. -/
theorem atLeast_percentage_iff {n a b : ℕ} (hpos : 1 ≤ total.toNat)
    (hmax : total.toNat ≤ exactTotal) (hpart : part.toNat ≤ total.toNat) (hb : b ≠ 0)
    (hreached : ((ofRatio a b).mul (ofNat 100)).atLeast n = true)
    (hmissed : ((ofRatio (a * exactTotal - 1) (b * exactTotal)).mul (ofNat 100)).atLeast n = false) :
    (percentage part total).atLeast n = true ↔ a * total.toNat ≤ b * part.toNat := by
  have htotal : (0 : ℚ) < total.toNat := by exact_mod_cast hpos
  rw [atLeast_iff, toRat_percentage hpos hmax hpart]
  constructor
  · intro h
    by_contra hlt
    rw [not_le] at hlt
    have hne : b * exactTotal ≠ 0 := Nat.mul_ne_zero hb (by decide)
    have hbelow : (part.toNat / total.toNat : ℚ)
        ≤ (a * exactTotal - 1 : ℕ) / (b * exactTotal : ℕ) := by
      have hden : (0 : ℚ) < (b * exactTotal : ℕ) := by exact_mod_cast Nat.pos_of_ne_zero hne
      rw [div_le_div_iff₀ htotal hden]
      norm_cast
      calc part.toNat * (b * exactTotal) = b * part.toNat * exactTotal := by ring
        _ ≤ (a * total.toNat - 1) * exactTotal := Nat.mul_le_mul_right _ (by omega)
        _ ≤ (a * exactTotal - 1) * total.toNat := by
          rw [Nat.sub_mul, Nat.sub_mul, one_mul, one_mul, Nat.mul_right_comm]
          exact Nat.sub_le_sub_left hmax _
    have hrounded := roundedPercent_mono (by positivity) hbelow
    rw [roundedPercent_div _ hne] at hrounded
    exact Bool.false_ne_true (hmissed ▸ (atLeast_iff _ n).mpr (h.trans hrounded))
  · intro h
    have hratio : (a / b : ℚ) ≤ part.toNat / total.toNat := by
      have hden : (0 : ℚ) < b := by exact_mod_cast Nat.pos_of_ne_zero hb
      rw [div_le_div_iff₀ hden htotal]
      norm_cast
      rwa [mul_comm part.toNat b]
    have hrounded := roundedPercent_mono (by positivity) hratio
    rw [roundedPercent_div a hb] at hrounded
    exact ((atLeast_iff _ n).mp hreached).trans hrounded

end

/-! ## Accuracy -/

theorem abs_roundedPercent_sub_le {x : ℚ} (h₀ : 0 ≤ x) (h₁ : x ≤ 1) :
    |roundedPercent x - 100 * x| ≤ 1 / 10 ^ 6 := by
  have hquotient : |nearest x - x| ≤ 2 ^ (-53 : ℤ) :=
    abs_nearest_sub_le_of_lt (k := 1) h₀ (h₁.trans_lt (by norm_num)) (by decide)
  have hle : nearest x ≤ 1 := by
    calc nearest x ≤ nearest 1 := nearest_mono h₀ h₁
      _ = 1 := by exact_mod_cast nearest_natCast (n := 1) (by decide)
  have hproduct : |nearest (nearest x * 100) - nearest x * 100| ≤ 2 ^ (-47 : ℤ) := by
    refine abs_nearest_sub_le_of_lt (k := 7) ?_ ?_ (by decide)
    · exact mul_nonneg (nearest_nonneg x) (by norm_num)
    · exact (mul_le_mul_of_nonneg_right hle (by norm_num)).trans_lt (by norm_num)
  rw [abs_le] at hquotient hproduct ⊢
  rw [roundedPercent]
  norm_num at *
  constructor <;> linarith

section

variable {part part' total : UInt64}

/-- The hundredths of a percentage are off by little more than what the last rounding takes. -/
theorem abs_hundredths_sub_lt (hpos : 1 ≤ total.toNat) (hmax : total.toNat ≤ exactTotal)
    (hpart : part.toNat ≤ total.toNat) :
    |((percentage part total).hundredths : ℚ) - 10000 * part.toNat / total.toNat| < 501 / 1000 := by
  have htotal : (0 : ℚ) < total.toNat := by exact_mod_cast hpos
  have hle : (part.toNat / total.toNat : ℚ) ≤ 1 := by
    rw [div_le_one htotal]
    exact_mod_cast hpart
  have hpercent := abs_roundedPercent_sub_le (by positivity) hle
  have hlast := abs_roundEven_sub_le (mul_nonneg (percentage part total).toRat_nonneg
    (by norm_num : (0 : ℚ) ≤ 100))
  rw [← hundredths_eq, toRat_percentage hpos hmax hpart] at hlast
  rw [abs_le] at hpercent hlast
  rw [abs_lt, mul_div_assoc]
  constructor <;> linarith

theorem hundredths_percentage_mono (hpos : 1 ≤ total.toNat) (hmax : total.toNat ≤ exactTotal)
    (hle : part.toNat ≤ part'.toNat) (hpart' : part'.toNat ≤ total.toNat) :
    (percentage part total).hundredths ≤ (percentage part' total).hundredths := by
  rw [hundredths_eq, hundredths_eq, toRat_percentage hpos hmax (hle.trans hpart'),
    toRat_percentage hpos hmax hpart']
  refine roundEven_mono (mul_le_mul_of_nonneg_right (roundedPercent_mono ?_ ?_) (by norm_num))
  · positivity
  · gcongr

theorem hundredths_percentage_zero (part : UInt64) : (percentage part 0).hundredths = 0 := by
  have hzero : zero.toRat = 0 := by simp [toRat, zero]
  rw [percentage, if_pos rfl, hundredths_eq, hzero, zero_mul]
  exact_mod_cast roundEven_natCast 0

end

end Conformance
