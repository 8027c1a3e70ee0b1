import Mathlib.Algebra.Order.Field.Power
import Mathlib.Algebra.Order.Floor.Semifield
import Mathlib.Data.Int.Log
import Mathlib.Data.Rat.Floor
import Mathlib.Tactic.FieldSimp
import Mathlib.Tactic.Linarith
import Mathlib.Tactic.NormNum
import Conformance.Number.Binary64
/-!
# Rounding as a function of the exact value

A double stands for a rational number. Every operation on doubles forms a quotient of natural numbers
and rounds it, and it does not matter which quotient that is: the result is `nearest` of the exact
rational, the multiple of a unit that is next to it, where the unit is the place of the last of 53
bits. From there on it is all about rationals. Rounding is monotone, leaves what a double can hold
as it is, and is off by half a unit at most.
-/

namespace Conformance

/-! ## The nearest natural number -/

/-- The natural number next to a non-negative rational, a tie going to the even neighbour. -/
def roundEven (x : ℚ) : ℕ :=
  if x - ⌊x⌋₊ < 1 / 2 then ⌊x⌋₊
  else if 1 / 2 < x - ⌊x⌋₊ then ⌊x⌋₊ + 1
  else ⌊x⌋₊ + ⌊x⌋₊ % 2

/-- Rounding a quotient depends on its value alone. -/
theorem roundDiv_eq_roundEven (num : ℕ) {den : ℕ} (h : 0 < den) :
    roundDiv num den = roundEven (num / den) := by
  have hden : (0 : ℚ) < den := by exact_mod_cast h
  have hpart : (num / den : ℚ) - (num / den : ℕ) = (num % den : ℕ) / den := by
    have hsum : ((den * (num / den) + num % den : ℕ) : ℚ) = num := by rw [Nat.div_add_mod]
    push_cast at hsum
    field_simp
    linarith
  have hbelow : ((num % den : ℕ) / den : ℚ) < 1 / 2 ↔ 2 * (num % den) < den := by
    rw [div_lt_div_iff₀ hden two_pos]
    norm_cast
    omega
  have habove : (1 / 2 : ℚ) < (num % den : ℕ) / den ↔ den < 2 * (num % den) := by
    rw [div_lt_div_iff₀ two_pos hden]
    norm_cast
    omega
  simp only [roundEven, roundDiv, Nat.floor_div_eq_div, hpart, hbelow, habove]

theorem floor_le_roundEven (x : ℚ) : ⌊x⌋₊ ≤ roundEven x := by
  rw [roundEven]
  split_ifs <;> omega

theorem roundEven_le_floor_add_one (x : ℚ) : roundEven x ≤ ⌊x⌋₊ + 1 := by
  rw [roundEven]
  split_ifs <;> omega

@[simp] theorem roundEven_natCast (n : ℕ) : roundEven n = n := by
  simp [roundEven]

theorem roundEven_mono {x y : ℚ} (h : x ≤ y) : roundEven x ≤ roundEven y := by
  rcases (Nat.floor_mono h).eq_or_lt with heq | hlt
  · -- Between the same two integers it is the distance to the lower one that decides.
    have hpart : x - ⌊x⌋₊ ≤ y - ⌊y⌋₊ := by rw [heq]; linarith
    rw [roundEven, roundEven, heq] at *
    split_ifs <;> first | omega | linarith
  · calc roundEven x ≤ ⌊x⌋₊ + 1 := roundEven_le_floor_add_one x
      _ ≤ ⌊y⌋₊ := hlt
      _ ≤ roundEven y := floor_le_roundEven y

theorem abs_roundEven_sub_le {x : ℚ} (h : 0 ≤ x) : |(roundEven x : ℚ) - x| ≤ 1 / 2 := by
  have hle := Nat.floor_le h
  have hlt := Nat.lt_floor_add_one x
  have hmod : ((⌊x⌋₊ % 2 : ℕ) : ℚ) ≤ 1 := by exact_mod_cast (by omega : ⌊x⌋₊ % 2 ≤ 1)
  have hmod' : (0 : ℚ) ≤ ((⌊x⌋₊ % 2 : ℕ) : ℚ) := Nat.cast_nonneg _
  rw [abs_le, roundEven]
  split_ifs <;> push_cast at * <;> constructor <;> linarith

namespace Binary64

/-! ## Values -/

/-- The number that a double stands for. -/
def toRat (x : Binary64) : ℚ := x.significand * 2 ^ x.exponent

theorem two_zpow_eq (e : ℤ) : (2 : ℚ) ^ e = 2 ^ e.toNat / 2 ^ (-e).toNat := by
  rw [← zpow_natCast, ← zpow_natCast, ← zpow_sub₀ two_ne_zero]
  congr 1
  omega

theorem toRat_eq_div (x : Binary64) : x.toRat = x.num / x.den := by
  rw [toRat, two_zpow_eq, num, den, Nat.pow_eq, Nat.pow_eq]
  push_cast
  ring

theorem toRat_nonneg (x : Binary64) : 0 ≤ x.toRat :=
  mul_nonneg (Nat.cast_nonneg _) (zpow_nonneg zero_le_two _)

theorem atLeast_iff (x : Binary64) (n : ℕ) : x.atLeast n = true ↔ (n : ℚ) ≤ x.toRat := by
  have hden : (0 : ℚ) < x.den := by exact_mod_cast x.den_pos
  rw [atLeast, decide_eq_true_iff, toRat_eq_div, le_div_iff₀ hden]
  norm_cast

theorem hundredths_eq (x : Binary64) : x.hundredths = roundEven (x.toRat * 100) := by
  rw [hundredths, roundDiv_eq_roundEven _ x.den_pos, toRat_eq_div, div_mul_eq_mul_div]
  push_cast
  rfl

/-! ## The nearest double -/

/-- The exponent of the last place that a double has for a number of this size. -/
def unitExponent (x : ℚ) : ℤ := max (Int.log 2 x - 52) minExponent

/-- The number that a double stands for when it is to be `x`. -/
def nearest (x : ℚ) : ℚ := roundEven (x / 2 ^ unitExponent x) * 2 ^ unitExponent x

theorem lt_two_zpow_log (x : ℚ) : x < 2 ^ (Int.log 2 x + 1) := by
  exact_mod_cast Int.lt_zpow_succ_log_self (b := 2) (by decide) x

theorem two_zpow_log_le {x : ℚ} (h : 0 < x) : 2 ^ Int.log 2 x ≤ x := by
  exact_mod_cast Int.zpow_log_le_self (b := 2) (by decide) h

theorem log_eq {x : ℚ} {e : ℤ} (hle : 2 ^ e ≤ x) (hlt : x < 2 ^ (e + 1)) : Int.log 2 x = e := by
  have hpos : 0 < x := lt_of_lt_of_le (zpow_pos two_pos e) hle
  have hlog : e ≤ Int.log 2 x :=
    (Int.zpow_le_iff_le_log (b := 2) (by decide) hpos).mp (by exact_mod_cast hle)
  have hlog' : Int.log 2 x < e + 1 :=
    (Int.lt_zpow_iff_log_lt (b := 2) (by decide) hpos).mp (by exact_mod_cast hlt)
  omega

/-- A quotient in units of `2 ^ e` is again a quotient of natural numbers. -/
theorem scaled_div (e : ℤ) (num den : ℕ) :
    ((num * Nat.pow 2 (-e).toNat : ℕ) / (den * Nat.pow 2 e.toNat : ℕ) : ℚ) = num / den / 2 ^ e := by
  rw [two_zpow_eq, Nat.pow_eq, Nat.pow_eq, div_div_eq_mul_div, div_mul_eq_mul_div, div_div]
  push_cast
  rfl

theorem scaled_lt_leadingBit_iff (e : ℤ) (num : ℕ) {den : ℕ} (hden : den ≠ 0) :
    num * Nat.pow 2 (-e).toNat < den * Nat.pow 2 e.toNat * leadingBit ↔
      (num / den : ℚ) < 2 ^ (e + 52) := by
  have hpos : (0 : ℚ) < (den * Nat.pow 2 e.toNat : ℕ) := by
    exact_mod_cast Nat.mul_pos (Nat.pos_of_ne_zero hden) (Nat.two_pow_pos _)
  have hbit : (leadingBit : ℚ) = 2 ^ (52 : ℤ) := by norm_num [leadingBit]
  rw [← Nat.cast_lt (α := ℚ), Nat.cast_mul (_ * _), ← div_lt_iff₀' hpos, scaled_div, hbit,
    div_lt_iff₀ (zpow_pos two_pos e), ← zpow_add₀ two_ne_zero, add_comm]

/-- The first place of a quotient is that of its numerator less that of its denominator, or the
place below. -/
theorem exponentOf_eq {num den : ℕ} (hnum : num ≠ 0) (hden : den ≠ 0) :
    exponentOf num den = Int.log 2 (num / den : ℚ) - 52 := by
  have hpos : (0 : ℚ) < den := by exact_mod_cast Nat.pos_of_ne_zero hden
  have hnum_le : (2 : ℚ) ^ num.log2 ≤ num := by exact_mod_cast Nat.log2_self_le hnum
  have hnum_lt : (num : ℚ) < 2 ^ (num.log2 + 1) := by exact_mod_cast Nat.lt_log2_self
  have hden_le : (2 : ℚ) ^ den.log2 ≤ den := by exact_mod_cast Nat.log2_self_le hden
  have hden_lt : (den : ℚ) < 2 ^ (den.log2 + 1) := by exact_mod_cast Nat.lt_log2_self
  have hle : (2 : ℚ) ^ ((num.log2 : ℤ) - den.log2 - 1) ≤ num / den := by
    rw [le_div_iff₀ hpos]
    calc (2 : ℚ) ^ ((num.log2 : ℤ) - den.log2 - 1) * den
        ≤ 2 ^ ((num.log2 : ℤ) - den.log2 - 1) * 2 ^ (den.log2 + 1) := by gcongr
      _ = 2 ^ num.log2 := by
        rw [← zpow_natCast, ← zpow_natCast, ← zpow_add₀ two_ne_zero]
        congr 1
        push_cast
        ring
      _ ≤ num := hnum_le
  have hlt : (num / den : ℚ) < 2 ^ ((num.log2 : ℤ) - den.log2 + 1) := by
    rw [div_lt_iff₀ hpos]
    calc (num : ℚ) < 2 ^ (num.log2 + 1) := hnum_lt
      _ = 2 ^ ((num.log2 : ℤ) - den.log2 + 1) * 2 ^ den.log2 := by
        rw [← zpow_natCast, ← zpow_natCast, ← zpow_add₀ two_ne_zero]
        congr 1
        push_cast
        ring
      _ ≤ 2 ^ ((num.log2 : ℤ) - den.log2 + 1) * den := by gcongr
  have htest := scaled_lt_leadingBit_iff ((num.log2 : ℤ) - den.log2 - 52) num hden
  rw [sub_add_cancel] at htest
  simp only [exponentOf, htest]
  split_ifs with h
  · rw [log_eq hle (by rwa [sub_add_cancel])]
    ring
  · rw [log_eq (not_lt.mp h) hlt]

/-- The result of an operation is the double next to its exact value. -/
theorem toRat_ofRatio (num : ℕ) {den : ℕ} (hden : den ≠ 0) :
    (ofRatio num den).toRat = nearest (num / den) := by
  rcases eq_or_ne num 0 with rfl | hnum
  · simp [ofRatio, nearest, toRat, zero, roundEven]
  have hunits (e : ℤ) : unitsAt e num den = roundEven (num / den / 2 ^ e) := by
    have hpos : 0 < den * Nat.pow 2 e.toNat :=
      Nat.mul_pos (Nat.pos_of_ne_zero hden) (Nat.two_pow_pos _)
    rw [unitsAt, roundDiv_eq_roundEven _ hpos, scaled_div]
  simp only [ofRatio, if_neg hnum, exponentOf_eq hnum hden, hunits, nearest, unitExponent]
  split_ifs with h
  · -- The significand has spilled over into the next place.
    rw [h, toRat, zpow_add_one₀ two_ne_zero]
    push_cast
    ring
  · rfl

theorem toRat_ofNat (n : ℕ) : (ofNat n).toRat = nearest n := by
  rw [ofNat, toRat_ofRatio n one_ne_zero, Nat.cast_one, div_one]

theorem toRat_mul (x y : Binary64) : (x.mul y).toRat = nearest (x.toRat * y.toRat) := by
  have hden : x.den * y.den ≠ 0 := (Nat.mul_pos x.den_pos y.den_pos).ne'
  rw [mul, toRat_ofRatio _ hden, toRat_eq_div, toRat_eq_div, div_mul_div_comm]
  push_cast
  rfl

theorem toRat_div (x : Binary64) {y : Binary64} (hy : y.toRat ≠ 0) :
    (x.div y).toRat = nearest (x.toRat / y.toRat) := by
  have hnum : y.num ≠ 0 := by
    intro h
    rw [toRat_eq_div, h, Nat.cast_zero, zero_div] at hy
    exact hy rfl
  rw [div, toRat_ofRatio _ (Nat.mul_ne_zero x.den_pos.ne' hnum), toRat_eq_div, toRat_eq_div,
    div_div_div_eq]
  push_cast
  rfl

/-! ## What rounding does to a number -/

theorem unitExponent_mono {x y : ℚ} (hx : 0 < x) (h : x ≤ y) : unitExponent x ≤ unitExponent y :=
  max_le_max_right _ (sub_le_sub_right (Int.log_mono_right hx h) _)

/-- A number is less than `2 ^ 53` of its units. -/
theorem lt_two_zpow_unitExponent (x : ℚ) : x < 2 ^ (53 + unitExponent x) := by
  refine (lt_two_zpow_log x).trans_le (zpow_le_zpow_right₀ one_le_two ?_)
  rw [unitExponent]
  omega

theorem nearest_nonneg (x : ℚ) : 0 ≤ nearest x :=
  mul_nonneg (Nat.cast_nonneg _) (zpow_nonneg zero_le_two _)

theorem nearest_le_two_zpow (x : ℚ) : nearest x ≤ 2 ^ (53 + unitExponent x) := by
  have hunits : roundEven (x / 2 ^ unitExponent x) ≤ 2 ^ 53 := by
    rw [← roundEven_natCast (2 ^ 53)]
    refine roundEven_mono ?_
    rw [div_le_iff₀ (zpow_pos two_pos _)]
    refine (lt_two_zpow_unitExponent x).le.trans_eq ?_
    rw [zpow_add₀ two_ne_zero]
    norm_num
  rw [nearest, zpow_add₀ two_ne_zero]
  gcongr
  exact_mod_cast hunits

/-- A number with a full significand is not rounded below its first bit. -/
theorem two_zpow_le_nearest {x : ℚ} (hx : 0 < x) (h : minExponent < unitExponent x) :
    2 ^ (52 + unitExponent x) ≤ nearest x := by
  have hlog : 52 + unitExponent x = Int.log 2 x := by
    rw [unitExponent] at *
    omega
  have hunits : 2 ^ 52 ≤ roundEven (x / 2 ^ unitExponent x) := by
    rw [← roundEven_natCast (2 ^ 52)]
    refine roundEven_mono ?_
    rw [le_div_iff₀ (zpow_pos two_pos _)]
    refine Eq.trans_le ?_ (two_zpow_log_le hx)
    rw [← hlog, zpow_add₀ two_ne_zero]
    norm_num
  rw [nearest, zpow_add₀ two_ne_zero]
  gcongr
  exact_mod_cast hunits

theorem unitExponent_le {x : ℚ} {k : ℤ} (hx : 0 < x) (h : x < 2 ^ k) (hk : minExponent ≤ k - 53) :
    unitExponent x ≤ k - 53 := by
  have hlog : Int.log 2 x < k :=
    (Int.lt_zpow_iff_log_lt (b := 2) (by decide) hx).mp (by exact_mod_cast h)
  rw [unitExponent]
  omega

/-- Natural numbers of up to 53 bits are not rounded. -/
theorem nearest_natCast {n : ℕ} (h : n < 2 ^ 53) : nearest n = n := by
  rcases Nat.eq_zero_or_pos n with rfl | hpos
  · simp [nearest, roundEven]
  have hexponent : unitExponent n ≤ 0 :=
    unitExponent_le (k := 53) (by exact_mod_cast hpos) (by exact_mod_cast h) (by decide)
  have hunits : (n : ℚ) / 2 ^ unitExponent n = (n * 2 ^ (-unitExponent n).toNat : ℕ) := by
    have hzero : (unitExponent (n : ℚ)).toNat = 0 := by omega
    rw [two_zpow_eq, hzero, pow_zero, one_div, div_inv_eq_mul]
    push_cast
    rfl
  rw [nearest, hunits, roundEven_natCast, ← hunits, div_mul_cancel₀ _ (zpow_ne_zero _ two_ne_zero)]

@[simp] theorem nearest_zero : nearest 0 = 0 := by
  exact_mod_cast nearest_natCast (n := 0) (by decide)

theorem nearest_mono {x y : ℚ} (hx : 0 ≤ x) (h : x ≤ y) : nearest x ≤ nearest y := by
  rcases hx.eq_or_lt with rfl | hpos
  · rw [nearest_zero]
    exact nearest_nonneg y
  rcases (unitExponent_mono hpos h).eq_or_lt with heq | hlt
  · rw [nearest, nearest, heq]
    gcongr
    exact roundEven_mono (by gcongr)
  · calc nearest x ≤ 2 ^ (53 + unitExponent x) := nearest_le_two_zpow x
      _ ≤ 2 ^ (52 + unitExponent y) := zpow_le_zpow_right₀ one_le_two (by omega)
      _ ≤ nearest y :=
        two_zpow_le_nearest (hpos.trans_le h) ((le_max_right _ _).trans_lt hlt)

/-- Rounding is off by half a unit at most. -/
theorem abs_nearest_sub_le {x : ℚ} (hx : 0 ≤ x) : |nearest x - x| ≤ 2 ^ (unitExponent x - 1) := by
  have hpos : (0 : ℚ) < 2 ^ unitExponent x := zpow_pos two_pos _
  have hunits := abs_roundEven_sub_le (div_nonneg hx hpos.le)
  calc |nearest x - x|
      = |(roundEven (x / 2 ^ unitExponent x) : ℚ) - x / 2 ^ unitExponent x| * 2 ^ unitExponent x := by
        rw [← abs_of_pos hpos, ← abs_mul, abs_of_pos hpos, sub_mul, div_mul_cancel₀ _ hpos.ne',
          nearest]
    _ ≤ 1 / 2 * 2 ^ unitExponent x := by gcongr
    _ = 2 ^ (unitExponent x - 1) := by
        rw [zpow_sub_one₀ two_ne_zero]
        ring

theorem abs_nearest_sub_le_of_lt {x : ℚ} {k : ℤ} (hx : 0 ≤ x) (h : x < 2 ^ k)
    (hk : minExponent ≤ k - 53) : |nearest x - x| ≤ 2 ^ (k - 54) := by
  rcases hx.eq_or_lt with rfl | hpos
  · rw [nearest_zero, sub_zero, abs_zero]
    exact zpow_nonneg zero_le_two _
  · have hunit := unitExponent_le hpos h hk
    exact (abs_nearest_sub_le hx).trans (zpow_le_zpow_right₀ one_le_two (by omega))

end Binary64

end Conformance
