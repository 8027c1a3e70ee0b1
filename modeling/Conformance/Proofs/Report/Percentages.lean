import Conformance.Proofs.Report.Figures
import Conformance.Proofs.Tally.Rates
/-!
# The percentages that are printed

Behind each count a report prints a percentage with two decimals. A reader that knows the form of a
view reads these back as whole numbers of hundredths, and what it reads is measured here against the
exact ratio of the counts. Of the error, half a hundredth belongs to the two decimals; what the two
roundings before it add is far less than a thousandth of a hundredth.
-/

namespace Conformance.Report

/-! ## Two decimals -/

/-- The decimals of a number of hundredths below one. -/
def decimals (n : ℕ) : String := (if n < 10 then "0" else "") ++ toString n

/-- The number of hundredths at the beginning of a text, and the text behind it. -/
def hundredths? (cs : List Char) : Option (ℕ × List Char) := do
  let (whole, cs) ← number? cs
  let cs ← expect "." cs
  let ds := cs.take 2
  if ds.length = 2 ∧ ds.all Char.isDigit then
    some (100 * whole + Nat.ofDigitChars 10 ds 0, cs.drop 2)
  else none

theorem forall_decimals : ∀ n < 100, (decimals n).toList.length = 2 ∧
    (decimals n).toList.all Char.isDigit = true ∧
      Nat.ofDigitChars 10 (decimals n).toList 0 = n := by
  decide +kernel

/-- Hundredths are read back, whatever follows them. -/
theorem hundredths?_append (n : ℕ) (cs : List Char) :
    hundredths? ((hundredthsText n).toList ++ cs) = some (n, cs) := by
  obtain ⟨hlength, hdigits, hvalue⟩ := forall_decimals (n % 100) (Nat.mod_lt n (by decide))
  have hshape : (hundredthsText n).toList ++ cs
      = (toString (n / 100)).toList ++ (".".toList ++ ((decimals (n % 100)).toList ++ cs)) := by
    simp [hundredthsText, decimals]
  have hpoint : EndsNumber (".".toList ++ ((decimals (n % 100)).toList ++ cs)) :=
    EndsNumber.append_of_ne_nil (by decide) (by decide) _
  have htake : ((decimals (n % 100)).toList ++ cs).take 2 = (decimals (n % 100)).toList :=
    List.take_left' hlength
  have hdrop : ((decimals (n % 100)).toList ++ cs).drop 2 = cs := List.drop_left' hlength
  simp only [hundredths?, hshape, number?_append _ hpoint, expect_append, htake, hdrop, hlength,
    hdigits, hvalue, Nat.div_add_mod, and_self, if_true, Option.bind_eq_bind, Option.bind_some]

/-! ## Lines -/

/-- The percentage on a line with a given label, in hundredths, and the text behind the line. -/
def share? (label : String) (cs : List Char) : Option (ℕ × List Char) := do
  let cs ← expect label cs
  let (_, cs) ← number? cs
  let cs ← expect " (" cs
  let (n, cs) ← hundredths? cs
  let cs ← expect "%)" cs
  return (n, nextLine cs)

theorem share?_countLine (label : String) (count : UInt64) (rate : Binary64) {closing : String}
    (h : '\n' ∉ closing.toList) (cs : List Char) :
    share? label ((countLine label (countText count rate) closing).toList ++ cs)
      = some (rate.hundredths, cs) := by
  have hshape : (countLine label (countText count rate) closing).toList ++ cs
      = label.toList ++ ((toString count.toNat).toList ++ (" (".toList ++
        ((hundredthsText rate.hundredths).toList ++ ("%)".toList ++
          (closing.toList ++ '\n' :: cs))))) := by
    simp [countLine, countText]
  have hcount (cs : List Char) : EndsNumber (" (".toList ++ cs) :=
    EndsNumber.append_of_ne_nil (by decide) (by decide) cs
  simp only [share?, hshape, expect_append, number?_append _ (hcount _), hundredths?_append,
    nextLine_append h, Option.bind_eq_bind, Option.bind_some, Option.pure_def]

/-- The percentages of the passed and of the failed tests on the lines of a view, in hundredths. -/
def CountForm.shares? (form : CountForm) (cs : List Char) : Option (ℕ × ℕ) := do
  let (_, cs) ← count? form.total cs
  let (passed, cs) ← share? form.passed cs
  let (failed, _) ← share? form.failed cs
  return (passed, failed)

theorem CountForm.shares?_lines (form : CountForm) (t : Tally) (cs : List Char) :
    form.shares? ((form.lines (toString t.total.toNat) (passedText t) (failedText t)).toList ++ cs)
      = some (t.passRate.hundredths, t.failRate.hundredths) := by
  simp only [shares?, lines, passedText, failedText, String.toList_append, List.append_assoc,
    count?_total, share?_countLine _ _ _ form.newline_notMem_closing, Option.bind_eq_bind,
    Option.bind_some, Option.pure_def]

/-! ## Views -/

/-- The percentages in the plain report. -/
def Console.shares? (ctx : ReportContext) (text : String) : Option (ℕ × ℕ) :=
  (Console.fromCounts? ctx text).bind Console.form.shares?

/-- The percentages in the review summary. -/
def Summary.shares? (ctx : ReportContext) (text : String) : Option (ℕ × ℕ) :=
  (Summary.fromCounts? ctx text).bind Summary.form.shares?

theorem Console.shares?_render (t : Tally) (ctx : ReportContext) :
    Console.shares? ctx (Console.render false t ctx)
      = some (t.passRate.hundredths, t.failRate.hundredths) := by
  rw [Console.shares?, Console.fromCounts?_render, Option.bind_some, CountForm.shares?_lines]

theorem Summary.shares?_render (t : Tally) (ctx : ReportContext) :
    Summary.shares? ctx (Summary.render t ctx)
      = some (t.passRate.hundredths, t.failRate.hundredths) := by
  rw [Summary.shares?, Summary.fromCounts?_render, Option.bind_some, CountForm.shares?_lines]

/-! ## Accuracy -/

section

variable {t : Tally}

theorem hundredths_le {part total : UInt64} (hpos : 1 ≤ total.toNat) (hmax : total.toNat ≤ exactTotal)
    (hpart : part.toNat ≤ total.toNat) : (percentage part total).hundredths ≤ 10000 := by
  have htotal : (0 : ℚ) < total.toNat := by exact_mod_cast hpos
  have hratio : (10000 * part.toNat / total.toNat : ℚ) ≤ 10000 := by
    rw [div_le_iff₀ htotal]
    exact_mod_cast Nat.mul_le_mul_left 10000 hpart
  have hclose := (abs_lt.mp (abs_hundredths_sub_lt hpos hmax hpart)).2
  have hlt : ((percentage part total).hundredths : ℚ) < 10000 + 1 := by linarith
  norm_cast at hlt
  omega

/-- The two percentages make up the whole, but for one hundredth. -/
theorem hundredths_add_hundredths (hpos : 1 ≤ t.total.toNat) (hmax : t.total.toNat ≤ exactTotal)
    (hsum : t.passed.toNat + t.failed.toNat = t.total.toNat) :
    9999 ≤ t.passRate.hundredths + t.failRate.hundredths ∧
      t.passRate.hundredths + t.failRate.hundredths ≤ 10001 := by
  have htotal : (0 : ℚ) < t.total.toNat := by exact_mod_cast hpos
  have hwhole : (10000 * t.passed.toNat / t.total.toNat + 10000 * t.failed.toNat / t.total.toNat : ℚ)
      = 10000 := by
    rw [← add_div, ← mul_add, div_eq_iff htotal.ne']
    exact_mod_cast congrArg (10000 * ·) hsum
  have hpart : t.passed.toNat ≤ t.total.toNat := by omega
  have hpart' : t.failed.toNat ≤ t.total.toNat := by omega
  have hpassed := abs_lt.mp (abs_hundredths_sub_lt hpos hmax hpart)
  have hfailed := abs_lt.mp (abs_hundredths_sub_lt hpos hmax hpart')
  have hlower : (9998 : ℚ) < t.passRate.hundredths + t.failRate.hundredths := by
    rw [Tally.passRate, Tally.failRate]
    linarith
  have hupper : (t.passRate.hundredths + t.failRate.hundredths : ℚ) < 10002 := by
    rw [Tally.passRate, Tally.failRate]
    linarith
  norm_cast at hlower hupper
  omega

/-- A run without failures has all of its hundredths. -/
theorem hundredths_of_failed_eq_zero (hpos : 1 ≤ t.total.toNat) (hmax : t.total.toNat ≤ exactTotal)
    (hsum : t.passed.toNat + t.failed.toNat = t.total.toNat) (h : t.failed = 0) :
    t.passRate.hundredths = 10000 := by
  have htotal : (0 : ℚ) < t.total.toNat := by exact_mod_cast hpos
  have hall : t.passed = t.total := by
    rw [← UInt64.toNat_inj, ← hsum, h, UInt64.toNat_zero, Nat.add_zero]
  have hclose := abs_lt.mp (abs_hundredths_sub_lt hpos hmax (le_refl t.total.toNat))
  rw [mul_div_cancel_right₀ _ htotal.ne'] at hclose
  have hlower : (9999 : ℚ) < (percentage t.total t.total).hundredths := by linarith
  norm_cast at hlower
  have hupper := hundredths_le hpos hmax (le_refl t.total.toNat)
  rw [Tally.passRate, hall]
  omega

theorem hundredths_of_passed_eq_zero (hpos : 1 ≤ t.total.toNat) (hmax : t.total.toNat ≤ exactTotal)
    (h : t.passed = 0) : t.passRate.hundredths = 0 := by
  have hnone : (0 : UInt64).toNat ≤ t.total.toNat := Nat.zero_le _
  have hclose := (abs_lt.mp (abs_hundredths_sub_lt hpos hmax hnone)).2
  rw [UInt64.toNat_zero, Nat.cast_zero, mul_zero, zero_div] at hclose
  have hupper : ((percentage 0 t.total).hundredths : ℚ) < 1 := by linarith
  norm_cast at hupper
  rw [Tally.passRate, h]
  omega

theorem countText_of_empty (count : UInt64) :
    countText count (percentage count 0) = toString count.toNat ++ " (0.00%)" := by
  have htext : hundredthsText 0 = "0.00" := by decide
  rw [countText, hundredths_percentage_zero, htext]
  simp [String.append_assoc]

end

/-- **Printed percentages are accurate.** Of a run of up to `2 ^ 51` tests, all of which passed or
failed, both reports print the same two percentages. In hundredths these are at most ten thousand,
each is off by hardly more than the half that its two decimals leave open, and together they miss ten
thousand by one at most. With the same total, more passed tests never print less; a run without
failures prints a hundred percent, and one without passes none. An empty run prints zero for both. -/
theorem printed_percentages (ctx : ReportContext) :
    (∀ t : Tally, 1 ≤ t.total.toNat → t.total.toNat ≤ 2 ^ 51 →
      t.passed.toNat + t.failed.toNat = t.total.toNat →
      ∃ P F : ℕ, Console.shares? ctx (Console.render false t ctx) = some (P, F) ∧
        Summary.shares? ctx (Summary.render t ctx) = some (P, F) ∧
        P ≤ 10000 ∧ F ≤ 10000 ∧
        |(P : ℚ) - 10000 * t.passed.toNat / t.total.toNat| < 501 / 1000 ∧
        |(F : ℚ) - 10000 * t.failed.toNat / t.total.toNat| < 501 / 1000 ∧
        (P + F = 9999 ∨ P + F = 10000 ∨ P + F = 10001) ∧
        (t.failed = 0 → P = 10000) ∧ (t.passed = 0 → P = 0) ∧
        ∀ u : Tally, u.total = t.total → u.passed.toNat + u.failed.toNat = u.total.toNat →
          t.passed ≤ u.passed → ∀ P' F', Summary.shares? ctx (Summary.render u ctx) = some (P', F') →
            P ≤ P') ∧
    ∀ t : Tally, t.total = 0 →
      Console.shares? ctx (Console.render false t ctx) = some (0, 0) ∧
      Summary.shares? ctx (Summary.render t ctx) = some (0, 0) ∧
      passedText t = toString t.passed.toNat ++ " (0.00%)" ∧
      failedText t = toString t.failed.toNat ++ " (0.00%)" := by
  refine ⟨fun t hpos hmax hsum ↦ ?_, fun t hempty ↦ ?_⟩
  · have hpassed : t.passed.toNat ≤ t.total.toNat := Nat.le.intro hsum
    have hfailed : t.failed.toNat ≤ t.total.toNat := by omega
    have hwhole := hundredths_add_hundredths hpos hmax hsum
    refine ⟨t.passRate.hundredths, t.failRate.hundredths, Console.shares?_render t ctx,
      Summary.shares?_render t ctx, hundredths_le hpos hmax hpassed,
      hundredths_le hpos hmax hfailed, abs_hundredths_sub_lt hpos hmax hpassed,
      abs_hundredths_sub_lt hpos hmax hfailed, by omega,
      hundredths_of_failed_eq_zero hpos hmax hsum, hundredths_of_passed_eq_zero hpos hmax, ?_⟩
    intro u htotal husum hle P' F' hshares
    rw [Summary.shares?_render, Option.some.injEq, Prod.mk.injEq] at hshares
    rw [← hshares.1, Tally.passRate, Tally.passRate, htotal]
    rw [htotal] at husum
    exact hundredths_percentage_mono hpos hmax (UInt64.le_iff_toNat_le.mp hle) (by omega)
  · have hpassed : t.passRate.hundredths = 0 := by
      rw [Tally.passRate, hempty, hundredths_percentage_zero]
    have hfailed : t.failRate.hundredths = 0 := by
      rw [Tally.failRate, hempty, hundredths_percentage_zero]
    refine ⟨?_, ?_, ?_, ?_⟩
    · rw [Console.shares?_render, hpassed, hfailed]
    · rw [Summary.shares?_render, hpassed, hfailed]
    · rw [passedText, Tally.passRate, hempty, countText_of_empty]
    · rw [failedText, Tally.failRate, hempty, countText_of_empty]

/-- Two percentages that both lie halfway and are both rounded down. -/
theorem printed_percentages_rounded_down :
    let t : Tally := ⟨23, 137, 0, 160, #[⟨"a.js", "broken"⟩], 1⟩
    let ctx : ReportContext := ⟨"Suite", "shell"⟩
    1 ≤ t.total.toNat ∧ t.total.toNat ≤ 2 ^ 51 ∧ t.passed.toNat + t.failed.toNat = t.total.toNat ∧
      Summary.shares? ctx (Summary.render t ctx) = some (1437, 8562) ∧
      |(1437 : ℚ) - 10000 * 23 / 160| < 501 / 1000 ∧
      1437 + 8562 = 9999 ∧
      ∀ u : Tally, u.total = 160 → u.passed.toNat + u.failed.toNat = u.total.toNat →
        23 ≤ u.passed → ∀ P' F', Summary.shares? ctx (Summary.render u ctx) = some (P', F') →
          1437 ≤ P' := by
  intro t ctx
  have hpos : 1 ≤ t.total.toNat := by decide
  have hmax : t.total.toNat ≤ 2 ^ 51 := by decide
  have hsum : t.passed.toNat + t.failed.toNat = t.total.toNat := by decide
  obtain ⟨P, F, -, hshares, -, -, hclose, -, -, -, -, hmono⟩ :=
    (printed_percentages ctx).1 t hpos hmax hsum
  have hread : Summary.shares? ctx (Summary.render t ctx) = some (1437, 8562) := by
    have hpassed : t.passRate.hundredths = 1437 := by decide +kernel
    have hfailed : t.failRate.hundredths = 8562 := by decide +kernel
    rw [Summary.shares?_render, hpassed, hfailed]
  rw [hread, Option.some.injEq, Prod.mk.injEq] at hshares
  obtain ⟨rfl, rfl⟩ := hshares
  exact ⟨hpos, hmax, hsum, hread, by exact_mod_cast hclose, rfl, hmono⟩

end Conformance.Report
