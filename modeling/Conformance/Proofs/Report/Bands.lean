import Conformance.Proofs.Report.Figures
import Conformance.Proofs.Tally.Rates
/-!
# The band of a run

The marker in the heading of the review summary, and whether the summary lists failures, are decided
by comparing a rounded percentage with ninety, fifty and one hundred. For every run that can be
counted out they are what comparing the counts themselves would give.
-/

namespace Conformance.Report.Summary

/-! ## The marker -/

theorem Band.marker_injective : Function.Injective Band.marker := by
  intro b b' h
  cases b <;> cases b' <;> revert h <;> decide

theorem Band.exists_toList_marker (b : Band) : ∃ c, b.marker.toList = [c] := by
  cases b with
  | good => exact ⟨'🎉', rfl⟩
  | middling => exact ⟨'📊', rfl⟩
  | poor => exact ⟨'🔧', rfl⟩

/-- The heading of a run that is not empty tells its band. -/
theorem marker_prefix_render_iff {t : Tally} (h : t.total ≠ 0) (b : Band) (ctx : ReportContext) :
    ("## " ++ b.marker ++ " ").toList <+: (render t ctx).toList ↔ Band.ofRate t.passRate = b := by
  obtain ⟨c, hc⟩ := b.exists_toList_marker
  obtain ⟨d, hd⟩ := (Band.ofRate t.passRate).exists_toList_marker
  have htitle : (title ctx).toList = ' ' :: (ctx.suiteName ++ " Results\n\n").toList := by
    simp [title]
  have hspace : " ".toList = [' '] := rfl
  -- Both markers are single characters, so the first characters decide.
  have hmarkers : c = d ↔ Band.ofRate t.passRate = b := by
    rw [← Band.marker_injective.eq_iff, ← String.toList_inj, hc, hd, List.singleton_inj, eq_comm]
  rw [toList_render, marker, if_neg h, htitle, hd, String.toList_append, String.toList_append, hc,
    hspace, List.append_assoc, List.prefix_append_right_inj, ← hmarkers]
  simp

section

variable {t : Tally}

/-- The band is what the counts say. -/
theorem ofRate_passRate (hpos : 1 ≤ t.total.toNat) (hmax : t.total.toNat ≤ exactTotal)
    (hpassed : t.passed.toNat ≤ t.total.toNat) :
    Band.ofRate t.passRate = if 9 * t.total.toNat ≤ 10 * t.passed.toNat then .good
      else if t.total.toNat ≤ 2 * t.passed.toNat then .middling else .poor := by
  have hninety := atLeast_percentage_iff (n := 90) (a := 9) (b := 10) hpos hmax hpassed
    (by decide) (by decide +kernel) (by decide +kernel)
  have hfifty := atLeast_percentage_iff (n := 50) (a := 1) (b := 2) hpos hmax hpassed
    (by decide) (by decide +kernel) (by decide +kernel)
  rw [one_mul] at hfifty
  simp only [Band.ofRate, Tally.passRate, hninety, hfifty]

/-! ## The section of failures -/

/-- Failures are listed if some test did not pass and a failure is kept. -/
theorem listsFailures_eq_true_iff (hpos : 1 ≤ t.total.toNat) (hmax : t.total.toNat ≤ exactTotal)
    (hpassed : t.passed.toNat ≤ t.total.toNat) :
    listsFailures t = true ↔ t.passed.toNat < t.total.toNat ∧ 0 < t.failures.size := by
  have hall := atLeast_percentage_iff (n := 100) (a := 1) (b := 1) hpos hmax hpassed
    (by decide) (by decide +kernel) (by decide +kernel)
  rw [one_mul, one_mul] at hall
  rw [listsFailures, Bool.and_eq_true, Bool.not_eq_true', Bool.not_eq_true', Tally.passRate,
    ← Bool.not_eq_true, hall, not_le, ← Bool.not_eq_true, Array.isEmpty_iff_size_eq_zero,
    Nat.pos_iff_ne_zero]

end

/-- What the section of failures begins with. -/
def sectionHead : String := "\n### Sample Failures (first 5)\n\n"

/-- The text below the counts. -/
def belowCounts? (ctx : ReportContext) (text : String) : Option (List Char) := do
  let cs ← fromCounts? ctx text
  let (_, cs) ← form.figures? cs
  return cs

/-- A summary has a section of failures below its counts. -/
def HasSection (ctx : ReportContext) (text : String) : Prop :=
  ∃ cs, belowCounts? ctx text = some cs ∧ sectionHead.toList <+: cs

theorem belowCounts?_render (t : Tally) (ctx : ReportContext) :
    belowCounts? ctx (render t ctx) = some (ending t ctx).toList := by
  simp only [belowCounts?, fromCounts?_render, CountForm.figures?_lines, Option.bind_eq_bind,
    Option.bind_some, Option.pure_def]

theorem sectionHead_prefix_ending_iff (t : Tally) (ctx : ReportContext) :
    sectionHead.toList <+: (ending t ctx).toList ↔ listsFailures t = true := by
  rw [ending, failureSection]
  split
  · rw [List.map_append, String.join_append, join_sectionHead, ← sectionHead]
    simp only [String.toList_append, List.append_assoc]
    exact iff_of_true (List.prefix_append _ _) ‹_›
  · -- Without a section the closing note follows, which differs in its second character.
    have hnote : ("".toList ++ (summaryEnding ctx).toList)
        = '\n' :: '-' :: ("--\n" ++ footer ctx.targetName).toList := by
      simp [summaryEnding]
    have hhead : sectionHead.toList = '\n' :: '#' :: "## Sample Failures (first 5)\n\n".toList := by
      decide
    rw [List.map_nil, String.join_nil, String.toList_append, hnote, hhead, List.cons_prefix_cons,
      List.cons_prefix_cons]
    exact iff_of_false (fun h ↦ absurd h.2.1 (by decide)) ‹_›

theorem hasSection_render_iff (t : Tally) (ctx : ReportContext) :
    HasSection ctx (render t ctx) ↔ listsFailures t = true := by
  rw [← sectionHead_prefix_ending_iff t ctx, HasSection, belowCounts?_render]
  simp

/-! ## Runs -/

/-- A recorded run keeps a failure, if it may keep one at all, exactly if some test failed. -/
theorem failures_pos_iff {os : List Outcome} {limit : UInt64} {t : Tally} (hlimit : 1 ≤ limit.toNat)
    (h : Tally.ofOutcomes os limit = .ok t) :
    0 < t.failures.size ↔ ∃ o ∈ os, o.isFailure = true := by
  have hsize : t.failures.size = min limit.toNat (os.countP (·.isFailure)) := by
    rw [← Array.length_toList, failures_ofOutcomes h, List.length_map, List.length_take,
      List.countP_eq_length_filter]
  have hsome : 0 < os.countP (·.isFailure) ↔ ∃ o ∈ os, o.isFailure = true := List.countP_pos_iff
  rw [hsize, ← hsome]
  omega

/-- Where no test failed, all passed. -/
theorem passed_lt_total_of_failure {os : List Outcome} {limit : UInt64} {t : Tally}
    (h : Tally.ofOutcomes os limit = .ok t) (hfailure : ∃ o ∈ os, o.isFailure = true) :
    t.passed.toNat < t.total.toNat := by
  obtain ⟨o, ho, hfails⟩ := hfailure
  have haccounts : Tally.Accounts (.empty limit) os t := Tally.accounts_of_recordAll h
  have hnot : ¬ o.verdict = .pass := by
    rw [← Tally.isFailure_eq_false_iff, hfails]
    decide
  have hlt : os.countP (·.verdict = .pass) < os.length := by
    refine lt_of_le_of_ne List.countP_le_length fun hall ↦ hnot ?_
    simpa using List.countP_eq_length.mp hall o ho
  rw [haccounts.passed, haccounts.total]
  exact Nat.add_lt_add_left hlt _

/-- **Band and section follow the exact ratio.** Of a run of up to `2 ^ 51` tests, the summary has
the marker that comparing its counts would give, and a section of failures exactly if some test did
not pass and a failure is kept. A recorded run that keeps any failures at all therefore has the
section exactly if a test failed. -/
theorem bands_follow_ratio (ctx : ReportContext) :
    (∀ t : Tally, 1 ≤ t.total.toNat → t.total.toNat ≤ 2 ^ 51 → t.passed.toNat ≤ t.total.toNat →
      ("## 🎉 ".toList <+: (render t ctx).toList ↔ 9 * t.total.toNat ≤ 10 * t.passed.toNat) ∧
      ("## 📊 ".toList <+: (render t ctx).toList ↔
        10 * t.passed.toNat < 9 * t.total.toNat ∧ t.total.toNat ≤ 2 * t.passed.toNat) ∧
      ("## 🔧 ".toList <+: (render t ctx).toList ↔ 2 * t.passed.toNat < t.total.toNat) ∧
      (HasSection ctx (render t ctx) ↔
        t.passed.toNat < t.total.toNat ∧ 0 < t.failures.size)) ∧
    ∀ (os : List Outcome) (limit : UInt64), 1 ≤ os.length → os.length ≤ 2 ^ 51 →
      1 ≤ limit.toNat → ∃ t, Tally.ofOutcomes os limit = .ok t ∧ t.total.toNat = os.length ∧
        t.passed.toNat = os.countP (·.verdict = .pass) ∧
        (HasSection ctx (render t ctx) ↔ ∃ o ∈ os, o.isFailure = true) := by
  refine ⟨fun t hpos hmax hpassed ↦ ?_, fun os limit hpos hmax hlimit ↦ ?_⟩
  · have hne : t.total ≠ 0 := by
      intro h
      rw [h] at hpos
      exact absurd hpos (by decide)
    have hband := ofRate_passRate hpos hmax hpassed
    refine ⟨?_, ?_, ?_, ?_⟩
    · refine (marker_prefix_render_iff hne .good ctx).trans ?_
      rw [hband]
      split_ifs <;> simp <;> omega
    · refine (marker_prefix_render_iff hne .middling ctx).trans ?_
      rw [hband]
      split_ifs <;> simp <;> omega
    · refine (marker_prefix_render_iff hne .poor ctx).trans ?_
      rw [hband]
      split_ifs <;> simp <;> omega
    · rw [hasSection_render_iff, listsFailures_eq_true_iff hpos hmax hpassed]
  · have hsize : os.length < UInt64.size := hmax.trans_lt (by decide)
    obtain ⟨t, ht⟩ := Tally.exists_ofOutcomes limit hsize
    have haccounts : Tally.Accounts (.empty limit) os t := Tally.accounts_of_recordAll ht
    have htotal : t.total.toNat = os.length := haccounts.total.trans (Nat.zero_add _)
    have hpassed : t.passed.toNat = os.countP (·.verdict = .pass) :=
      haccounts.passed.trans (Nat.zero_add _)
    refine ⟨t, ht, htotal, hpassed, ?_⟩
    have hle : t.passed.toNat ≤ t.total.toNat := by
      rw [hpassed, htotal]
      exact List.countP_le_length
    rw [hasSection_render_iff, listsFailures_eq_true_iff (htotal ▸ hpos) (htotal ▸ hmax) hle,
      failures_pos_iff hlimit ht]
    exact and_iff_right_of_imp (passed_lt_total_of_failure ht)

/-- The greatest total, one pass short of ninety percent. -/
theorem bands_follow_ratio_nearest_miss :
    let t : Tally := ⟨2026619832316723, 225179981368525, 0, 2251799813685248, #[⟨"a", ""⟩], 1⟩
    let ctx : ReportContext := ⟨"Suite", "shell"⟩
    1 ≤ t.total.toNat ∧ t.total.toNat = 2 ^ 51 ∧ t.passed.toNat ≤ t.total.toNat ∧
      10 * t.passed.toNat + 2 = 9 * t.total.toNat ∧
      "## 📊 ".toList <+: (render t ctx).toList ∧ HasSection ctx (render t ctx) := by
  intro t ctx
  have hpos : 1 ≤ t.total.toNat := by decide
  have hmax : t.total.toNat ≤ 2 ^ 51 := by decide
  have hpassed : t.passed.toNat ≤ t.total.toNat := by decide
  obtain ⟨-, hmiddling, -, hsection⟩ := (bands_follow_ratio ctx).1 t hpos hmax hpassed
  exact ⟨hpos, by decide, hpassed, by decide, hmiddling.mpr (by decide), hsection.mpr (by decide)⟩

end Conformance.Report.Summary
