import Mathlib.Data.List.Infix
import Conformance.Report.Console
import Conformance.Report.Summary
import Conformance.Proofs.Snapshot.RoundTrip
import Conformance.Proofs.Tally.Accounting
/-!
# The failures that are shown

A tally keeps the first failures of a run, the console shows the first of those, and the review
summary lists the first of these again. Each report ends the list at a limit of its own, and says
nothing of failures if there are none. What is shown is stated here in terms of the failing outcomes
themselves, so that each list can be seen to begin the next.
-/

namespace Conformance

namespace Piece

@[simp] theorem render_nil (colours : Bool) : render colours [] = "" := by
  rw [render, List.map_nil, String.join_nil]

theorem render_append (colours : Bool) (pieces pieces' : List Piece) :
    render colours (pieces ++ pieces') = render colours pieces ++ render colours pieces' := by
  rw [render, List.map_append, String.join_append, render, render]

/-- A line of text looks the same with and without colours. -/
@[simp] theorem render_line_cons (colours : Bool) (s : String) (pieces : List Piece) :
    render colours (.line s :: pieces) = s ++ "\n" ++ render colours pieces := by
  rw [render, List.map_cons, String.join_cons, ← render]
  cases colours <;> rfl

/-- Without colours nothing is seen of a change of style. -/
@[simp] theorem render_style_cons (colour : Colour) (bold : Bool) (pieces : List Piece) :
    render false (.style colour bold :: pieces) = render false pieces := by
  rw [render, List.map_cons, String.join_cons, ← render]
  exact String.empty_append

@[simp] theorem render_reset_cons (pieces : List Piece) :
    render false (.reset :: pieces) = render false pieces := by
  rw [render, List.map_cons, String.join_cons, ← render]
  exact String.empty_append

end Piece

namespace Report

/-! ## The console -/

/-- How the console shows a failing outcome. An empty detail takes no line. -/
def failureText (o : Outcome) : String :=
  "  • " ++ o.test ++ "\n" ++ if o.detail = "" then "" else "    Error: " ++ o.detail ++ "\n"

theorem render_failureLines (colours : Bool) (o : Outcome) :
    Piece.render colours (Console.failureLines (.ofOutcome o)) = failureText o := by
  rw [Console.failureLines, Piece.render_line_cons, FailureSample.ofOutcome, failureText]
  split <;> simp

theorem render_flatMap_failureLines (colours : Bool) (os : List Outcome) :
    Piece.render colours ((os.map FailureSample.ofOutcome).flatMap Console.failureLines)
      = String.join (os.map failureText) := by
  induction os with
  | nil => rw [List.map_nil, List.flatMap_nil, Piece.render_nil, List.map_nil, String.join_nil]
  | cons o os ih =>
    rw [List.map_cons, List.flatMap_cons, Piece.render_append, render_failureLines, ih,
      List.map_cons, String.join_cons]

/-- The block of failures, below an empty line. -/
theorem render_failureBlock (colours : Bool) {fs : List FailureSample} (h : fs ≠ []) :
    Piece.render colours (Console.failureBlock fs)
      = "\n" ++ ("First " ++ toString (min 10 fs.length) ++ " of " ++ toString fs.length ++
          " recorded failures:\n") ++
        Piece.render colours ((fs.take 10).flatMap Console.failureLines) := by
  rw [Console.failureBlock, if_neg h, Piece.render_append, List.length_take]
  simp [Console.failureLimit, String.append_assoc]

/-- Only the block of failures depends on the failures. -/
theorem render_console_eq (colours : Bool) (t : Tally) (ctx : ReportContext) :
    Console.render colours t ctx
      = Piece.render colours (Console.countPieces t ctx) ++
        Piece.render colours (Console.failureBlock t.failures.toList) ++ "\n" := by
  rw [Console.render, Console.pieces, Piece.render_append, Piece.render_append]
  simp

/-- The counts end with a banner. -/
theorem render_countPieces (colours : Bool) (t : Tally) (ctx : ReportContext) :
    ∃ above, Piece.render colours (Console.countPieces t ctx) = above ++ Console.banner ++ "\n" := by
  obtain ⟨pieces, h⟩ : [.line Console.banner] <:+ Console.countPieces t ctx :=
    .trans ⟨[_, _, _, _, _, _], rfl⟩ (List.suffix_append _ _)
  refine ⟨Piece.render colours pieces, ?_⟩
  rw [← h, Piece.render_append, Piece.render_line_cons, Piece.render_nil, String.append_empty,
    String.append_assoc]

theorem render_console_nil (colours : Bool) (t : Tally) (ctx : ReportContext) :
    Console.render colours { t with failures := #[] } ctx
      = Piece.render colours (Console.countPieces t ctx) ++ "\n" := by
  rw [render_console_eq]
  change _ ++ Piece.render colours [] ++ "\n" = _
  rw [Piece.render_nil, String.append_empty]
  rfl

/-! ## The review summary -/

/-- The lines of the review summary above its list of failures. -/
def summaryCounts (t : Tally) (ctx : ReportContext) : String :=
  String.join ((Summary.heading t ctx.suiteName ++ Summary.table t).map (· ++ "\n"))

/-- How the review summary lists failing outcomes. -/
def sectionText (listed : List Outcome) : String :=
  "\n### Sample Failures (first 5)\n\n" ++
    String.join (listed.map fun o ↦ "- `" ++ o.test ++ "`\n")

/-- How the review summary ends. -/
def summaryEnding (ctx : ReportContext) : String := "\n---\n" ++ Summary.footer ctx.targetName

/-- Only the section of failures depends on the failures. -/
theorem render_summary_eq (t : Tally) (ctx : ReportContext) :
    Summary.render t ctx = summaryCounts t ctx ++
      String.join ((Summary.failureSection t).map (· ++ "\n")) ++ summaryEnding ctx := by
  rw [Summary.render, summaryCounts, summaryEnding]
  simp [String.append_assoc]

theorem listsFailures_iff {t : Tally} {kept : List Outcome}
    (h : t.failures.toList = kept.map .ofOutcome) :
    Summary.listsFailures t ↔ t.passRate.atLeast 100 = false ∧ 0 < kept.length := by
  have hsize : t.failures.size = kept.length := by
    rw [← Array.length_toList, h, List.length_map]
  rw [Summary.listsFailures, Bool.and_eq_true, Bool.not_eq_true', Bool.not_eq_true',
    ← Bool.not_eq_true, ← Bool.not_eq_true, Array.isEmpty_iff_size_eq_zero, hsize,
    Nat.pos_iff_ne_zero]

theorem join_sectionHead :
    String.join
      (["", "### Sample Failures (first " ++ toString Summary.failureLimit ++ ")", ""].map (· ++ "\n"))
      = "\n### Sample Failures (first 5)\n\n" := by decide

theorem join_listedLines (listed : List Outcome) :
    String.join ((["", "### Sample Failures (first " ++ toString Summary.failureLimit ++ ")", ""] ++
        (listed.map FailureSample.ofOutcome).map fun f ↦ "- `" ++ f.test ++ "`").map (· ++ "\n"))
      = sectionText listed := by
  have hclosing : "`" ++ "\n" = "`\n" := by decide
  have hlines : ((listed.map FailureSample.ofOutcome).map fun f ↦ "- `" ++ f.test ++ "`").map
      (· ++ "\n") = listed.map fun o ↦ "- `" ++ o.test ++ "`\n" := by
    rw [List.map_map, List.map_map]
    refine List.map_congr_left fun o _ ↦ ?_
    change "- `" ++ o.test ++ "`" ++ "\n" = _
    rw [String.append_assoc, hclosing]
  rw [List.map_append, String.join_append, join_sectionHead, hlines]
  rfl

theorem join_failureSection {t : Tally} {kept : List Outcome}
    (h : t.failures.toList = kept.map .ofOutcome) :
    String.join ((Summary.failureSection t).map (· ++ "\n"))
      = if t.passRate.atLeast 100 = false ∧ 0 < kept.length then sectionText (kept.take 5)
        else "" := by
  rw [Summary.failureSection]
  by_cases hlists : Summary.listsFailures t = true
  · rw [if_pos hlists, if_pos ((listsFailures_iff h).mp hlists), h, ← List.map_take,
      join_listedLines]
    rfl
  · rw [if_neg hlists, if_neg (mt (listsFailures_iff h).mpr hlists), List.map_nil, String.join_nil]

/-! ## The lists -/

/-- The failures kept by a fresh tally are the first failing outcomes. -/
theorem failures_ofOutcomes {os : List Outcome} {limit : UInt64} {t : Tally}
    (h : Tally.ofOutcomes os limit = .ok t) :
    t.failures.toList = ((os.filter (·.isFailure)).take limit.toNat).map .ofOutcome := by
  have haccounts := (Tally.accounts_of_recordAll h).failures
  rw [haccounts, Tally.samplesOf, List.map_take]
  rfl

/-- **Each list of failures begins the next.** The snapshot of a run holds the first failing
outcomes up to the sample limit. The console report ends with the counts, unless there are failures
to show: then it ends in a block with the first ten of these. The review summary, if it has a section
of failures, lists the first five. Nothing else in the two reports depends on the failures. -/
theorem failure_lists (os : List Outcome) (limit : UInt64) (ctx : ReportContext) (colours : Bool)
    (h : os.length < UInt64.size) {F : List Outcome} {m : ℕ}
    (hF : os.filter (·.isFailure) = F) (hm : min limit.toNat F.length = m) :
    ∃ t, Tally.ofOutcomes os limit = .ok t ∧
      (∃ r, Snapshot.read (Snapshot.render t) = .ok r ∧
        r.failures.toList = (F.take m).map .ofOutcome) ∧
      (∃ above, ∃ counts, counts = above ++ Console.banner ++ "\n" ∧
        Console.render colours { t with failures := #[] } ctx = counts ++ "\n" ∧
        (m = 0 → Console.render colours t ctx = counts ++ "\n") ∧
        (0 < m → Console.render colours t ctx = counts ++ ("\n" ++
          ("First " ++ toString (min 10 m) ++ " of " ++ toString m ++ " recorded failures:\n") ++
            String.join ((F.take (min 10 m)).map failureText)) ++ "\n")) ∧
      (∃ counts ending,
        Summary.render { t with failures := #[] } ctx = counts ++ ending ∧
        Summary.render t ctx = counts ++
          (if t.passRate.atLeast 100 = false ∧ 0 < m then sectionText (F.take (min 5 m))
            else "") ++ ending) ∧
      F.take (min 5 m) <+: F.take (min 10 m) ∧ F.take (min 10 m) <+: F.take m ∧ F.take m <+: F := by
  obtain ⟨t, ht⟩ := Tally.exists_ofOutcomes limit h
  have hkept : t.failures.toList = (F.take m).map .ofOutcome := by
    rw [failures_ofOutcomes ht, hF, ← hm, List.take_eq_take_min]
  have hlength : (F.take m).length = m := by
    rw [List.length_take]
    omega
  have htake (n : ℕ) : (F.take m).take n = F.take (min n m) := List.take_take
  refine ⟨t, ht, ⟨_, Snapshot.read_render t, hkept⟩, ?_, ?_, ?_, ?_, List.take_prefix m F⟩
  · obtain ⟨above, habove⟩ := render_countPieces colours t ctx
    refine ⟨above, _, habove, render_console_nil colours t ctx, ?_, ?_⟩
    · -- A tally that keeps nothing is the one whose report is given by the counts alone.
      intro hm0
      rw [← render_console_nil, render_console_eq, render_console_eq, hkept, hm0]
      rfl
    · intro hpos
      have hne : F.take m ≠ [] := List.ne_nil_of_length_pos (by omega)
      rw [render_console_eq, hkept, render_failureBlock colours (mt List.map_eq_nil_iff.mp hne),
        List.length_map, hlength, ← List.map_take, htake, render_flatMap_failureLines]
  · refine ⟨summaryCounts t ctx, summaryEnding ctx, ?_, ?_⟩
    · have hnone : ({ t with failures := #[] } : Tally).failures.toList
          = ([] : List Outcome).map .ofOutcome := rfl
      rw [render_summary_eq, join_failureSection hnone, List.length_nil,
        if_neg (fun h ↦ absurd h.2 (lt_irrefl 0)), String.append_empty]
      rfl
    · rw [render_summary_eq, join_failureSection hkept, hlength, htake]
  · exact List.take_prefix_take_left (by omega)
  · exact List.take_prefix_take_left (by omega)

/-- Three failures, two of them kept, the second without a detail. -/
theorem failure_lists_two_of_three :
    ∃ t, Tally.ofOutcomes [.fail "a" "broken", .pass "b", .fail "c" "", .timeout "d" (.ofSecs 5)] 2
        = .ok t ∧
      ∃ counts, Console.render false t ⟨"Suite", "shell"⟩ = counts ++
        "\nFirst 2 of 2 recorded failures:\n  • a\n    Error: broken\n  • c\n\n" := by
  obtain ⟨t, ht, -, ⟨above, counts, -, -, -, hblock⟩, -⟩ :=
    failure_lists [.fail "a" "broken", .pass "b", .fail "c" "", .timeout "d" (.ofSecs 5)] 2
      ⟨"Suite", "shell"⟩ false (by decide) rfl rfl
  refine ⟨t, ht, counts, ?_⟩
  rw [hblock (by decide), String.append_assoc]
  congr 1

end Report

end Conformance
