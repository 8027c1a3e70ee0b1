import Conformance.Proofs.Report.CountLines
import Conformance.Proofs.Report.Failures
/-!
# What the views have in common

The console report, the review summary and the snapshot give the same counts. The text of each is
split here into the part that its context fixes, a notice that stands there only for an empty run,
the lines of counts, and the rest. A reader that knows the context finds its way to the lines of
counts, so the counts can be read back from each text, and two tallies with the same text agree on
them.
-/

namespace Conformance.Report

/-! ## Notices -/

section Notice

variable {s : String} {cs : List Char} {p : Prop} [Decidable p]

/-- The text behind a fixed text, if that comes first. -/
def skip (s : String) (cs : List Char) : List Char := (expect s cs).getD cs

theorem skip_append (s : String) (cs : List Char) : skip s (s.toList ++ cs) = cs := by
  rw [skip, expect_append, Option.getD_some]

theorem skip_of_not_prefix (h : ¬ s.toList <+: cs) : skip s cs = cs := by
  rcases e : expect s cs with _ | rest
  · rw [skip, e, Option.getD_none]
  · obtain ⟨s', hcs, hs⟩ := List.dropPrefix?_eq_some_iff.mp e
    exact absurd ⟨rest, by rw [hcs, eq_of_beq hs]⟩ h

theorem not_prefix_of_head? {c d : Char} (hs : s.toList.head? = some c) (hcs : cs.head? = some d)
    (h : c ≠ d) : ¬ s.toList <+: cs := by
  obtain ⟨s', hs'⟩ := List.head?_eq_some_iff.mp hs
  obtain ⟨cs', hcs'⟩ := List.head?_eq_some_iff.mp hcs
  rw [hs', hcs', List.cons_prefix_cons]
  exact fun hprefix ↦ h hprefix.1

/-- A notice is passed over, whether it is there or not. -/
theorem skip_notice (h : ¬ s.toList <+: cs) :
    skip s ((if p then s else "").toList ++ cs) = cs := by
  split
  · exact skip_append s cs
  · exact skip_of_not_prefix h

theorem notice_prefix_iff (h : ¬ s.toList <+: cs) :
    s.toList <+: (if p then s else "").toList ++ cs ↔ p := by
  split
  · exact iff_of_true (List.prefix_append _ _) ‹_›
  · exact iff_of_false h ‹_›

end Notice

/-! ## The console -/

namespace Console

/-- The title of the report. -/
def opening (ctx : ReportContext) : String :=
  "\n" ++ banner ++ "\n" ++ Text.upper ctx.suiteName ++ " RESULTS\n" ++ banner ++ "\n"

/-- The line for an empty run. -/
def notice : String := "✗ No tests were run\n"

/-- The labels of the console. -/
def form : CountForm where
  total := "Total tests:   "
  passed := "Passed:        "
  failed := "Failed:        "
  closing := ""
  endsNumber_closing := by decide
  newline_notMem_closing := by decide

/-- The number of failures that a block of failures speaks of, none if there is no block. -/
def retained? (cs : List Char) : Option ℕ :=
  if cs = [] then some 0
  else do
    let cs ← expect "First " cs
    let (_, cs) ← number? cs
    let cs ← expect " of " cs
    let (m, _) ← number? cs
    return m

/-- The counts and the number of retained failures, as the plain report gives them. -/
def figures? (ctx : ReportContext) (text : String) : Option (Figures × ℕ) := do
  let cs ← expect (opening ctx) text.toList
  let (figures, cs) ← form.figures? (skip notice cs)
  let cs ← expect (banner ++ "\n\n") cs
  let retained ← retained? cs
  return (figures, retained)

/-- What follows the banner and an empty line: the block of failures, if there is one. -/
def ending (fs : List FailureSample) : String :=
  if fs = [] then ""
  else "First " ++ toString (min 10 fs.length) ++ " of " ++ toString fs.length ++
    (" recorded failures:\n" ++ Piece.render false ((fs.take 10).flatMap failureLines) ++ "\n")

theorem render_eq_ending (t : Tally) (ctx : ReportContext) :
    render false t ctx = opening ctx ++ (if t.total = 0 then notice else "") ++
      form.lines (toString t.total.toNat) (passedText t) (failedText t) ++
        (banner ++ "\n\n" ++ ending t.failures.toList) := by
  have hcounts : Piece.render false (countPieces t ctx)
      = opening ctx ++ (if t.total = 0 then notice else "") ++
        form.lines (toString t.total.toNat) (passedText t) (failedText t) ++ (banner ++ "\n") := by
    rw [countPieces, Piece.render_append, Piece.render_append, ← String.toList_inj]
    split <;> simp [opening, notice, form, CountForm.lines, countLine]
  -- With failures to show or without, an empty line stands below the banner.
  have hending : "\n" ++ ending t.failures.toList
      = Piece.render false (failureBlock t.failures.toList) ++ "\n" := by
    by_cases hnone : t.failures.toList = []
    · rw [ending, if_pos hnone, failureBlock, if_pos hnone, Piece.render_nil, String.append_empty,
        String.empty_append]
    · rw [ending, if_neg hnone, render_failureBlock false hnone]
      simp only [String.append_assoc]
  have hbreak : "\n\n" = "\n" ++ "\n" := by decide
  rw [render_console_eq, hcounts, hbreak]
  simp only [String.append_assoc, hending]

theorem retained?_ending (fs : List FailureSample) :
    retained? (ending fs).toList = some fs.length := by
  by_cases hnone : fs = []
  · rw [hnone]
    rfl
  · have hshape : (ending fs).toList = "First ".toList ++ ((toString (min 10 fs.length)).toList ++
        (" of ".toList ++ ((toString fs.length).toList ++ (" recorded failures:\n".toList ++
          ((Piece.render false ((fs.take 10).flatMap failureLines)).toList ++ "\n".toList))))) := by
      rw [ending, if_neg hnone]
      simp only [String.toList_append, List.append_assoc]
    have hne : (ending fs).toList ≠ [] := by
      rw [hshape]
      exact nofun
    have hof (cs : List Char) : EndsNumber (" of ".toList ++ cs) :=
      EndsNumber.append_of_ne_nil (by decide) (by decide) cs
    have hrecorded (cs : List Char) : EndsNumber (" recorded failures:\n".toList ++ cs) :=
      EndsNumber.append_of_ne_nil (by decide) (by decide) cs
    rw [retained?, if_neg hne, hshape]
    simp only [expect_append, number?_append _ (hof _), number?_append _ (hrecorded _),
      Option.bind_eq_bind, Option.bind_some, Option.pure_def]

theorem not_notice_prefix_lines (total passed failed : String) (cs : List Char) :
    ¬ notice.toList <+: (form.lines total passed failed).toList ++ cs := by
  refine not_prefix_of_head? (c := '✗') (d := 'T') (by decide) ?_ (by decide)
  simp [CountForm.lines, countLine, form]

theorem toList_render (t : Tally) (ctx : ReportContext) :
    (render false t ctx).toList = (opening ctx).toList ++
      ((if t.total = 0 then notice else "").toList ++ ((form.lines (toString t.total.toNat)
        (passedText t) (failedText t)).toList ++ ((banner ++ "\n\n").toList ++
          (ending t.failures.toList).toList))) := by
  rw [render_eq_ending]
  simp only [String.toList_append, List.append_assoc]

/-- The console tells its counts and how many failures are kept. -/
theorem figures?_render (t : Tally) (ctx : ReportContext) :
    figures? ctx (render false t ctx) = some (Figures.of t, t.failures.size) := by
  simp only [figures?, toList_render, expect_append, skip_notice (not_notice_prefix_lines _ _ _ _),
    CountForm.figures?_lines, retained?_ending, Array.length_toList, Option.bind_eq_bind,
    Option.bind_some, Option.pure_def]

/-- The text from the lines of counts on. -/
def fromCounts? (ctx : ReportContext) (text : String) : Option (List Char) :=
  (expect (opening ctx) text.toList).map (skip notice)

theorem fromCounts?_render (t : Tally) (ctx : ReportContext) :
    fromCounts? ctx (render false t ctx) = some ((form.lines (toString t.total.toNat)
      (passedText t) (failedText t)).toList ++ ((banner ++ "\n\n").toList ++
        (ending t.failures.toList).toList)) := by
  rw [fromCounts?, toList_render, expect_append, Option.map_some,
    skip_notice (not_notice_prefix_lines _ _ _ _)]

/-- The notice stands below the title exactly for an empty run. -/
theorem notice_prefix_render_iff (t : Tally) (ctx : ReportContext) :
    (opening ctx ++ notice).toList <+: (render false t ctx).toList ↔ t.total = 0 := by
  rw [render_eq_ending]
  simp only [String.toList_append, List.append_assoc]
  rw [List.prefix_append_right_inj]
  exact notice_prefix_iff (not_notice_prefix_lines _ _ _ _)

end Console

/-! ## The review summary -/

namespace Summary

/-- The heading without the marker. -/
def title (ctx : ReportContext) : String := " " ++ ctx.suiteName ++ " Results\n\n"

/-- The paragraph for an empty run. -/
def notice : String := "No tests were run.\n\n"

/-- The head of the table of counts. -/
def tableHead : String := "| Metric | Value |\n|--------|-------|\n"

/-- The labels of the review summary. -/
def form : CountForm where
  total := "| **Total Tests** | "
  passed := "| **Passed** | "
  failed := "| **Failed** | "
  closing := " |"
  endsNumber_closing := by decide
  newline_notMem_closing := by decide

/-- The marker in the heading. -/
def marker (t : Tally) : String := if t.total = 0 then "⚠️" else (Band.ofRate t.passRate).marker

/-- The counts, as the review summary gives them. No marker has a space in it. -/
def figures? (ctx : ReportContext) (text : String) : Option Figures := do
  let cs ← expect "## " text.toList
  let cs ← expect (title ctx) (cs.dropWhile (· ≠ ' '))
  let cs ← expect tableHead (skip notice cs)
  let (figures, _) ← form.figures? cs
  return figures

theorem space_notMem_marker (t : Tally) : ' ' ∉ (marker t).toList := by
  rw [marker]
  split
  · decide
  · cases Band.ofRate t.passRate <;> decide

theorem summaryCounts_eq (t : Tally) (ctx : ReportContext) :
    summaryCounts t ctx = "## " ++ marker t ++ title ctx ++
      (if t.total = 0 then notice else "") ++ tableHead ++
        form.lines (toString t.total.toNat) (passedText t) (failedText t) := by
  rw [summaryCounts, heading, marker, ← String.toList_inj]
  split <;> simp [title, notice, tableHead, table, form, CountForm.lines, countLine]

theorem not_notice_prefix_tableHead (cs : List Char) : ¬ notice.toList <+: tableHead.toList ++ cs :=
  not_prefix_of_head? (c := 'N') (d := '|') (by decide) (by rw [tableHead]; rfl) (by decide)

/-- What follows the counts: the section of failures, if there is one, and the closing note. -/
def ending (t : Tally) (ctx : ReportContext) : String :=
  String.join ((failureSection t).map (· ++ "\n")) ++ summaryEnding ctx

theorem render_eq_ending (t : Tally) (ctx : ReportContext) :
    render t ctx = "## " ++ marker t ++ title ctx ++
      (if t.total = 0 then notice else "") ++ tableHead ++
        form.lines (toString t.total.toNat) (passedText t) (failedText t) ++ ending t ctx := by
  rw [render_summary_eq, summaryCounts_eq, String.append_assoc, ending]

/-- The text of the summary, with everything behind the counts left open. -/
theorem exists_render_eq (t : Tally) (ctx : ReportContext) :
    ∃ ending, render t ctx = "## " ++ marker t ++ title ctx ++
      (if t.total = 0 then notice else "") ++ tableHead ++
        form.lines (toString t.total.toNat) (passedText t) (failedText t) ++ ending :=
  ⟨_, render_eq_ending t ctx⟩

theorem dropWhile_marker (t : Tally) (ctx : ReportContext) (cs : List Char) :
    ((marker t).toList ++ ((title ctx).toList ++ cs)).dropWhile (· ≠ ' ')
      = (title ctx).toList ++ cs := by
  have htitle : (title ctx).toList = ' ' :: (ctx.suiteName ++ " Results\n\n").toList := by
    simp [title]
  rw [htitle, List.cons_append, dropWhile_ne_append (space_notMem_marker t)]

theorem toList_render (t : Tally) (ctx : ReportContext) :
    (render t ctx).toList = "## ".toList ++ ((marker t).toList ++
      ((title ctx).toList ++ ((if t.total = 0 then notice else "").toList ++ (tableHead.toList ++
        ((form.lines (toString t.total.toNat) (passedText t) (failedText t)).toList ++
          (ending t ctx).toList))))) := by
  rw [render_eq_ending]
  simp only [String.toList_append, List.append_assoc]

/-- The summary tells its counts. What the list of failures says cannot be mistaken for them, since
the reader stops at the end of the table. -/
theorem figures?_render (t : Tally) (ctx : ReportContext) :
    figures? ctx (render t ctx) = some (Figures.of t) := by
  simp only [figures?, toList_render, expect_append, dropWhile_marker,
    skip_notice (not_notice_prefix_tableHead _), CountForm.figures?_lines, Option.bind_eq_bind,
    Option.bind_some, Option.pure_def]

/-- The text from the lines of counts on. -/
def fromCounts? (ctx : ReportContext) (text : String) : Option (List Char) := do
  let cs ← expect "## " text.toList
  let cs ← expect (title ctx) (cs.dropWhile (· ≠ ' '))
  expect tableHead (skip notice cs)

theorem fromCounts?_render (t : Tally) (ctx : ReportContext) :
    fromCounts? ctx (render t ctx) = some ((form.lines (toString t.total.toNat) (passedText t)
      (failedText t)).toList ++ (ending t ctx).toList) := by
  simp only [fromCounts?, toList_render, expect_append, dropWhile_marker,
    skip_notice (not_notice_prefix_tableHead _), Option.bind_eq_bind, Option.bind_some]

/-- The paragraph stands below the heading exactly for an empty run. -/
theorem notice_prefix_render_iff (t : Tally) (ctx : ReportContext) :
    ("## " ++ marker t ++ title ctx ++ notice).toList <+: (render t ctx).toList ↔ t.total = 0 := by
  obtain ⟨ending, h⟩ := exists_render_eq t ctx
  rw [h]
  simp only [String.toList_append, List.append_assoc]
  rw [List.prefix_append_right_inj, List.prefix_append_right_inj, List.prefix_append_right_inj]
  exact notice_prefix_iff (not_notice_prefix_tableHead _)

theorem not_warning_prefix_marker (band : Band) (cs : List Char) :
    ¬ "⚠️ ".toList <+: band.marker.toList ++ cs := by
  cases band with
  | good => exact not_prefix_of_head? (c := '⚠') (d := '🎉') (by decide) rfl (by decide)
  | middling => exact not_prefix_of_head? (c := '⚠') (d := '📊') (by decide) rfl (by decide)
  | poor => exact not_prefix_of_head? (c := '⚠') (d := '🔧') (by decide) rfl (by decide)

/-- The heading warns exactly of an empty run. -/
theorem warning_prefix_render_iff (t : Tally) (ctx : ReportContext) :
    "## ⚠️ ".toList <+: (render t ctx).toList ↔ t.total = 0 := by
  obtain ⟨ending, h⟩ := exists_render_eq t ctx
  have hwarning : "## ⚠️ " = "## " ++ "⚠️ " := by decide
  rw [h, hwarning]
  simp only [String.toList_append, List.append_assoc]
  rw [List.prefix_append_right_inj, marker]
  -- The warning is the marker with the space behind it, which belongs to the title.
  split
  · have hsplit : "⚠️ ".toList = "⚠️".toList ++ " ".toList := by decide
    rw [hsplit, List.prefix_append_right_inj, title]
    simp only [String.toList_append, List.append_assoc]
    exact iff_of_true (List.prefix_append _ _) ‹_›
  · exact iff_of_false (not_warning_prefix_marker _ _) ‹_›

end Summary

/-! ## All views -/

/-- **The views cannot disagree.** Tallies with one text in a view have the same counts, and the same
number of failures if the view tells it. Both reports give one text for the passed and one for the
failed tests. The counts read from any view are those that the snapshot is read as. The reports have
their notices, and the summary its warning, exactly for an empty run. -/
theorem views_agree (ctx : ReportContext) :
    (∀ t u : Tally,
      (Console.render false t ctx = Console.render false u ctx →
        t.total = u.total ∧ t.passed = u.passed ∧ t.failed = u.failed ∧
          t.failures.size = u.failures.size) ∧
      (Summary.render t ctx = Summary.render u ctx →
        t.total = u.total ∧ t.passed = u.passed ∧ t.failed = u.failed) ∧
      (Snapshot.render t = Snapshot.render u →
        t.total = u.total ∧ t.passed = u.passed ∧ t.failed = u.failed ∧
          t.failures.size = u.failures.size)) ∧
    ∀ t : Tally,
      (∃ passed failed percent percent' : String,
        passed = toString t.passed.toNat ++ " (" ++ percent ++ "%)" ∧
        failed = toString t.failed.toNat ++ " (" ++ percent' ++ "%)" ∧
        (∃ ending, Console.render false t ctx = Console.opening ctx ++
          (if t.total = 0 then Console.notice else "") ++
            Console.form.lines (toString t.total.toNat) passed failed ++ ending) ∧
        ∃ ending, Summary.render t ctx = "## " ++ Summary.marker t ++ Summary.title ctx ++
          (if t.total = 0 then Summary.notice else "") ++ Summary.tableHead ++
            Summary.form.lines (toString t.total.toNat) passed failed ++ ending) ∧
      (∃ r, Snapshot.read (Snapshot.render t) = .ok r ∧
        Console.figures? ctx (Console.render false t ctx) = some (Figures.of r, r.failures.size) ∧
        Summary.figures? ctx (Summary.render t ctx) = some (Figures.of r)) ∧
      ((Console.opening ctx ++ Console.notice).toList <+: (Console.render false t ctx).toList
        ↔ t.total = 0) ∧
      ("## ⚠️ ".toList <+: (Summary.render t ctx).toList ↔ t.total = 0) ∧
      (("## " ++ Summary.marker t ++ Summary.title ctx ++ Summary.notice).toList
          <+: (Summary.render t ctx).toList ↔ t.total = 0) := by
  refine ⟨fun t u ↦ ⟨?_, ?_, ?_⟩, fun t ↦ ⟨?_, ?_, ?_, ?_, ?_⟩⟩
  · intro h
    have hread := Console.figures?_render t ctx
    rw [h, Console.figures?_render, Option.some.injEq, Prod.mk.injEq, Figures.of_eq_iff] at hread
    obtain ⟨⟨htotal, hpassed, hfailed⟩, hsize⟩ := hread
    exact ⟨htotal.symm, hpassed.symm, hfailed.symm, hsize.symm⟩
  · intro h
    have hread := Summary.figures?_render t ctx
    rw [h, Summary.figures?_render, Option.some.injEq, Figures.of_eq_iff] at hread
    obtain ⟨htotal, hpassed, hfailed⟩ := hread
    exact ⟨htotal.symm, hpassed.symm, hfailed.symm⟩
  · intro h
    obtain ⟨hpassed, hfailed, -, htotal, hfailures⟩ :=
      Snapshot.stored_eq_iff.mp (Snapshot.render_eq_iff.mp h)
    exact ⟨htotal, hpassed, hfailed, by rw [hfailures]⟩
  · exact ⟨passedText t, failedText t, _, _, rfl, rfl, ⟨_, Console.render_eq_ending t ctx⟩,
      Summary.exists_render_eq t ctx⟩
  · exact ⟨_, Snapshot.read_render t, Console.figures?_render t ctx, Summary.figures?_render t ctx⟩
  · exact Console.notice_prefix_render_iff t ctx
  · exact Summary.warning_prefix_render_iff t ctx
  · exact Summary.notice_prefix_render_iff t ctx

end Conformance.Report
