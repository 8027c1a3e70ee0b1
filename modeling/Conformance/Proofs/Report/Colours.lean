import Conformance.Proofs.Report.CountLines
import Conformance.Proofs.Report.Terminal
/-!
# The colours of the console

With and without colours the console report is the same text. The title is yellow and bold, the
counts of passed and failed tests are green and red, and so is the notice of an empty run. Every
style begins with a reset, so no line takes over what another one set, and the last sequence of all
is a reset in front of the failures.
-/

namespace Conformance

open Terminal

/-! ## Upper-casing -/

namespace Text

theorem toNat_of_ofNat_eq_escapeChar {n : ℕ} (h : Char.ofNat n = escapeChar) : n = 27 := by
  by_cases hn : n.isValidChar
  · rw [Char.ofNat, dif_pos hn] at h
    exact congrArg Char.toNat h
  · rw [Char.ofNat, dif_neg hn] at h
    exact absurd h (by decide)

/-- No other character becomes an escape character in upper case. -/
theorem escapeChar_notMem_upperChar {c : Char} (h : c ≠ escapeChar) :
    escapeChar ∉ upperChar c := by
  rw [upperChar]
  split
  · rename_i hascii
    have hupper : ∀ n < 0x80, Char.ofNat n ≠ escapeChar → (Char.ofNat n).toUpper ≠ escapeChar := by
      decide +kernel
    have hc := hupper c.toNat hascii
    rw [Char.ofNat_toNat] at hc
    rw [List.mem_singleton]
    exact Ne.symm (hc h)
  split
  · rename_i cs hlookup
    have hexpansions : ∀ e ∈ upperExpansions, ∀ n ∈ e.2, n ≠ 27 := by decide +kernel
    obtain ⟨before, behind, htable, -⟩ := List.lookup_eq_some_iff.mp hlookup
    rw [List.mem_map]
    rintro ⟨n, hn, hescape⟩
    have hentry : (c.toNat, cs) ∈ upperExpansions := by
      rw [htable]
      exact List.mem_append_right _ List.mem_cons_self
    exact hexpansions _ hentry n hn (toNat_of_ofNat_eq_escapeChar hescape)
  · dsimp only
    split
    · rename_i low high stride shift hrun
      -- Even the first letter of a run lands above all control characters.
      have hruns : ∀ run ∈ upperRuns, 27 < (run.1 : ℤ) + run.2.2.2 := by decide +kernel
      have hshift := hruns _ (List.mem_of_find?_eq_some hrun)
      have hlow := List.find?_some hrun
      simp only [Bool.and_eq_true, decide_eq_true_eq] at hlow
      rw [List.mem_singleton]
      intro hescape
      have hcode := toNat_of_ofNat_eq_escapeChar hescape.symm
      dsimp only at hshift
      omega
    · rw [List.mem_singleton]
      exact Ne.symm h

theorem escapeChar_notMem_upper {s : String} (h : escapeChar ∉ s.toList) :
    escapeChar ∉ (upper s).toList := by
  rw [upper, String.toList_ofList, List.mem_flatMap]
  rintro ⟨c, hc, hescape⟩
  exact escapeChar_notMem_upperChar (fun he ↦ h (he ▸ hc)) hescape

end Text

namespace Report

theorem escapeChar_notMem_countText (count : UInt64) (rate : Binary64) :
    escapeChar ∉ (countText count rate).toList := by
  rw [countText_eq, escapeChar_notMem_append]
  exact ⟨notMem_repr (by decide) _, notMem_percentText (by decide) (by decide) rate⟩

namespace Console

/-! ## Parts of the report -/

/-- The report down to its last change of style. -/
def styledPart (t : Tally) (ctx : ReportContext) : List Piece :=
  [.line "", .line banner, .style .yellow true, .line (Text.upper ctx.suiteName ++ " RESULTS"),
    .reset, .line banner] ++
  (if t.total = 0 then [.style .red false, .line "✗ No tests were run", .reset] else []) ++
  [.line ("Total tests:   " ++ toString t.total.toNat),
    .style .green false, .line ("Passed:        " ++ passedText t),
    .style .red false, .line ("Failed:        " ++ failedText t), .reset]

/-- The report below its last change of style. -/
def plainPart (t : Tally) : List Piece :=
  [.line banner] ++ failureBlock t.failures.toList ++ [.line ""]

theorem pieces_eq (t : Tally) (ctx : ReportContext) :
    pieces t ctx = styledPart t ctx ++ plainPart t := by
  simp [pieces, countPieces, styledPart, plainPart]

/-- A line without an escape character. -/
def IsCleanLine (p : Piece) : Prop := ∃ s, p = .line s ∧ escapeChar ∉ s.toList

theorem IsCleanLine.isClean {p : Piece} (h : IsCleanLine p) : p.IsClean := by
  obtain ⟨s, rfl, hs⟩ := h
  exact Piece.isClean_line_iff.mpr hs

theorem IsCleanLine.text {p : Piece} (h : IsCleanLine p) : ∃ s, p = .text s := by
  obtain ⟨s, rfl, -⟩ := h
  exact ⟨_, rfl⟩

theorem isCleanLine_append {s s' : String} (h : escapeChar ∉ s.toList)
    (h' : escapeChar ∉ s'.toList) : IsCleanLine (.line (s ++ s')) :=
  ⟨_, rfl, escapeChar_notMem_append.mpr ⟨h, h'⟩⟩

theorem escapeChar_notMem_banner : escapeChar ∉ banner.toList := by
  have hne : escapeChar ≠ '=' := by decide
  unfold banner
  rw [String.toList_ofList]
  exact fun h ↦ hne (List.eq_of_mem_replicate h)

theorem isClean_styledPart {t : Tally} {ctx : ReportContext}
    (hname : escapeChar ∉ ctx.suiteName.toList) : ∀ p ∈ styledPart t ctx, p.IsClean := by
  have hbanner : IsCleanLine (.line banner) := ⟨_, rfl, escapeChar_notMem_banner⟩
  have htitle : IsCleanLine (.line (Text.upper ctx.suiteName ++ " RESULTS")) :=
    isCleanLine_append (Text.escapeChar_notMem_upper hname) (by decide)
  have htotal : IsCleanLine (.line ("Total tests:   " ++ toString t.total.toNat)) :=
    isCleanLine_append (by decide) (notMem_repr (by decide) _)
  have hpassed : IsCleanLine (.line ("Passed:        " ++ passedText t)) :=
    isCleanLine_append (by decide) (escapeChar_notMem_countText _ _)
  have hfailed : IsCleanLine (.line ("Failed:        " ++ failedText t)) :=
    isCleanLine_append (by decide) (escapeChar_notMem_countText _ _)
  have hnotice : IsCleanLine (.line "✗ No tests were run") := ⟨_, rfl, by decide⟩
  have hempty : IsCleanLine (.line "") := ⟨_, rfl, List.not_mem_nil⟩
  rw [styledPart]
  split <;>
    simp only [List.cons_append, List.nil_append, List.append_nil, List.forall_mem_cons,
      hempty.isClean, hbanner.isClean, htitle.isClean, hnotice.isClean, htotal.isClean,
      hpassed.isClean, hfailed.isClean, Piece.isClean_style, Piece.isClean_reset,
      List.not_mem_nil, false_imp_iff, implies_true, and_self]

theorem isCleanLine_failureLines {f : FailureSample}
    (h : escapeChar ∉ f.test.toList ∧ escapeChar ∉ f.error.toList) :
    ∀ p ∈ failureLines f, IsCleanLine p := by
  rw [failureLines, List.forall_mem_cons]
  refine ⟨isCleanLine_append (by decide) h.1, ?_⟩
  split
  · exact List.forall_mem_nil _
  · exact List.forall_mem_singleton.mpr (isCleanLine_append (by decide) h.2)

theorem isCleanLine_failureBlock {fs : List FailureSample}
    (h : ∀ f ∈ fs, escapeChar ∉ f.test.toList ∧ escapeChar ∉ f.error.toList) :
    ∀ p ∈ failureBlock fs, IsCleanLine p := by
  have hnumber (n : ℕ) : escapeChar ∉ (toString n).toList := notMem_repr (by decide) n
  rw [failureBlock]
  split
  · exact List.forall_mem_nil _
  dsimp only
  rw [List.forall_mem_append, List.forall_mem_cons, List.forall_mem_singleton]
  refine ⟨⟨⟨_, rfl, List.not_mem_nil⟩, _, rfl, ?_⟩, ?_⟩
  · simp only [escapeChar_notMem_append]
    exact ⟨⟨⟨⟨by decide, hnumber _⟩, by decide⟩, hnumber _⟩, by decide⟩
  · intro p hp
    obtain ⟨f, hf, hp⟩ := List.mem_flatMap.mp hp
    exact isCleanLine_failureLines (h f (List.mem_of_mem_take hf)) p hp

theorem isCleanLine_plainPart {t : Tally}
    (h : ∀ f ∈ t.failures.toList, escapeChar ∉ f.test.toList ∧ escapeChar ∉ f.error.toList) :
    ∀ p ∈ plainPart t, IsCleanLine p := by
  rw [plainPart, List.forall_mem_append, List.forall_mem_append, List.forall_mem_singleton,
    List.forall_mem_singleton]
  exact ⟨⟨⟨_, rfl, escapeChar_notMem_banner⟩, isCleanLine_failureBlock h⟩, _, rfl,
    List.not_mem_nil⟩

/-- The lines of the report down to its last change of style, each with the pen it is written
with. -/
theorem painted_styledPart (pen : Pen) (t : Tally) (ctx : ReportContext) :
    Piece.painted pen (styledPart t ctx)
      = written pen ("\n" ++ banner ++ "\n") ++
        written (.of .yellow true) (Text.upper ctx.suiteName ++ " RESULTS\n") ++
        written .plain (banner ++ "\n") ++
        written (.of .red false) (if t.total = 0 then "✗ No tests were run\n" else "") ++
        written .plain ("Total tests:   " ++ toString t.total.toNat ++ "\n") ++
        written (.of .green false) ("Passed:        " ++ passedText t ++ "\n") ++
        written (.of .red false) ("Failed:        " ++ failedText t ++ "\n") := by
  have htitle : Text.upper ctx.suiteName ++ " RESULTS\n"
      = Text.upper ctx.suiteName ++ " RESULTS" ++ "\n" := by
    rw [String.append_assoc]
    rfl
  rw [styledPart, htitle]
  split <;>
    simp [Piece.painted, Piece.line, written_append]

theorem exists_render_styledPart (t : Tally) (ctx : ReportContext) :
    ∃ above, Piece.render true (styledPart t ctx) = above ++ Piece.escape ['0'] := by
  obtain ⟨front, hfront⟩ : [.reset] <:+ styledPart t ctx :=
    .trans ⟨[_, _, _, _, _], rfl⟩ (List.suffix_append _ _)
  refine ⟨Piece.render true front, ?_⟩
  rw [← hfront, Piece.render_append]
  rfl

/-- Whatever came before, the styled part leaves the pen of a reset. -/
theorem penAfter_styledPart (pen : Pen) (t : Tally) (ctx : ReportContext) :
    (styledPart t ctx).foldl Piece.penAfter pen = .plain := by
  rw [styledPart, List.foldl_append]
  rfl

end Console

/-- **Coloured and plain console reports are the same text.** If the suite and the retained failures
bring no escape character of their own, deleting the colour sequences gives the plain report, and
this holds no escape character. The last sequence is a reset, and the banner and the failures below
it are written with the pen that it leaves. Of the lines above, the title is yellow and bold, the
notice of an empty run and the failed tests are red, and the passed tests green; nothing but the
title is bold, and no style takes anything over from the one before it. -/
theorem console_colours (t : Tally) (ctx : ReportContext)
    (hname : escapeChar ∉ ctx.suiteName.toList)
    (hsamples : ∀ f ∈ t.failures.toList,
      escapeChar ∉ f.test.toList ∧ escapeChar ∉ f.error.toList) :
    strip (Console.render true t ctx) = Console.render false t ctx ∧
    escapeChar ∉ (Console.render false t ctx).toList ∧
    (∃ above below, Console.render true t ctx = above ++ Piece.escape ['0'] ++ below ∧
      below = Console.banner ++ "\n" ++
        Piece.render false (Console.failureBlock t.failures.toList) ++ "\n" ∧
      escapeChar ∉ below.toList ∧
      ∀ pen, penAfter pen (above ++ Piece.escape ['0']) = .plain ∧
        shown pen (Console.render true t ctx)
          = written pen ("\n" ++ Console.banner ++ "\n") ++
            written (.of .yellow true) (Text.upper ctx.suiteName ++ " RESULTS\n") ++
            written .plain (Console.banner ++ "\n") ++
            written (.of .red false) (if t.total = 0 then "✗ No tests were run\n" else "") ++
            written .plain ("Total tests:   " ++ toString t.total.toNat ++ "\n") ++
            written (.of .green false) ("Passed:        " ++ passedText t ++ "\n") ++
            written (.of .red false) ("Failed:        " ++ failedText t ++ "\n") ++
            written .plain below) ∧
    (∀ pen, pen.bold = false →
      (shown pen (Console.render true t ctx)).filter (·.2.bold)
        = written (.of .yellow true) (Text.upper ctx.suiteName ++ " RESULTS\n")) ∧
    ∀ colour bold pen, penAfter pen (Piece.coloured (.style colour bold)) = .of colour bold := by
  have hstyled : ∀ p ∈ Console.styledPart t ctx, p.IsClean := Console.isClean_styledPart hname
  have hlines := Console.isCleanLine_plainPart hsamples
  have hplain : ∀ p ∈ Console.plainPart t, p.IsClean := fun p hp ↦ (hlines p hp).isClean
  have htexts : ∀ p ∈ Console.plainPart t, ∃ s, p = .text s := fun p hp ↦ (hlines p hp).text
  have hclean : ∀ p ∈ Console.pieces t ctx, p.IsClean := by
    rw [Console.pieces_eq]
    exact List.forall_mem_append.mpr ⟨hstyled, hplain⟩
  have hshown (pen : Pen) : shown pen (Console.render true t ctx)
      = Piece.painted pen (Console.styledPart t ctx) ++
        written .plain (Piece.render false (Console.plainPart t)) := by
    rw [Console.render, Piece.shown_render hclean, Console.pieces_eq, Piece.painted_append,
      Console.penAfter_styledPart, Piece.painted_of_texts htexts]
  obtain ⟨above, habove⟩ := Console.exists_render_styledPart t ctx
  refine ⟨Piece.strip_render hclean, Piece.escapeChar_notMem_render hclean, ⟨above,
    Piece.render false (Console.plainPart t), ?_, ?_, Piece.escapeChar_notMem_render hplain,
    fun pen ↦ ⟨?_, ?_⟩⟩, ?_, Piece.penAfter_coloured_style⟩
  · rw [Console.render, Console.pieces_eq, Piece.render_append, Piece.render_of_texts htexts,
      habove]
  · rw [Console.plainPart, Piece.render_append, Piece.render_append]
    simp
  · rw [← habove, Piece.penAfter_render hstyled, Console.penAfter_styledPart]
  · rw [hshown, Console.painted_styledPart]
  · intro pen hpen
    rw [hshown, Console.painted_styledPart]
    simp only [List.filter_append, filter_bold_written, hpen, Pen.of, Pen.plain, if_true,
      Bool.false_eq_true, if_false, List.nil_append, List.append_nil]

/-- A failure on a console that begins with another pen. -/
theorem console_colours_one_failure :
    let t : Tally := ⟨1, 1, 0, 2, #[⟨"a.js", "broken"⟩], 50⟩
    let ctx : ReportContext := ⟨"Suite", "shell"⟩
    escapeChar ∉ ctx.suiteName.toList ∧
      (∀ f ∈ t.failures.toList, escapeChar ∉ f.test.toList ∧ escapeChar ∉ f.error.toList) ∧
      strip (Console.render true t ctx) = Console.render false t ctx ∧
      (shown (.of .green false) (Console.render true t ctx)).filter (·.2.bold)
        = written (.of .yellow true) "SUITE RESULTS\n" := by
  intro t ctx
  have hname : escapeChar ∉ ctx.suiteName.toList := by decide
  have hsamples : ∀ f ∈ t.failures.toList,
      escapeChar ∉ f.test.toList ∧ escapeChar ∉ f.error.toList := by decide
  obtain ⟨hstrip, -, -, hbold, -⟩ := console_colours t ctx hname hsamples
  have htitle : Text.upper ctx.suiteName ++ " RESULTS\n" = "SUITE RESULTS\n" := by
    decide +kernel
  refine ⟨hname, hsamples, hstrip, ?_⟩
  rw [hbold _ rfl, htitle]

end Report

end Conformance
