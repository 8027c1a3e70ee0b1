import Mathlib
import Conformance.Proofs.Outcome.Judgement
import Conformance.Proofs.Report.CountLines
/-!
# Details and their causes

The detail of a failed test is one of three texts: that of a target which only loaded the file, that
of a limit that was passed, and that of a bad end. The first letter tells which.

In the detail of a bad end the error output is quoted behind the text of the end, and it may itself
look like any part of a detail. The text of an end has no comma in it, so the first comma of the
detail ends it, and what is quoted cannot be taken for a part of it. Both are therefore known from
the detail.
-/

namespace Conformance

/-! ## Texts of ends -/

/-- Besides digits an integer is written with a sign alone. -/
theorem notMem_toString_int {c : Char} (h : c.isDigit = false) (hsign : c ≠ '-') (n : ℤ) :
    c ∉ (toString n).toList := by
  cases n with
  | ofNat n => exact Report.notMem_repr h n
  | negSucc n =>
    have hdigits := Report.notMem_repr h (n + 1)
    change c ∉ ("-" ++ toString (n + 1)).toList
    rw [String.toList_append, List.mem_append, not_or]
    exact ⟨mt List.mem_singleton.mp hsign, hdigits⟩

namespace ExitState

theorem comma_notMem_text (e : ExitState) : ',' ∉ e.text.toList := by
  cases e with
  | code n => exact notMem_toString_int (by decide) (by decide) n
  | signal n =>
    rw [text, String.toList_append, List.mem_append, not_or]
    exact ⟨by decide, notMem_toString_int (by decide) (by decide) n⟩

/-- No code is written like a signal. -/
theorem text_code_ne_text_signal (n m : ℤ) : (code n).text ≠ (signal m).text := by
  intro h
  have hs : 's' ∉ (code n).text.toList := notMem_toString_int (by decide) (by decide) n
  rw [h, text, String.toList_append, List.mem_append, not_or] at hs
  exact hs.1 (by decide)

theorem text_injective : Function.Injective text := by
  intro e e' h
  rcases e with n | n <;> rcases e' with m | m
  · exact congrArg code (Int.repr_injective h)
  · exact absurd h (text_code_ne_text_signal n m)
  · exact absurd h.symm (text_code_ne_text_signal m n)
  · exact congrArg signal (Int.repr_injective ((String.append_right_inj _).mp h))

end ExitState

/-! ## Details -/

/-- Texts that are cut at their first separator are the same only if their parts are. -/
theorem append_separator_inj {c : Char} {xs ys us vs : List Char} (hx : c ∉ xs) (hy : c ∉ ys) :
    xs ++ c :: us = ys ++ c :: vs ↔ xs = ys ∧ us = vs := by
  refine ⟨fun h ↦ ?_, fun h ↦ by rw [h.1, h.2]⟩
  have hrest := congrArg (List.dropWhile (· ≠ c)) h
  rw [Report.dropWhile_ne_append hx, Report.dropWhile_ne_append hy] at hrest
  rw [hrest] at h
  exact ⟨List.append_cancel_right h, List.tail_eq_of_cons_eq hrest⟩

namespace Finished

variable {a b : Finished} {marker marker' : String}

/-- The detail of a run that came to a bad end. -/
def exitDetail (run : Finished) : String :=
  "Exit code: " ++ run.exit.text ++ ", stderr: " ++ run.excerpt

theorem excerpt_inj :
    a.excerpt = b.excerpt ↔ a.stderr.toList.take 200 = b.stderr.toList.take 200 :=
  String.ofList_inj

/-- The end and the excerpt are read off the detail, whatever the excerpt looks like. -/
theorem exitDetail_inj :
    a.exitDetail = b.exitDetail ↔ a.exit = b.exit ∧ a.excerpt = b.excerpt := by
  have hlist (run : Finished) : run.exitDetail.toList
      = "Exit code: ".toList ++
          (run.exit.text.toList ++ ',' :: (" stderr: ".toList ++ run.excerpt.toList)) := by
    simp [exitDetail, String.toList_append]
  rw [← String.toList_inj, hlist, hlist, List.append_cancel_left_eq,
    append_separator_inj a.exit.comma_notMem_text b.exit.comma_notMem_text,
    List.append_cancel_left_eq, String.toList_inj, String.toList_inj,
    ExitState.text_injective.eq_iff]

/-- A run that fails without showing the marker came to a bad end. -/
theorem detail_of_fail (hfail : (a.judge marker).1 = .fail) (hshows : a.shows marker = false) :
    (a.judge marker).2 = a.exitDetail := by
  rcases judge_cases a marker with ⟨hshown, -⟩ | ⟨-, -, h⟩ | ⟨-, -, h⟩
  · cases hshows.symm.trans hshown
  · rw [h] at hfail
    cases hfail
  · rw [h, exitDetail]

theorem head?_exitDetail (run : Finished) : run.exitDetail.toList.head? = some 'E' := by
  simp [exitDetail, String.toList_append]

theorem head?_detail_timeout (test : String) (limit : Duration) :
    (Outcome.timeout test limit).detail.toList.head? = some 'T' := by
  simp [Outcome.timeout, String.toList_append]

theorem ne_of_head?_ne {s t : String} {c d : Char} (hs : s.toList.head? = some c)
    (ht : t.toList.head? = some d) (hne : c ≠ d) : s ≠ t := by
  rintro rfl
  exact hne (Option.some.inj (hs.symm.trans ht))

/-- **A detail names its cause.** Two runs that fail without showing the marker, whatever they
print, have the same detail exactly if they ended in the same way, code and signal told apart, and
their error outputs begin with the same two hundred characters. No such detail is that of a target
which only loaded the file, or of a limit that was passed, and neither are these two ever alike. -/
theorem detail_names_cause (hfail : (a.judge marker).1 = .fail) (hshows : a.shows marker = false)
    (hfail' : (b.judge marker').1 = .fail) (hshows' : b.shows marker' = false) :
    ((a.judge marker).2 = (b.judge marker').2 ↔
      a.exit = b.exit ∧ a.stderr.toList.take 200 = b.stderr.toList.take 200) ∧
    (a.judge marker).2 ≠ notExecutedDetail ∧
    ∀ (test : String) (limit : Duration),
      (a.judge marker).2 ≠ (Outcome.timeout test limit).detail ∧
      notExecutedDetail ≠ (Outcome.timeout test limit).detail := by
  have hloaded : notExecutedDetail.toList.head? = some 'e' := by decide
  rw [detail_of_fail hfail hshows, detail_of_fail hfail' hshows']
  refine ⟨?_, ?_, fun test limit ↦ ⟨?_, ?_⟩⟩
  · rw [exitDetail_inj, excerpt_inj]
  · exact exitDetail_ne_notExecutedDetail _ _
  · exact ne_of_head?_ne a.head?_exitDetail (head?_detail_timeout test limit) (by decide)
  · exact ne_of_head?_ne hloaded (head?_detail_timeout test limit) (by decide)

/-- A run that ends with the code 9 is told from one that the signal 9 ends, although the latter
quotes a detail of the former. -/
theorem detail_names_cause_quoted :
    let a : Finished := ⟨.code 9, "", "x"⟩
    let b : Finished := ⟨.signal 9, "", "Exit code: 9, stderr: x"⟩
    (a.judge "loaded").1 = .fail ∧ a.shows "loaded" = false ∧ (b.judge "").1 = .fail ∧
      b.shows "" = false ∧ (a.judge "loaded").2 ≠ (b.judge "").2 := by
  intro a b
  have hfail : (a.judge "loaded").1 = .fail := by decide +kernel
  have hshows : a.shows "loaded" = false := by decide +kernel
  have hfail' : (b.judge "").1 = .fail := by decide +kernel
  have hshows' : b.shows "" = false := by decide +kernel
  obtain ⟨hsame, -⟩ := detail_names_cause hfail hshows hfail' hshows'
  exact ⟨hfail, hshows, hfail', hshows', mt hsame.mp fun h ↦ nomatch h.1⟩

end Finished

end Conformance
