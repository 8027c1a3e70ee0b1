import Mathlib.Data.List.Infix
import Conformance.Report.Context
/-!
# Lines of counts

Every report gives its three counts on three lines, each behind a label. The views differ in their
labels and in what closes a line, and this is all that the reader of such lines knows of a view: it
takes the number behind each label and passes over the rest of the line. It leaves the text behind
the last line alone, so what follows the counts, names and details of failures among it, cannot
change what is read.
-/

namespace Conformance.Report

/-! ## Numbers -/

/-- A text that does not go on with a digit. -/
def EndsNumber (cs : List Char) : Prop := cs.head?.any Char.isDigit = false

instance (cs : List Char) : Decidable (EndsNumber cs) := instDecidableEqBool _ _

/-- The number at the beginning of a text, and the text behind it. -/
def number? (cs : List Char) : Option (ℕ × List Char) :=
  if cs.takeWhile Char.isDigit = [] then none
  else some (Nat.ofDigitChars 10 (cs.takeWhile Char.isDigit) 0, cs.dropWhile Char.isDigit)

theorem endsNumber_cons_iff {c : Char} {cs : List Char} :
    EndsNumber (c :: cs) ↔ c.isDigit = false := Iff.rfl

theorem EndsNumber.append_of_ne_nil {cs : List Char} (h : EndsNumber cs) (hne : cs ≠ [])
    (cs' : List Char) : EndsNumber (cs ++ cs') := by
  obtain ⟨c, cs, rfl⟩ := List.exists_cons_of_ne_nil hne
  exact endsNumber_cons_iff.mpr (endsNumber_cons_iff.mp h)

theorem EndsNumber.append {cs : List Char} (h : EndsNumber cs) {c : Char}
    (hc : c.isDigit = false) (cs' : List Char) : EndsNumber (cs ++ c :: cs') := by
  cases cs with
  | nil => exact endsNumber_cons_iff.mpr hc
  | cons d cs => exact h.append_of_ne_nil (List.cons_ne_nil d cs) _

theorem takeWhile_isDigit_eq_nil {cs : List Char} (h : EndsNumber cs) :
    cs.takeWhile Char.isDigit = [] ∧ cs.dropWhile Char.isDigit = cs := by
  cases cs with
  | nil => exact ⟨rfl, rfl⟩
  | cons c cs =>
    have hc := endsNumber_cons_iff.mp h
    exact ⟨List.takeWhile_cons_of_neg (by simp [hc]), List.dropWhile_cons_of_neg (by simp [hc])⟩

theorem isDigit_of_mem_repr {n : ℕ} {c : Char} (h : c ∈ (toString n).toList) : c.isDigit := by
  rw [Nat.toString_eq_repr, Nat.toList_repr] at h
  exact Nat.isDigit_of_mem_toDigits (by decide) (by decide) h

/-- A number is read back in front of anything that does not go on with a digit. -/
theorem number?_append (n : ℕ) {cs : List Char} (h : EndsNumber cs) :
    number? ((toString n).toList ++ cs) = some (n, cs) := by
  obtain ⟨htake, hdrop⟩ := takeWhile_isDigit_eq_nil h
  have hdigit : ∀ c ∈ (toString n).toList, c.isDigit := fun _ ↦ isDigit_of_mem_repr
  have hne : (toString n).toList ≠ [] := by
    rw [Nat.toString_eq_repr, Nat.toList_repr]
    exact Nat.toDigits_ne_nil
  rw [number?, List.takeWhile_append_of_pos hdigit, List.dropWhile_append_of_pos hdigit, htake,
    hdrop, List.append_nil, if_neg hne, Nat.toString_eq_repr, Nat.toList_repr,
    Nat.ofDigitChars_ten_toDigits]

/-! ## Lines -/

theorem dropWhile_ne_append {c : Char} {cs : List Char} (h : c ∉ cs) (cs' : List Char) :
    (cs ++ c :: cs').dropWhile (· ≠ c) = c :: cs' := by
  have hne : ∀ d ∈ cs, decide (d ≠ c) = true := by
    intro d hd
    rw [decide_eq_true_iff]
    rintro rfl
    exact h hd
  rw [List.dropWhile_append_of_pos hne, List.dropWhile_cons_of_neg (by simp)]

/-- The text behind the first line. -/
def nextLine (cs : List Char) : List Char := (cs.dropWhile (· ≠ '\n')).tail

theorem nextLine_append {line : List Char} (h : '\n' ∉ line) (cs : List Char) :
    nextLine (line ++ '\n' :: cs) = cs := by
  rw [nextLine, dropWhile_ne_append h, List.tail_cons]

/-- A line with a count: a label, the count with what more there is to say of it, and a closing. -/
def countLine (label count closing : String) : String := label ++ count ++ closing ++ "\n"

/-- The text behind a fixed text, which has to come first. -/
def expect (s : String) (cs : List Char) : Option (List Char) := cs.dropPrefix? s.toList

theorem expect_append (s : String) (cs : List Char) : expect s (s.toList ++ cs) = some cs :=
  List.dropPrefix?_append_of_beq cs (beq_self_eq_true _)

/-- The count on a line with a given label, and the text behind the line. -/
def count? (label : String) (cs : List Char) : Option (ℕ × List Char) := do
  let cs ← expect label cs
  let (n, cs) ← number? cs
  return (n, nextLine cs)

/-- A count is read back from its line, whatever follows the line. -/
theorem count?_countLine (label : String) (n : ℕ) (more closing : String)
    (hnumber : EndsNumber (more.toList ++ closing.toList))
    (hline : '\n' ∉ more.toList ++ closing.toList) (cs : List Char) :
    count? label ((countLine label (toString n ++ more) closing).toList ++ cs) = some (n, cs) := by
  have hshape : (countLine label (toString n ++ more) closing).toList ++ cs
      = label.toList ++ ((toString n).toList ++ (more.toList ++ closing.toList ++ '\n' :: cs)) := by
    simp [countLine]
  have hread := number?_append n (hnumber.append (c := '\n') (by decide) cs)
  simp only [count?, hshape, expect_append, hread, Option.bind_eq_bind, Option.bind_some,
    nextLine_append hline, Option.pure_def]

/-! ## The three counts -/

/-- The counts that every view gives. -/
structure Figures where
  total : ℕ
  passed : ℕ
  failed : ℕ
  deriving DecidableEq, Repr

/-- The counts of a tally. -/
def Figures.of (t : Tally) : Figures := ⟨t.total.toNat, t.passed.toNat, t.failed.toNat⟩

theorem Figures.of_eq_iff {t u : Tally} :
    Figures.of t = Figures.of u ↔ t.total = u.total ∧ t.passed = u.passed ∧ t.failed = u.failed := by
  rw [of, of, Figures.mk.injEq, UInt64.toNat_inj, UInt64.toNat_inj, UInt64.toNat_inj]

/-- How a view writes its counts: the three labels and what closes a line. A closing stays on the
line and cannot be taken for a part of the number in front of it. -/
structure CountForm where
  total : String
  passed : String
  failed : String
  closing : String
  endsNumber_closing : EndsNumber closing.toList
  newline_notMem_closing : '\n' ∉ closing.toList

namespace CountForm

/-- The three lines of a view, from the texts that stand for the counts. -/
def lines (form : CountForm) (total passed failed : String) : String :=
  countLine form.total total form.closing ++ countLine form.passed passed form.closing ++
    countLine form.failed failed form.closing

/-- The three counts at the beginning of a text, and the text behind their lines. -/
def figures? (form : CountForm) (cs : List Char) : Option (Figures × List Char) := do
  let (total, cs) ← count? form.total cs
  let (passed, cs) ← count? form.passed cs
  let (failed, cs) ← count? form.failed cs
  return (⟨total, passed, failed⟩, cs)

end CountForm

/-- A percentage in parentheses. -/
def percentText (rate : Binary64) : String := " (" ++ hundredthsText rate.hundredths ++ "%)"

theorem countText_eq (count : UInt64) (rate : Binary64) :
    countText count rate = toString count.toNat ++ percentText rate := by
  rw [countText, percentText]
  simp only [String.append_assoc]

theorem notMem_repr {c : Char} (h : c.isDigit = false) (n : ℕ) : c ∉ (toString n).toList :=
  fun hc ↦ Bool.false_ne_true (h.symm.trans (isDigit_of_mem_repr hc))

/-- Besides digits a percentage is written with five characters. -/
theorem notMem_percentText {c : Char} (h : c.isDigit = false) (hc : c ∉ [' ', '(', '.', '%', ')'])
    (rate : Binary64) : c ∉ (percentText rate).toList := by
  have hwhole := notMem_repr h (rate.hundredths / 100)
  have hpart := notMem_repr h (rate.hundredths % 100)
  have hzero : c ≠ '0' := by
    rintro rfl
    cases h
  rw [percentText, hundredthsText]
  split <;> simp_all

theorem endsNumber_percentText (rate : Binary64) (cs : List Char) :
    EndsNumber ((percentText rate).toList ++ cs) := by
  have hopening : EndsNumber " (".toList := by decide
  rw [percentText, String.toList_append, String.toList_append, List.append_assoc, List.append_assoc]
  exact hopening.append_of_ne_nil (by decide) _

theorem CountForm.count?_total (form : CountForm) (n : ℕ) (cs : List Char) :
    count? form.total ((countLine form.total (toString n) form.closing).toList ++ cs)
      = some (n, cs) := by
  have h := count?_countLine form.total n "" form.closing form.endsNumber_closing
    form.newline_notMem_closing cs
  rwa [String.append_empty] at h

/-- The counts of a tally are read back from the lines of any view, whatever follows these. -/
theorem CountForm.figures?_lines (form : CountForm) (t : Tally) (cs : List Char) :
    form.figures? ((form.lines (toString t.total.toNat) (passedText t) (failedText t)).toList ++ cs)
      = some (Figures.of t, cs) := by
  have hcount (label : String) (n : UInt64) (rate : Binary64) (cs : List Char) :
      count? label ((countLine label (countText n rate) form.closing).toList ++ cs)
        = some (n.toNat, cs) := by
    rw [countText_eq]
    refine count?_countLine label _ _ _ (endsNumber_percentText rate _) ?_ cs
    rw [List.mem_append]
    exact fun h ↦
      h.elim (notMem_percentText (by decide) (by decide) rate) form.newline_notMem_closing
  simp only [figures?, lines, passedText, failedText, String.toList_append, List.append_assoc,
    count?_total, hcount, Option.bind_eq_bind, Option.bind_some, Option.pure_def, Figures.of]

end Conformance.Report
