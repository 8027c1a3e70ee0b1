import Conformance.Yaml.Gap
/-!
# Characters and places of a YAML text

What the characters of the texts below are not, and where blanks and line breaks lead to.
-/

namespace Conformance.Yaml

/-! ## Characters -/

theorem isSpace_eq_false_iff {c : Char} :
    isSpace c = false ↔ isBlank c = false ∧ isBreak c = false :=
  Bool.or_eq_false_iff

/-- Whether a character is printable and belongs to ASCII. -/
def IsPrintable (c : Char) : Prop := 0x20 ≤ c.toNat ∧ c.toNat ≤ 0x7E

instance : DecidablePred IsPrintable := fun _ ↦ inferInstanceAs (Decidable (_ ∧ _))

/-- There are few printable characters, so that a property of them can be checked one by one. -/
theorem forall_printable {P : Char → Prop} (h : ∀ n, n < 0x7F → 0x20 ≤ n → P (Char.ofNat n))
    {c : Char} (hc : IsPrintable c) : P c := by
  have hP := h c.toNat (Nat.lt_succ_of_le hc.2) hc.1
  rwa [Char.ofNat_toNat] at hP

theorem isSpace_of_isPrintable {c : Char} (h : IsPrintable c) :
    c ≠ ' ' → isSpace c = false :=
  forall_printable (P := fun c ↦ c ≠ ' ' → isSpace c = false) (by decide) h

theorem isPermitted_of_isPrintable {c : Char} (h : IsPrintable c) : isPermitted c :=
  forall_printable (P := fun c ↦ isPermitted c) (by decide) h

/-- Letters, digits and the underscore. -/
def isWordChar (c : Char) : Bool := c.isAlphanum || c == '_'

/-- A text of letters, digits and underscores that is not empty. -/
structure IsWord (w : List Char) : Prop where
  ne_nil : w ≠ []
  all : ∀ c ∈ w, isWordChar c

theorem ne_of_isWordChar {c d : Char} (hc : isWordChar c) (hd : isWordChar d = false) : c ≠ d := by
  rintro rfl
  rw [hc] at hd
  cases hd

theorem isPrintable_of_le {a b c : Char} (ha : 0x20 ≤ a.toNat) (hb : b.toNat ≤ 0x7E)
    (hlow : a.val ≤ c.val) (hhigh : c.val ≤ b.val) : IsPrintable c :=
  ⟨Nat.le_trans ha (UInt32.le_iff_toNat_le.mp hlow),
    Nat.le_trans (UInt32.le_iff_toNat_le.mp hhigh) hb⟩

theorem isPrintable_of_isWordChar {c : Char} (h : isWordChar c) : IsPrintable c := by
  have hletter (h : c.isAlpha) : IsPrintable c := by
    rcases Bool.or_eq_true_iff.mp h with hupper | hlower
    · exact isPrintable_of_le (a := 'A') (b := 'Z') (by decide) (by decide)
        (of_decide_eq_true hupper).1 (of_decide_eq_true hupper).2
    · obtain ⟨hlow, hhigh⟩ := Bool.and_eq_true_iff.mp hlower
      exact isPrintable_of_le (a := 'a') (b := 'z') (by decide) (by decide)
        (of_decide_eq_true hlow) (of_decide_eq_true hhigh)
  rcases Bool.or_eq_true_iff.mp h with hword | hunderscore
  · rcases Bool.or_eq_true_iff.mp hword with halpha | hdigit
    · exact hletter halpha
    · obtain ⟨hlow, hhigh⟩ := Bool.and_eq_true_iff.mp hdigit
      exact isPrintable_of_le (a := '0') (b := '9') (by decide) (by decide)
        (of_decide_eq_true hlow) (of_decide_eq_true hhigh)
  · rw [eq_of_beq hunderscore]
    decide

theorem isWordChar_of_isDigit {c : Char} (h : c.isDigit) : isWordChar c := by
  simp [isWordChar, Char.isAlphanum, h]

/-- The characters of words, signs and points. -/
def isPlainChar (c : Char) : Bool := isWordChar c || c == '+' || c == '-' || c == '.'

/-- A text of such characters that can be a value. A dash alone is none, as it would begin an
item. -/
structure IsPlainWord (w : List Char) : Prop where
  ne_nil : w ≠ []
  all : ∀ c ∈ w, isPlainChar c
  ne_dash : w ≠ ['-']

theorem isPlainChar_of_isWordChar {c : Char} (h : isWordChar c) : isPlainChar c := by
  simp [isPlainChar, h]

theorem IsWord.isPlainWord {w : List Char} (h : IsWord w) : IsPlainWord w where
  ne_nil := h.ne_nil
  all c hc := isPlainChar_of_isWordChar (h.all c hc)
  ne_dash := by
    rintro rfl
    exact absurd (h.all '-' List.mem_cons_self) (by decide)

theorem ne_of_isPlainChar {c d : Char} (hc : isPlainChar c) (hd : isPlainChar d = false) :
    c ≠ d := by
  rintro rfl
  rw [hc] at hd
  cases hd

theorem isPrintable_of_isPlainChar {c : Char} (h : isPlainChar c) : IsPrintable c := by
  simp only [isPlainChar, Bool.or_eq_true, beq_iff_eq] at h
  rcases h with ((h | rfl) | rfl) | rfl
  · exact isPrintable_of_isWordChar h
  all_goals decide

theorem isSpace_of_isPlainChar {c : Char} (h : isPlainChar c) : isSpace c = false :=
  isSpace_of_isPrintable (isPrintable_of_isPlainChar h) (ne_of_isPlainChar h (by decide))

/-! ## Places -/

theorem Mark.advance_advance (m : Mark) (a b : Nat) :
    (m.advance a).advance b = m.advance (a + b) := by
  simp [Mark.advance, Nat.add_assoc]

/-- A text that is empty or begins with something that is neither white space nor skipped like white
space between tokens. -/
def Stops (cs : List Char) : Prop := ∀ c ∈ cs.head?, isSpace c = false ∧ c ≠ '#' ∧ c ≠ '\uFEFF'

theorem stops_cons {c : Char} (h : isSpace c = false ∧ c ≠ '#' ∧ c ≠ '\uFEFF') (r : List Char) :
    Stops (c :: r) := by
  intro d hd
  obtain rfl : c = d := Option.some.inj hd
  exact h

theorem IsWord.exists_cons {w : List Char} (h : IsWord w) : ∃ c r, w = c :: r ∧ isWordChar c := by
  obtain ⟨c, r, rfl⟩ := List.exists_cons_of_ne_nil h.ne_nil
  exact ⟨c, r, rfl, h.all c List.mem_cons_self⟩

theorem IsPlainWord.stops {w : List Char} (h : IsPlainWord w) (r : List Char) : Stops (w ++ r) := by
  obtain ⟨c, w, rfl⟩ := List.exists_cons_of_ne_nil h.ne_nil
  have hc := h.all c List.mem_cons_self
  exact stops_cons ⟨isSpace_of_isPlainChar hc, ne_of_isPlainChar hc (by decide),
    ne_of_isPlainChar hc (by decide)⟩ (w ++ r)

/-- What follows a dash at the beginning of a value belongs to the value. -/
theorem IsPlainWord.exists_cons_of_dash {w : List Char} (h : IsPlainWord ('-' :: w)) (r : List Char) :
    ∃ c s, w ++ r = c :: s ∧ isSpace c = false := by
  have hne : w ≠ [] := fun hnil ↦ h.ne_dash (hnil ▸ rfl)
  obtain ⟨c, w, rfl⟩ := List.exists_cons_of_ne_nil hne
  exact ⟨c, w ++ r, rfl,
    isSpace_of_isPlainChar (h.all c (List.mem_cons_of_mem _ List.mem_cons_self))⟩

namespace Cursor

variable {p : Char → Bool} {r : List Char} {m : Mark}

theorem skip_stop {c : Cursor} (h : ∀ d ∈ c.rest.head?, p d = false) : c.skip p = c := by
  obtain ⟨rest, m⟩ := c
  cases rest with
  | nil => rfl
  | cons d r =>
    have hd : p d = false := h d rfl
    simp only [skip, span, List.takeWhile_cons, List.dropWhile_cons, hd]
    rfl

theorem skip_cons {d : Char} (hd : p d) : skip p ⟨d :: r, m⟩ = skip p ⟨r, m.advance 1⟩ := by
  simp only [skip, span, List.takeWhile_cons_of_pos hd, List.dropWhile_cons_of_pos hd,
    List.length_cons, Mark.advance_advance, Nat.add_comm]

theorem takeBreak_stop {c : Cursor} (h : ∀ d ∈ c.rest.head?, isBreak d = false) :
    c.takeBreak = (none, c) := by
  obtain ⟨rest, m⟩ := c
  unfold takeBreak
  split
  · rename_i hrest
    obtain rfl : rest = _ := hrest
    exact absurd (h _ rfl) (by decide)
  · rename_i hrest
    obtain rfl : rest = _ := hrest
    rw [if_neg (by rw [h _ rfl]; decide)]
  · rfl

theorem startsTriple_of_ne {d e : Char} (h : d ≠ e) : startsTriple ⟨d :: r, m⟩ e = false := by
  have hbeq : (d == e) = false := by simpa using h
  simp [startsTriple, hbeq]

theorem not_atDocumentLine_of_column {c : Cursor} (h : 0 < c.mark.column) :
    c.atDocumentLine = false := by
  have hcolumn : (c.mark.column == 0) = false := by
    rw [beq_eq_false_iff_ne]
    omega
  simp [atDocumentLine, startsTriple, hcolumn]

theorem not_atDocumentLine_of_isWordChar {d : Char} (h : isWordChar d) :
    atDocumentLine ⟨d :: r, m⟩ = false := by
  rw [atDocumentLine, startsTriple_of_ne (ne_of_isWordChar h (by decide)),
    startsTriple_of_ne (ne_of_isWordChar h (by decide))]
  rfl

end Cursor

/-! ## Gaps -/

theorem Gap.scan_stop {c : Char} (h : isSpace c = false) (margin : Int) (gap : Gap) (m : Mark)
    (r : List Char) : Gap.scan margin gap m (c :: r) = some (gap, ⟨c :: r, m⟩) := by
  rw [isSpace_eq_false_iff] at h
  unfold Gap.scan
  split
  · rename_i hnil
    cases hnil
  · rename_i hcons
    obtain ⟨rfl, -⟩ := List.cons.inj hcons
    exact absurd h.2 (by decide)
  · rename_i hcons
    obtain ⟨rfl, rfl⟩ := List.cons.inj hcons
    rw [if_neg (by rw [h.2]; decide), if_neg (by rw [h.1]; decide)]

theorem Gap.scan_space (margin : Int) (gap : List Char) (m : Mark) (r : List Char) :
    Gap.scan margin (.blanks gap) m (' ' :: r)
      = Gap.scan margin (.blanks (gap ++ [' '])) (m.advance 1) r := rfl

/-- A line feed with more text behind it ends the gap at the start of the next line. -/
theorem Gap.scan_newLine (margin : Int) (m : Mark) {r : List Char} (h : Stops r) :
    Gap.scan margin (.blanks []) m ('\n' :: r)
      = some (.lines (some '\n') [], ⟨r, m.newLine 1⟩) := by
  cases r with
  | nil => rfl
  | cons c r => exact Gap.scan_stop (h c rfl).1 margin _ _ r

end Conformance.Yaml
