import Conformance.Json.Scan
import Conformance.Proofs.Success
/-!
# What the scanners of JSON find

A scanner gives what it found together with the text it left, and the text that is left carries a
proof that it is shorter. Statements about scanners are made with `Finds`, which forgets that proof:
`Finds r a rest` says that the scan `r` found `a` and left `rest`.

Two scanners are followed over texts of any length here. A string is found character by character,
whatever escape stands for each; a numeral of decimal digits is found as the number that the digits
denote, as long as it fits into 64 bits.
-/

namespace Conformance.Json

/-- The scan `r` succeeds with `a` and leaves `rest`. -/
def Finds {ε α : Type} {cs : List Char} (r : Except ε (α × Rest cs)) (a : α)
    (rest : List Char) : Prop :=
  ∃ h, r = .ok (a, ⟨rest, h⟩)

/-- The scan `r`, which gives nothing but what it leaves, leaves `rest`. -/
def Leaves {ε : Type} {p : List Char → Prop} (r : Except ε { s // p s }) (rest : List Char) :
    Prop :=
  ∃ h, r = .ok ⟨rest, h⟩

/-! ## Scans in sequence -/

section Sequence

variable {ε α β γ : Type} {cs ds rest : List Char} {p q : List Char → Prop}

theorem finds_ok_iff {x : α × Rest cs} {a : α} :
    Finds (.ok x : Except ε (α × Rest cs)) a rest ↔ x.1 = a ∧ x.2.1 = rest := by
  obtain ⟨b, s, hs⟩ := x
  constructor
  · rintro ⟨_, ⟨⟩⟩
    exact ⟨rfl, rfl⟩
  · rintro ⟨rfl, rfl⟩
    exact ⟨hs, rfl⟩

theorem not_finds_error {e : ε} {a : α} : ¬ Finds (.error e : Except ε (α × Rest cs)) a rest :=
  nofun

theorem finds_bind_iff {x : Except ε γ} {k : γ → Except ε (α × Rest cs)} {a : α} :
    Finds (x >>= k) a rest ↔ ∃ c, x = .ok c ∧ Finds (k c) a rest := by
  cases x with
  | error e => exact iff_of_false nofun (by rintro ⟨c, ⟨⟩, -⟩)
  | ok c => exact ⟨fun h ↦ ⟨c, rfl, h⟩, by rintro ⟨_, ⟨⟩, h⟩; exact h⟩

theorem finds_map_iff {r : Except ε (α × Rest cs)} {f : α × Rest cs → β × Rest ds} {g : α → β}
    {b : β} (hf : ∀ x, (f x).1 = g x.1 ∧ (f x).2.1 = x.2.1) :
    Finds (r.map f) b rest ↔ ∃ a, Finds r a rest ∧ g a = b := by
  cases r with
  | error e => exact iff_of_false nofun (by rintro ⟨a, ⟨_, ⟨⟩⟩, -⟩)
  | ok x =>
    rw [Except.map, finds_ok_iff, (hf x).1, (hf x).2]
    constructor
    · rintro ⟨hg, hrest⟩
      exact ⟨x.1, finds_ok_iff.mpr ⟨rfl, hrest⟩, hg⟩
    · rintro ⟨a, ha, hg⟩
      obtain ⟨rfl, hrest⟩ := finds_ok_iff.mp ha
      exact ⟨hg, hrest⟩

theorem leaves_ok_iff {r : { s // p s }} :
    Leaves (.ok r : Except ε { s // p s }) rest ↔ r.1 = rest := by
  obtain ⟨s, hs⟩ := r
  constructor
  · rintro ⟨_, ⟨⟩⟩
    rfl
  · rintro rfl
    exact ⟨hs, rfl⟩

theorem not_leaves_error {e : ε} : ¬ Leaves (.error e : Except ε { s // p s }) rest := nofun

theorem leaves_bind_iff {x : Except ε α} {k : α → Except ε { s // p s }} :
    Leaves (x >>= k) rest ↔ ∃ a, x = .ok a ∧ Leaves (k a) rest := by
  cases x with
  | error e => exact iff_of_false nofun (by rintro ⟨a, ⟨⟩, -⟩)
  | ok a => exact ⟨fun h ↦ ⟨a, rfl, h⟩, by rintro ⟨_, ⟨⟩, h⟩; exact h⟩

/-- Seeing a rest as one of a longer text leaves it the same. -/
theorem leaves_map_iff {r : Except ε { s // p s }} {f : { s // p s } → { s // q s }}
    (hf : ∀ s, (f s).1 = s.1) : Leaves (r.map f) rest ↔ Leaves r rest := by
  cases r with
  | error e => exact iff_of_false nofun nofun
  | ok s => rw [Except.map, leaves_ok_iff, leaves_ok_iff, hf]

end Sequence

/-! ## White space -/

theorem skipSpace_append {ws : List Char} (h : ∀ c ∈ ws, isSpace c) (cs : List Char) :
    skipSpace (ws ++ cs) = skipSpace cs :=
  List.dropWhile_append_of_pos h

theorem skipSpace_cons {c : Char} (h : isSpace c = false) (cs : List Char) :
    skipSpace (c :: cs) = c :: cs := by
  rw [skipSpace, List.dropWhile_cons_of_neg (by simp [h])]

/-- White space in front of a character that is none is all that is skipped. -/
theorem skipSpace_append_cons {ws : List Char} (h : ∀ c ∈ ws, isSpace c) {c : Char}
    (hc : isSpace c = false) (cs : List Char) : skipSpace (ws ++ c :: cs) = c :: cs := by
  rw [skipSpace_append h, skipSpace_cons hc]

/-! ## Strings -/

theorem stringBody_quote (rest : List Char) : Finds (stringBody ('"' :: rest)) [] rest := by
  refine ⟨Nat.lt_succ_self _, ?_⟩
  rw [stringBody, if_pos rfl]
  rfl

/-- A character that needs no escape stands for itself. -/
theorem stringBody_plain {c : Char} {r s rest : List Char} (hq : c ≠ '"') (hb : c ≠ '\\')
    (hc : ¬ c.toNat < 0x20) (h : Finds (stringBody r) s rest) :
    Finds (stringBody (c :: r)) (c :: s) rest := by
  obtain ⟨hlt, e⟩ := h
  refine ⟨Nat.lt_succ_of_lt hlt, ?_⟩
  rw [stringBody, if_neg hq, if_neg hb, if_neg hc, e]
  rfl

/-- An escape stands for the character that it is read as. -/
theorem stringBody_escape {c : Char} {r r' s rest : List Char} (hc : Finds (escape r) c r')
    (h : Finds (stringBody r') s rest) : Finds (stringBody ('\\' :: r)) (c :: s) rest := by
  obtain ⟨hlt, e⟩ := hc
  obtain ⟨hlt', e'⟩ := h
  refine ⟨Nat.lt_succ_of_lt (Nat.lt_trans hlt' hlt), ?_⟩
  rw [stringBody, if_neg (by decide), if_pos rfl, e]
  change (stringBody r' >>= _) = _
  rw [e']
  rfl

theorem escape_short {c x : Char} (h : shortEscape? c = some x) (r : List Char) :
    Finds (escape (c :: r)) x r := by
  refine ⟨Nat.lt_succ_self _, ?_⟩
  simp only [escape, h]
  rfl

theorem hex4_digits {a b c d : Char} {i j k l : Nat} (ha : hexDigit? a = some i)
    (hb : hexDigit? b = some j) (hc : hexDigit? c = some k) (hd : hexDigit? d = some l)
    (r : List Char) :
    Finds (hex4 (a :: b :: c :: d :: r)) (((i * 16 + j) * 16 + k) * 16 + l) r := by
  refine ⟨by simp only [List.length_cons]; omega, ?_⟩
  simp only [hex4, ha, hb, hc, hd]

/-- Four hexadecimal digits that denote no half of a surrogate pair stand for a character. -/
theorem escape_numeric {n : Nat} {r rest : List Char} (h : Finds (hex4 r) n rest)
    (hhigh : isHighSurrogate n = false) (hlow : isLowSurrogate n = false) :
    Finds (escape ('u' :: r)) (Char.ofNat n) rest := by
  obtain ⟨hlt, e⟩ := h
  have hnum : numericEscape r = .ok (Char.ofNat n, ⟨rest, hlt⟩) := by
    rw [numericEscape, e]
    change (if isLowSurrogate n then _ else _) = _
    rw [if_neg (by simp [hlow]), if_neg (by simp [hhigh])]
  refine ⟨Nat.lt_succ_of_lt hlt, ?_⟩
  have hshort : shortEscape? 'u' = none := by decide
  simp only [escape, hshort]
  rw [if_pos trivial, hnum]
  rfl

/-! ## Numerals -/

theorem isSpace_of_isDigit {c : Char} (h : isDigit c) : isSpace c = false := by
  rw [Bool.eq_false_iff, isSpace]
  intro hspace
  simp only [Bool.or_eq_true, beq_iff_eq] at hspace
  obtain ((rfl | rfl) | rfl) | rfl := hspace <;> exact absurd h (by decide)

/-- A text with which no numeral goes on. -/
def EndsNumeral (rest : List Char) : Prop :=
  ∀ c ∈ rest.head?, isDigit c = false ∧ c ≠ '.' ∧ c ≠ 'e' ∧ c ≠ 'E'

theorem digits_append {ds rest : List Char} (hne : ds ≠ []) (hds : ∀ c ∈ ds, isDigit c)
    (hrest : ∀ c ∈ rest.head?, isDigit c = false) (atEnd : Failure) :
    Finds (digits atEnd (ds ++ rest)) ds rest := by
  obtain ⟨d, ds, rfl⟩ := List.exists_cons_of_ne_nil hne
  have htail : ∀ c ∈ ds, isDigit c := fun c hc ↦ hds c (List.mem_cons_of_mem d hc)
  have htake : (ds ++ rest).takeWhile isDigit = ds := by
    rw [List.takeWhile_append_of_pos htail]
    cases rest with
    | nil => simp
    | cons c r => simp [hrest c rfl]
  have hdrop : (ds ++ rest).dropWhile isDigit = rest := by
    rw [List.dropWhile_append_of_pos htail]
    cases rest with
    | nil => rfl
    | cons c r => rw [List.dropWhile_cons_of_neg (by simp [hrest c rfl])]
  refine ⟨by simp only [List.cons_append, List.length_cons, List.length_append]; omega, ?_⟩
  simp only [List.cons_append, digits, hds d List.mem_cons_self, if_true, htake, hdrop]

/-- Digits without a superfluous zero in front are a numeral if nothing goes on with it. -/
theorem numeral_append {ds rest : List Char} (hne : ds ≠ []) (hds : ∀ c ∈ ds, isDigit c)
    (hzero : ds.head? = some '0' → ds.length = 1) (hrest : EndsNumeral rest) (atEnd : Failure) :
    Finds (numeral atEnd (ds ++ rest)) ⟨ds, none, none⟩ rest := by
  obtain ⟨hlt, e⟩ := digits_append hne hds (fun c hc ↦ (hrest c hc).1) atEnd
  have hwhole : wholeDigits atEnd (ds ++ rest) = .ok (ds, ⟨rest, hlt⟩) := by
    rw [wholeDigits, e]
    exact if_neg fun h ↦ h.2 (hzero h.1)
  have hfraction : fractionPart atEnd rest = .ok (none, .whole rest) := by
    unfold fractionPart
    split
    · exact absurd rfl (hrest _ rfl).2.1
    · rfl
  have hexponent : exponentPart atEnd rest = .ok (none, .whole rest) := by
    cases rest with
    | nil => rfl
    | cons c r =>
      have h := hrest c rfl
      exact if_neg (by simp [h.2.2])
  refine ⟨hlt, ?_⟩
  rw [numeral, hwhole]
  change (fractionPart atEnd rest >>= _) = _
  rw [hfraction]
  change (exponentPart atEnd rest >>= _) = _
  rw [hexponent]
  rfl

/-! ### Decimal digits of a number -/

theorem le_ofDigitChars (ds : List Char) : ∀ n : Nat, n ≤ Nat.ofDigitChars 10 ds n := by
  induction ds with
  | nil => intro n; simp
  | cons d ds ih =>
    intro n
    rw [Nat.ofDigitChars_cons]
    exact Nat.le_trans (by omega) (ih _)

/-- No digit is left aside as long as the whole number fits into 64 bits. -/
theorem gather_eq (ds : List Char) : ∀ {n : Nat}, Nat.ofDigitChars 10 ds n < UInt64.size →
    gather n ds = (Nat.ofDigitChars 10 ds n, 0) := by
  induction ds with
  | nil => intro n _; simp [gather]
  | cons d ds ih =>
    intro n h
    have hnext : n * 10 + digitValue d = 10 * n + (d.toNat - '0'.toNat) := by
      rw [digitValue, Nat.mul_comm]
      rfl
    rw [Nat.ofDigitChars_cons, ← hnext] at h ⊢
    -- Further digits only make the number larger.
    have hfits : n * 10 + digitValue d < UInt64.size :=
      Nat.lt_of_le_of_lt (le_ofDigitChars ds _) h
    rw [gather, if_pos hfits, ih h]

private theorem head?_append_of_ne_nil {xs ys : List Char} (h : xs ≠ []) :
    (xs ++ ys).head? = xs.head? := by
  rw [List.head?_append, List.head?_eq_some_head h]
  rfl

theorem head?_toDigits {n : Nat} (h : 0 < n) : (Nat.toDigits 10 n).head? ≠ some '0' := by
  induction n using Nat.strongRecOn with
  | ind n ih =>
    by_cases hn : n < 10
    · have hdigit : ∀ m, m < 10 → 0 < m → Nat.digitChar m ≠ '0' := by decide
      rw [Nat.toDigits_of_lt_base hn]
      simpa using hdigit n hn h
    · rw [Nat.toDigits_of_base_le (by decide) (by omega),
        head?_append_of_ne_nil Nat.toDigits_ne_nil]
      exact ih (n / 10) (by omega) (by omega)

theorem length_toDigits_of_head? {n : Nat} (h : (Nat.toDigits 10 n).head? = some '0') :
    (Nat.toDigits 10 n).length = 1 := by
  cases n with
  | zero => rfl
  | succ n => exact absurd h (head?_toDigits (Nat.succ_pos n))

/-- A numeral without a sign is found as its value. -/
theorem number_unsigned {cs rest : List Char} {n : Numeral} {v : Number}
    (hsign : cs.head? ≠ some '-') (h : Finds (numeral .truncated cs) n rest)
    (hv : n.value? false = some v) : Finds (number cs) v rest := by
  obtain ⟨hlt, e⟩ := h
  refine ⟨hlt, ?_⟩
  unfold number
  split
  · exact absurd rfl hsign
  · rw [e]
    simp only [bind, Except.bind, hv]

/-- A number of 64 bits written in decimal is found. -/
theorem number_toDigits {n : Nat} (hn : n < UInt64.size) {rest : List Char}
    (hrest : EndsNumeral rest) :
    Finds (number (Nat.toDigits 10 n ++ rest)) (.natural n) rest := by
  have hds : ∀ c ∈ Nat.toDigits 10 n, isDigit c := fun c hc ↦
    Nat.isDigit_of_mem_toDigits (by decide) (by decide) hc
  have hsign : (Nat.toDigits 10 n ++ rest).head? ≠ some '-' := by
    rw [head?_append_of_ne_nil Nat.toDigits_ne_nil]
    exact fun h ↦ absurd (hds '-' (List.mem_of_mem_head? h)) (by decide)
  have hvalue : Numeral.value? false ⟨Nat.toDigits 10 n, none, none⟩ = some (.natural n) := by
    have hgather := gather_eq (Nat.toDigits 10 n) (n := 0) (by simpa using hn)
    simp [Numeral.value?, hgather]
  exact number_unsigned hsign
    (numeral_append Nat.toDigits_ne_nil hds length_toDigits_of_head? hrest .truncated) hvalue

end Conformance.Json
