import Mathlib.Data.List.Induction
import Conformance.Yaml.Scalar
import Conformance.Proofs.Json.Scan
import Conformance.Proofs.Yaml.Quoted
/-!
# Numbers among the scalars

The spellings of a natural number: digits of one of four bases, with a prefix for each base but ten,
and a plus sign in front or none. Decimal digits have no superfluous zero in front, while the digits
of the other bases may have any number of them. Reading a number finds just these spellings.
-/

namespace Conformance.Yaml

/-! ## Spellings -/

/-- A digit of the number `d` in a base up to sixteen, in either case. -/
def IsDigit (base : Nat) (c : Char) (d : Nat) : Prop := IsHexDigit c d ∧ d < base

/-- Digits of a base, at least one, and the number that they denote. -/
inductive Digits (base : Nat) : List Char → Nat → Prop where
  | single {c : Char} {d : Nat} (hc : IsDigit base c d) : Digits base [c] d
  | snoc {ds : List Char} {n d : Nat} {c : Char} (h : Digits base ds n) (hc : IsDigit base c d) :
    Digits base (ds ++ [c]) (base * n + d)

/-- A spelling of a number without a sign. -/
inductive Unsigned : List Char → Nat → Prop where
  | hexadecimal {ds : List Char} {n : Nat} (h : Digits 16 ds n) : Unsigned ('0' :: 'x' :: ds) n
  | octal {ds : List Char} {n : Nat} (h : Digits 8 ds n) : Unsigned ('0' :: 'o' :: ds) n
  | binary {ds : List Char} {n : Nat} (h : Digits 2 ds n) : Unsigned ('0' :: 'b' :: ds) n
  | decimal {ds : List Char} {n : Nat} (h : Digits 10 ds n)
    (hzero : ds.head? = some '0' → ds = ['0']) : Unsigned ds n

/-- A spelling of a natural number, with a plus sign or without. -/
inductive Numeral : List Char → Nat → Prop where
  | unsigned {cs : List Char} {n : Nat} (h : Unsigned cs n) : Numeral cs n
  | plus {cs : List Char} {n : Nat} (h : Unsigned cs n) : Numeral ('+' :: cs) n

/-! ## Digits are read -/

section

variable {base n d : Nat} {c : Char} {ds cs : List Char}

theorem isPrintable_of_hexDigit? (h : Json.hexDigit? c = some d) : IsPrintable c := by
  unfold Json.hexDigit? at h
  split at h
  · exact isPrintable_of_le (a := '0') (b := '9') (by decide) (by decide) ‹_ ∧ _›.1 ‹_ ∧ _›.2
  split at h
  · exact isPrintable_of_le (a := 'a') (b := 'f') (by decide) (by decide) ‹_ ∧ _›.1 ‹_ ∧ _›.2
  split at h
  · exact isPrintable_of_le (a := 'A') (b := 'F') (by decide) (by decide) ‹_ ∧ _›.1 ‹_ ∧ _›.2
  · cases h

theorem hexDigit?_eq_some_iff : Json.hexDigit? c = some d ↔ IsHexDigit c d := by
  refine ⟨fun h ↦ ?_, hexDigit?_of_isHexDigit⟩
  have hall := forall_printable (P := fun c ↦ (Json.hexDigit? c).all fun d ↦ d < 16 ∧
    (c = Nat.digitChar d ∨ c = (Nat.digitChar d).toUpper)) (by decide) (isPrintable_of_hexDigit? h)
  rw [h, Option.all_some, decide_eq_true_iff] at hall
  exact hall

theorem digit?_eq_some_iff : digit? base c = some d ↔ IsDigit base c d := by
  rw [digit?, Option.filter_eq_some_iff, hexDigit?_eq_some_iff, decide_eq_true_iff, IsDigit]

theorem digits?_singleton (base : Nat) (c : Char) : digits? base [c] = digit? base c := by
  simp [digits?]

theorem digits?_append (hne : ds ≠ []) (c : Char) :
    digits? base (ds ++ [c])
      = (digits? base ds).bind fun n ↦ (digit? base c).map (base * n + ·) := by
  obtain ⟨d, ds, rfl⟩ := List.exists_cons_of_ne_nil hne
  rw [List.cons_append]
  simp only [digits?]
  rw [← List.cons_append, List.foldlM_append]
  simp

theorem Digits.ne_nil (h : Digits base ds n) : ds ≠ [] := by
  cases h <;> simp

/-- Digits are read from left to right, so the induction adds them at the end. -/
theorem digits?_eq_some_iff : digits? base ds = some n ↔ Digits base ds n := by
  constructor
  · intro h
    induction ds using List.reverseRecOn generalizing n with
    | nil => cases h
    | append_singleton ds c ih =>
      by_cases hne : ds = []
      · subst hne
        rw [List.nil_append, digits?_singleton, digit?_eq_some_iff] at h
        exact .single h
      · rw [digits?_append hne, Option.bind_eq_some_iff] at h
        obtain ⟨m, hm, hlast⟩ := h
        obtain ⟨d, hd, rfl⟩ := Option.map_eq_some_iff.mp hlast
        exact .snoc (ih hm) (digit?_eq_some_iff.mp hd)
  · intro h
    induction h with
    | single hc => rw [digits?_singleton, digit?_eq_some_iff.mpr hc]
    | snoc h hc ih =>
      rw [digits?_append h.ne_nil, ih, Option.bind_some, digit?_eq_some_iff.mpr hc, Option.map_some]

/-! ## Numbers are read -/

theorem hasLeadingZero_eq_false_iff :
    hasLeadingZero ds = false ↔ (ds.head? = some '0' → ds = ['0']) := by
  rcases ds with _ | ⟨c, _ | ⟨d, ds⟩⟩ <;> simp [hasLeadingZero]

/-- Digits without a superfluous zero cannot be taken for a number of another base. -/
theorem number?_of_hasLeadingZero (h : hasLeadingZero ds = false) : number? ds = digits? 10 ds := by
  unfold number?
  split
  · cases h
  · cases h
  · cases h
  · rw [if_neg (by simp [h])]

theorem number?_eq_some_iff : number? cs = some n ↔ Unsigned cs n := by
  constructor
  · intro h
    unfold number? at h
    split at h
    · exact .hexadecimal (digits?_eq_some_iff.mp h)
    · exact .octal (digits?_eq_some_iff.mp h)
    · exact .binary (digits?_eq_some_iff.mp h)
    · split at h
      · cases h
      · rename_i hzero
        rw [Bool.not_eq_true, hasLeadingZero_eq_false_iff] at hzero
        exact .decimal (digits?_eq_some_iff.mp h) hzero
  · intro h
    cases h with
    | hexadecimal h | octal h | binary h => exact digits?_eq_some_iff.mpr h
    | decimal h hzero =>
      rw [number?_of_hasLeadingZero (hasLeadingZero_eq_false_iff.mpr hzero)]
      exact digits?_eq_some_iff.mpr h

theorem IsDigit.isWordChar (h : IsDigit base c d) : isWordChar c := by
  have hall : ∀ d < 16, Yaml.isWordChar (Nat.digitChar d) ∧
      Yaml.isWordChar (Nat.digitChar d).toUpper := by decide
  obtain ⟨⟨hd, rfl | rfl⟩, -⟩ := h
  · exact (hall d hd).1
  · exact (hall d hd).2

theorem Digits.isWordChar (h : Digits base ds n) : ∀ c ∈ ds, isWordChar c := by
  induction h with
  | single hc => exact List.forall_mem_singleton.mpr hc.isWordChar
  | snoc _ hc ih =>
    exact List.forall_mem_append.mpr ⟨ih, List.forall_mem_singleton.mpr hc.isWordChar⟩

theorem Unsigned.isWord (h : Unsigned cs n) : IsWord cs := by
  cases h with
  | hexadecimal h | octal h | binary h =>
    refine ⟨List.cons_ne_nil _ _, ?_⟩
    simp only [List.forall_mem_cons]
    exact ⟨by decide, by decide, h.isWordChar⟩
  | decimal h => exact ⟨h.ne_nil, h.isWordChar⟩

/-- **Natural numbers.** Reading a natural number finds its spellings and nothing else. -/
theorem natural?_eq_some_iff : natural? cs = some n ↔ Numeral cs n := by
  constructor
  · intro h
    unfold natural? at h
    split at h
    · exact .plus (number?_eq_some_iff.mp h)
    · exact .unsigned (number?_eq_some_iff.mp h)
  · intro h
    cases h with
    | plus h => exact number?_eq_some_iff.mpr h
    | unsigned h =>
      unfold natural?
      split
      · exact absurd (h.isWord.all '+' List.mem_cons_self) (by decide)
      · exact number?_eq_some_iff.mpr h

/-- A text spells one number at most. -/
theorem Numeral.unique {n' : Nat} (h : Numeral cs n) (h' : Numeral cs n') : n = n' := by
  rw [← natural?_eq_some_iff] at h h'
  rw [h] at h'
  exact Option.some.inj h'

/-- A number can be written as a value without quotes. -/
theorem Numeral.isPlainWord (h : Numeral cs n) : IsPlainWord cs := by
  cases h with
  | unsigned h => exact h.isWord.isPlainWord
  | plus h =>
    refine ⟨List.cons_ne_nil _ _, List.forall_mem_cons.mpr ⟨by decide, ?_⟩, by simp⟩
    exact h.isWord.isPlainWord.all

end

/-! ## Every number has spellings -/

theorem isDigit_digitChar {base d : Nat} (hbase : base ≤ 16) (hd : d < base) :
    IsDigit base (Nat.digitChar d) d :=
  ⟨⟨Nat.lt_of_lt_of_le hd hbase, .inl rfl⟩, hd⟩

theorem digits_toDigits {base : Nat} (hpos : 1 < base) (hbase : base ≤ 16) (n : Nat) :
    Digits base (Nat.toDigits base n) n := by
  induction n using Nat.strongRecOn with
  | ind n ih =>
    by_cases hn : n < base
    · rw [Nat.toDigits_of_lt_base hn]
      exact .single (isDigit_digitChar hbase hn)
    · rw [Nat.not_lt] at hn
      have hsnoc := Digits.snoc (ih (n / base) (Nat.div_lt_self (by omega) hpos))
        (isDigit_digitChar hbase (Nat.mod_lt n (by omega)))
      rw [Nat.div_add_mod] at hsnoc
      rw [Nat.toDigits_of_base_le hpos hn]
      exact hsnoc

theorem unsigned_toDigits (n : Nat) : Unsigned (Nat.toDigits 10 n) n := by
  refine .decimal (digits_toDigits (by decide) (by decide) n) fun hhead ↦ ?_
  obtain ⟨c, hc⟩ := List.length_eq_one_iff.mp (Json.length_toDigits_of_head? hhead)
  rw [hc] at hhead ⊢
  exact congrArg ([·]) (Option.some.inj hhead)

/-- The decimal digits of a number denote the number. -/
theorem natural?_toDigits (n : Nat) : natural? (Nat.toDigits 10 n) = some n :=
  natural?_eq_some_iff.mpr (.unsigned (unsigned_toDigits n))

/-- The shortest spellings of a number in the four bases. -/
def unsignedSpellings (n : Nat) : List (List Char) :=
  [Nat.toDigits 10 n, '0' :: 'x' :: Nat.toDigits 16 n, '0' :: 'o' :: Nat.toDigits 8 n,
    '0' :: 'b' :: Nat.toDigits 2 n]

/-- The shortest spellings of a number, without a sign and with one. -/
def spellings (n : Nat) : List (List Char) :=
  unsignedSpellings n ++ (unsignedSpellings n).map ('+' :: ·)

theorem unsigned_of_mem_unsignedSpellings {n : Nat} {w : List Char}
    (h : w ∈ unsignedSpellings n) : Unsigned w n := by
  simp only [unsignedSpellings, List.mem_cons, List.not_mem_nil, or_false] at h
  rcases h with rfl | rfl | rfl | rfl
  · exact unsigned_toDigits n
  · exact .hexadecimal (digits_toDigits (by decide) (by decide) n)
  · exact .octal (digits_toDigits (by decide) (by decide) n)
  · exact .binary (digits_toDigits (by decide) (by decide) n)

theorem numeral_of_mem_spellings {n : Nat} {w : List Char} (h : w ∈ spellings n) : Numeral w n := by
  rcases List.mem_append.mp h with h | h
  · exact .unsigned (unsigned_of_mem_unsignedSpellings h)
  · obtain ⟨w, hw, rfl⟩ := List.mem_map.mp h
    exact .plus (unsigned_of_mem_unsignedSpellings hw)

end Conformance.Yaml
