import Conformance.Proofs.Json.Strings
/-!
# Numerals are read as they are spelled

A numeral is read up to the first character that it cannot go on with. The grammar of numerals lets
one end earlier, so a numeral of the grammar is only found where the text behind it ends every
numeral; a numeral that is found is always one of the grammar.

A numeral is a count exactly if it is a row of digits, without sign, fraction or exponent, that
denotes a number of 64 bits.
-/

namespace Conformance.Json

/-! ## Digits -/

theorem of_finds_digits {atEnd : Failure} {cs ds rest : List Char}
    (h : Finds (digits atEnd cs) ds rest) : AreDigits ds ∧ cs = ds ++ rest := by
  obtain ⟨_, h⟩ := h
  unfold digits at h
  split at h
  · cases h
  · rename_i c r
    split at h
    · rename_i hc
      cases h
      refine ⟨⟨List.cons_ne_nil _ _, ?_⟩, ?_⟩
      · intro d hd
        rcases List.mem_cons.mp hd with rfl | hd
        · exact hc
        · exact List.all_eq_true.mp List.all_takeWhile d hd
      · rw [List.cons_append, List.takeWhile_append_dropWhile]
    · cases h

theorem AreDigits.begins {ds : List Char} (h : AreDigits ds) (rest : List Char) :
    ∃ c r, ds ++ rest = c :: r ∧ isDigit c := by
  obtain ⟨d, ds, rfl⟩ := List.exists_cons_of_ne_nil h.1
  exact ⟨d, ds ++ rest, rfl, h.2 d List.mem_cons_self⟩

theorem of_finds_wholeDigits {atEnd : Failure} {cs ds rest : List Char}
    (h : Finds (wholeDigits atEnd cs) ds rest) :
    AreDigits ds ∧ (ds.head? = some '0' → ds.length = 1) ∧ cs = ds ++ rest := by
  obtain ⟨_, h⟩ := h
  obtain ⟨⟨es, r, hlt⟩, hds, h⟩ := bind_eq_ok_iff.mp h
  dsimp only at h
  split at h
  · cases h
  · rename_i hzero
    cases h
    obtain ⟨hdigits, hcs⟩ := of_finds_digits ⟨hlt, hds⟩
    refine ⟨hdigits, ?_, hcs⟩
    intro hhead
    by_cases hlen : ds.length = 1
    · exact hlen
    · exact absurd ⟨hhead, hlen⟩ hzero

/-! ## Fractions and exponents -/

section Parts

variable {atEnd : Failure} {cs rest : List Char}

theorem fractionAt_of_fractionPart {fraction : Option (List Char)}
    {h : rest.length ≤ cs.length} (e : fractionPart atEnd cs = .ok (fraction, ⟨rest, h⟩)) :
    FractionAt cs fraction rest := by
  unfold fractionPart at e
  split at e
  · obtain ⟨⟨ds, r, hlt⟩, hds, e⟩ := map_eq_ok_iff.mp e
    cases e
    obtain ⟨hdigits, rfl⟩ := of_finds_digits ⟨hlt, hds⟩
    exact .present hdigits r
  · cases e
    exact .absent _

theorem exponentAt_of_exponentPart {exponent : Option (Bool × List Char)}
    {h : rest.length ≤ cs.length} (e : exponentPart atEnd cs = .ok (exponent, ⟨rest, h⟩)) :
    ExponentAt cs exponent rest := by
  unfold exponentPart at e
  split at e
  · split at e
    · rename_i hc
      split at e
      all_goals
        obtain ⟨⟨ds, r, hlt⟩, hds, e⟩ := map_eq_ok_iff.mp e
        cases e
        obtain ⟨hdigits, rfl⟩ := of_finds_digits ⟨hlt, hds⟩
      · exact .positive hc hdigits r
      · exact .negative hc hdigits r
      · exact .unsigned hc hdigits r
    · cases e
      exact .absent _
  · cases e
    exact .absent _

/-! ### Ends -/

theorem AreDigits.finds {ds : List Char} (h : AreDigits ds)
    (hrest : ∀ c ∈ rest.head?, isDigit c = false) (atEnd : Failure) :
    Finds (digits atEnd (ds ++ rest)) ds rest :=
  digits_append h.1 h.2 hrest atEnd

theorem ExponentAt.head? {exponent : Option (Bool × List Char)} (h : ExponentAt cs exponent rest)
    (hrest : EndsNumeral rest) : ∀ c ∈ cs.head?, isDigit c = false ∧ c ≠ '.' := by
  cases h with
  | absent => exact fun c hc ↦ ⟨(hrest c hc).1, (hrest c hc).2.1⟩
  | unsigned he | positive he | negative he =>
    rintro _ ⟨⟩
    rcases he with rfl | rfl <;> decide

theorem FractionAt.head? {fraction : Option (List Char)} (h : FractionAt cs fraction rest)
    (hrest : ∀ c ∈ rest.head?, isDigit c = false) : ∀ c ∈ cs.head?, isDigit c = false := by
  cases h with
  | absent => exact hrest
  | present =>
    rintro _ ⟨⟩
    decide

theorem FractionAt.fractionPart_eq {fraction : Option (List Char)}
    (h : FractionAt cs fraction rest) (hrest : ∀ c ∈ rest.head?, isDigit c = false ∧ c ≠ '.')
    (atEnd : Failure) : ∃ hle, fractionPart atEnd cs = .ok (fraction, ⟨rest, hle⟩) := by
  cases h with
  | absent =>
    refine ⟨Nat.le_refl _, ?_⟩
    unfold fractionPart
    split
    · exact absurd rfl (hrest _ rfl).2
    · rfl
  | present hds =>
    obtain ⟨hlt, e⟩ := hds.finds (fun c hc ↦ (hrest c hc).1) atEnd
    exact ⟨Nat.le_succ_of_le (Nat.le_of_lt hlt), by rw [fractionPart, e]; rfl⟩

theorem ExponentAt.exponentPart_eq {exponent : Option (Bool × List Char)}
    (h : ExponentAt cs exponent rest) (hrest : EndsNumeral rest) (atEnd : Failure) :
    ∃ hle, exponentPart atEnd cs = .ok (exponent, ⟨rest, hle⟩) := by
  have hdigit : ∀ c ∈ rest.head?, isDigit c = false := fun c hc ↦ (hrest c hc).1
  cases h with
  | absent =>
    refine ⟨Nat.le_refl _, ?_⟩
    cases cs with
    | nil => rfl
    | cons c r => exact if_neg (by simp [(hrest c rfl).2.2])
  | @unsigned e ds he hds =>
    obtain ⟨hlt, heq⟩ := hds.finds hdigit atEnd
    refine ⟨Nat.le_succ_of_le (Nat.le_of_lt hlt), ?_⟩
    -- A digit is no sign.
    obtain ⟨c, r, hcr, hc⟩ := hds.begins rest
    rw [exponentPart, if_pos he, heq]
    · rfl
    · intro s hplus
      rw [hcr] at hplus
      obtain ⟨rfl, -⟩ := List.cons.inj hplus
      exact absurd hc (by decide)
    · intro s hminus
      rw [hcr] at hminus
      obtain ⟨rfl, -⟩ := List.cons.inj hminus
      exact absurd hc (by decide)
  | positive he hds =>
    obtain ⟨hlt, heq⟩ := hds.finds hdigit atEnd
    refine ⟨by simp only [List.length_cons]; omega, ?_⟩
    rw [exponentPart, if_pos he]
    dsimp only
    rw [heq]
    rfl
  | negative he hds =>
    obtain ⟨hlt, heq⟩ := hds.finds hdigit atEnd
    refine ⟨by simp only [List.length_cons]; omega, ?_⟩
    rw [exponentPart, if_pos he]
    dsimp only
    rw [heq]
    rfl

end Parts

/-! ## Whole numerals -/

section Numerals

variable {atEnd : Failure} {cs rest : List Char} {n : Numeral}

theorem numeralAt_of_finds (h : Finds (numeral atEnd cs) n rest) : NumeralAt cs n rest := by
  obtain ⟨_, h⟩ := h
  obtain ⟨⟨whole, r, hr⟩, hwhole, h⟩ := bind_eq_ok_iff.mp h
  obtain ⟨⟨fraction, r', hr'⟩, hfraction, h⟩ := bind_eq_ok_iff.mp h
  obtain ⟨⟨exponent, r'', hr''⟩, hexponent, h⟩ := bind_eq_ok_iff.mp h
  cases h
  obtain ⟨hdigits, hzero, rfl⟩ := of_finds_wholeDigits ⟨hr, hwhole⟩
  exact .mk hdigits hzero (fractionAt_of_fractionPart hfraction)
    (exponentAt_of_exponentPart hexponent)

theorem NumeralAt.finds (h : NumeralAt cs n rest) (hrest : EndsNumeral rest) (atEnd : Failure) :
    Finds (numeral atEnd cs) n rest := by
  obtain ⟨hwhole, hzero, hfraction, hexponent⟩ := h
  rename_i whole cs cs' fraction exponent
  have hcs' := hexponent.head? hrest
  have hcs := hfraction.head? fun c hc ↦ (hcs' c hc).1
  obtain ⟨hlt, e⟩ := hwhole.finds hcs atEnd
  obtain ⟨hle, e'⟩ := hfraction.fractionPart_eq hcs' atEnd
  obtain ⟨hle', e''⟩ := hexponent.exponentPart_eq hrest atEnd
  have hdigits : wholeDigits atEnd (whole ++ cs) = .ok (whole, ⟨cs, hlt⟩) := by
    rw [wholeDigits, e]
    exact if_neg fun h ↦ h.2 (hzero h.1)
  refine ⟨Nat.lt_of_le_of_lt hle' (Nat.lt_of_le_of_lt hle hlt), ?_⟩
  rw [numeral, hdigits]
  change (fractionPart atEnd cs >>= _) = _
  rw [e']
  change (exponentPart atEnd cs' >>= _) = _
  rw [e'']
  rfl

theorem leaves_skipNumeral (h : NumeralAt cs n rest) (hrest : EndsNumeral rest) :
    Leaves (skipNumeral cs) rest := by
  obtain ⟨hlt, e⟩ := h.finds hrest .malformed
  exact ⟨hlt, by rw [skipNumeral, e]; rfl⟩

theorem numeralAt_of_leaves (h : Leaves (skipNumeral cs) rest) : ∃ n, NumeralAt cs n rest := by
  obtain ⟨hlt, h⟩ := h
  obtain ⟨⟨n, r⟩, hn, h⟩ := map_eq_ok_iff.mp h
  cases h
  exact ⟨n, numeralAt_of_finds ⟨hlt, hn⟩⟩

/-- A number that is found is the value of a numeral, behind its sign if there is one. -/
theorem of_finds_number {v : Number} (h : Finds (number cs) v rest) :
    (∃ n, NumeralAt cs n rest ∧ n.value? false = some v) ∨
      ∃ n r, cs = '-' :: r ∧ NumeralAt r n rest ∧ n.value? true = some v := by
  obtain ⟨_, h⟩ := h
  unfold number at h
  split at h
  · obtain ⟨⟨n, r, hr⟩, hn, h⟩ := bind_eq_ok_iff.mp h
    dsimp only at h
    split at h
    · rename_i hv
      cases h
      exact .inr ⟨n, _, rfl, numeralAt_of_finds ⟨hr, hn⟩, hv⟩
    · cases h
  · obtain ⟨⟨n, r, hr⟩, hn, h⟩ := bind_eq_ok_iff.mp h
    dsimp only at h
    split at h
    · rename_i hv
      cases h
      exact .inl ⟨n, numeralAt_of_finds ⟨hr, hn⟩, hv⟩
    · cases h

end Numerals

/-! ## Counts -/

/-- If no digit is left aside, the whole number fits into 64 bits. -/
theorem of_gather_eq {ds : List Char} {significand k : Nat} (hsize : significand < UInt64.size)
    (h : gather significand ds = (k, 0)) :
    Nat.ofDigitChars 10 ds significand = k ∧ k < UInt64.size := by
  induction ds generalizing significand with
  | nil =>
    cases h
    exact ⟨by simp, hsize⟩
  | cons d ds ih =>
    have hnext : significand * 10 + digitValue d = 10 * significand + (d.toNat - '0'.toNat) := by
      rw [digitValue, Nat.mul_comm]
      rfl
    rw [gather] at h
    split at h
    · rename_i hfits
      rw [Nat.ofDigitChars_cons, ← hnext]
      exact ih hfits h
    · cases h

/-- A numeral denotes a count exactly if it is nothing but digits of a number of 64 bits. -/
theorem value?_eq_natural_iff {isNegative : Bool} {n : Numeral} {k : Nat} :
    n.value? isNegative = some (.natural k) ↔
      isNegative = false ∧ n.fraction = none ∧ n.exponent = none ∧
        Nat.ofDigitChars 10 n.whole 0 = k ∧ k < UInt64.size := by
  constructor
  · intro h
    generalize hg : gather 0 n.whole = g at h
    obtain ⟨significand, dropped⟩ := g
    rw [Numeral.value?, hg] at h
    dsimp only at h
    split at h
    · rename_i hcount
      cases h
      obtain ⟨hinteger, rfl, hsign⟩ := hcount
      rw [Bool.and_eq_true, Option.isNone_iff_eq_none, Option.isNone_iff_eq_none] at hinteger
      rw [Bool.not_eq_true'] at hsign
      exact ⟨hsign, hinteger.1, hinteger.2, of_gather_eq (by decide) hg⟩
    · split at h
      · cases h
      · obtain ⟨x, -, hx⟩ := Option.map_eq_some_iff.mp h
        cases hx
  · rintro ⟨rfl, hfraction, hexponent, rfl, hfits⟩
    have hg := gather_eq n.whole hfits
    rw [Numeral.value?, hg]
    exact if_pos (by simp [hfraction, hexponent])

end Conformance.Json
