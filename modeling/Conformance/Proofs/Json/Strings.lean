import Conformance.Proofs.Json.Grammar
import Conformance.Proofs.Text.Utf8
/-!
# Strings are read as the texts they spell

The spelling of a string is a row of code units, and reading it gives characters. Two texts with the
same code units are equal, so a spelling has at most one text; it has none if a surrogate stands
alone. Reading succeeds exactly on the spellings of texts, skipping on all spellings.

Code units are one for a character below `0x10000`, which is no surrogate, and otherwise a high
surrogate with a low one behind it. All facts about them are drawn from this one distinction.
-/

namespace Conformance.Json

/-- The code units are those of a text: every surrogate in them is half of a pair. -/
def WellPaired (us : List Nat) : Prop := ∃ s, us = units s

/-! ## Code units -/

theorem isHighSurrogate_iff {n : Nat} : isHighSurrogate n ↔ 0xD800 ≤ n ∧ n ≤ 0xDBFF := by
  simp [isHighSurrogate]

theorem isLowSurrogate_iff {n : Nat} : isLowSurrogate n ↔ 0xDC00 ≤ n ∧ n ≤ 0xDFFF := by
  simp [isLowSurrogate]

/-- A character is one code unit, which is no surrogate, or a pair of surrogates. -/
theorem unitsOf_cases (c : Char) :
    (¬ isHighSurrogate c.toNat ∧ ¬ isLowSurrogate c.toNat ∧ unitsOf c = [c.toNat]) ∨
    ∃ hi lo, isHighSurrogate hi ∧ isLowSurrogate lo ∧
      0x10000 + (hi - 0xD800) * 0x400 + (lo - 0xDC00) = c.toNat ∧ unitsOf c = [hi, lo] := by
  have hvalid : c.toNat < 0xD800 ∨ 0xDFFF < c.toNat ∧ c.toNat < 0x110000 := c.valid
  simp only [isHighSurrogate_iff, isLowSurrogate_iff]
  by_cases h : c.toNat < 0x10000
  · exact .inl ⟨by omega, by omega, if_pos h⟩
  · exact .inr ⟨_, _, by omega, by omega, by omega, if_neg h⟩

theorem unitsOf_ofNat {n : Nat} (hn : n < 0x10000) (hhigh : ¬ isHighSurrogate n)
    (hlow : ¬ isLowSurrogate n) : unitsOf (Char.ofNat n) = [n] := by
  rw [isHighSurrogate_iff] at hhigh
  rw [isLowSurrogate_iff] at hlow
  have hvalid : n.isValidChar := by
    rw [Nat.isValidChar]
    omega
  rw [unitsOf, Utf8.toNat_ofNat hvalid, if_pos hn]

theorem unitsOf_pair {hi lo : Nat} (hhigh : isHighSurrogate hi) (hlow : isLowSurrogate lo) :
    unitsOf (Char.ofNat (0x10000 + (hi - 0xD800) * 0x400 + (lo - 0xDC00))) = [hi, lo] := by
  rw [isHighSurrogate_iff] at hhigh
  rw [isLowSurrogate_iff] at hlow
  have hvalid : (0x10000 + (hi - 0xD800) * 0x400 + (lo - 0xDC00)).isValidChar := by
    rw [Nat.isValidChar]
    omega
  rw [unitsOf, Utf8.toNat_ofNat hvalid, if_neg (by omega), List.cons.injEq, List.cons.injEq]
  exact ⟨by omega, by omega, rfl⟩

theorem of_unitsOf_eq_one {c : Char} {n : Nat} (h : unitsOf c = [n]) :
    ¬ isHighSurrogate n ∧ ¬ isLowSurrogate n ∧ Char.ofNat n = c := by
  obtain ⟨hhigh, hlow, hc⟩ | ⟨hi, lo, -, -, -, hc⟩ := unitsOf_cases c <;> rw [hc] at h
  · obtain ⟨rfl, -⟩ := List.cons.inj h
    exact ⟨hhigh, hlow, Char.ofNat_toNat c⟩
  · exact absurd (List.cons.inj h).2 (List.cons_ne_nil _ _)

theorem of_unitsOf_eq_two {c : Char} {hi lo : Nat} (h : unitsOf c = [hi, lo]) :
    isHighSurrogate hi ∧ isLowSurrogate lo ∧
      Char.ofNat (0x10000 + (hi - 0xD800) * 0x400 + (lo - 0xDC00)) = c := by
  obtain ⟨-, -, hc⟩ | ⟨hi', lo', hhi, hlo, hvalue, hc⟩ := unitsOf_cases c <;> rw [hc] at h
  · exact absurd (List.cons.inj h).2.symm (List.cons_ne_nil _ _)
  · obtain ⟨rfl, htail⟩ := List.cons.inj h
    obtain ⟨rfl, -⟩ := List.cons.inj htail
    exact ⟨hhi, hlo, by rw [hvalue, Char.ofNat_toNat]⟩

theorem not_isLowSurrogate_of_high {n : Nat} (h : isHighSurrogate n) : ¬ isLowSurrogate n := by
  rw [isHighSurrogate_iff] at h
  rw [isLowSurrogate_iff]
  omega

/-- The first character of a text is known from the code units of the text. -/
theorem unitsOf_append_inj {c d : Char} {us vs : List Nat} (h : unitsOf c ++ us = unitsOf d ++ vs) :
    c = d ∧ us = vs := by
  rw [← Char.toNat_inj]
  obtain ⟨hhigh, -, hc⟩ | ⟨hi, lo, hhi, -, hvalue, hc⟩ := unitsOf_cases c <;>
  obtain ⟨hhigh', -, hd⟩ | ⟨hi', lo', hhi', -, hvalue', hd⟩ := unitsOf_cases d <;>
  rw [hc, hd] at h
  · obtain ⟨heq, rfl⟩ := List.cons.inj h
    exact ⟨heq, rfl⟩
  · rw [(List.cons.inj h).1] at hhigh
    exact absurd hhi' hhigh
  · rw [(List.cons.inj h).1] at hhi
    exact absurd hhi hhigh'
  · obtain ⟨rfl, htail⟩ := List.cons.inj h
    obtain ⟨rfl, rfl⟩ := List.cons.inj htail
    exact ⟨hvalue.symm.trans hvalue', rfl⟩

theorem unitsOf_append_ne_nil (c : Char) (us : List Nat) : unitsOf c ++ us ≠ [] := by
  obtain ⟨-, -, hc⟩ | ⟨hi, lo, -, -, -, hc⟩ := unitsOf_cases c <;> rw [hc] <;>
    exact List.cons_ne_nil _ _

theorem units_cons (c : Char) (s : List Char) : units (c :: s) = unitsOf c ++ units s :=
  List.flatMap_cons

theorem units_inj {s t : List Char} (h : units s = units t) : s = t := by
  induction s generalizing t with
  | nil =>
    cases t with
    | nil => rfl
    | cons d t => exact absurd h.symm (unitsOf_append_ne_nil d (units t))
  | cons c s ih =>
    cases t with
    | nil => exact absurd h (unitsOf_append_ne_nil c (units s))
    | cons d t =>
      rw [units_cons, units_cons] at h
      obtain ⟨rfl, htail⟩ := unitsOf_append_inj h
      rw [ih htail]

/-- No character begins with a low surrogate. -/
theorem unitsOf_append_ne_low {c : Char} {us vs : List Nat} {lo : Nat} (hlow : isLowSurrogate lo) :
    unitsOf c ++ us ≠ lo :: vs := by
  intro h
  obtain ⟨-, hnot, hc⟩ | ⟨hi, lo', hhi, -, -, hc⟩ := unitsOf_cases c <;> rw [hc] at h <;>
    obtain ⟨rfl, -⟩ := List.cons.inj h
  · exact hnot hlow
  · rw [isHighSurrogate_iff] at hhi
    rw [isLowSurrogate_iff] at hlow
    omega

/-- The code units of a text begin with those of its first character, one or two. -/
theorem units_eq_cons {n : Nat} {us : List Nat} {s : List Char} (h : n :: us = units s) :
    ∃ c s', s = c :: s' ∧ (unitsOf c = [n] ∧ us = units s' ∨
      ∃ lo, unitsOf c = [n, lo] ∧ us = lo :: units s') := by
  cases s with
  | nil => exact absurd h (List.cons_ne_nil _ _)
  | cons c s =>
    refine ⟨c, s, rfl, ?_⟩
    rw [units_cons] at h
    obtain ⟨-, -, hc⟩ | ⟨hi, lo, -, -, -, hc⟩ := unitsOf_cases c <;> rw [hc] at h ⊢ <;>
      obtain ⟨rfl, rfl⟩ := List.cons.inj h
    · exact .inl ⟨rfl, rfl⟩
    · exact .inr ⟨lo, rfl, rfl⟩

/-! ## Escapes -/

theorem hexDigit?_lt {c : Char} {n : Nat} (h : hexDigit? c = some n) : n < 16 := by
  have hle : ∀ d : Char, c ≤ d → c.toNat ≤ d.toNat := fun d hcd ↦ UInt32.le_iff_toNat_le.mp hcd
  unfold hexDigit? at h
  split at h
  · rename_i hrange
    cases h
    have := hle '9' hrange.2
    simp at this
    omega
  · split at h
    · rename_i hrange
      cases h
      have := hle 'f' hrange.2
      simp at this
      omega
    · split at h
      · rename_i hrange
        cases h
        have := hle 'F' hrange.2
        simp at this
        omega
      · cases h

theorem Hex4.lt {cs rest : List Char} {n : Nat} (h : Hex4 cs n rest) : n < 0x10000 := by
  obtain ⟨ha, hb, hc, hd⟩ := h
  have := hexDigit?_lt ha
  have := hexDigit?_lt hb
  have := hexDigit?_lt hc
  have := hexDigit?_lt hd
  omega

theorem Hex4.length_lt {cs rest : List Char} {n : Nat} (h : Hex4 cs n rest) :
    rest.length < cs.length := by
  obtain ⟨⟩ := h
  simp only [List.length_cons]
  omega

theorem finds_hex4_iff {cs rest : List Char} {n : Nat} :
    Finds (hex4 cs) n rest ↔ Hex4 cs n rest := by
  constructor
  · rintro ⟨hlt, h⟩
    unfold hex4 at h
    split at h
    · split at h
      · rename_i ha hb hc hd
        cases h
        exact .mk ha hb hc hd _
      · cases h
    · split at h <;> cases h
  · rintro ⟨ha, hb, hc, hd⟩
    exact hex4_digits ha hb hc hd rest

theorem finds_lowSurrogate_iff {cs rest : List Char} {n : Nat} :
    Finds (lowSurrogate cs) n rest ↔
      isLowSurrogate n ∧ ∃ r, cs = '\\' :: 'u' :: r ∧ Hex4 r n rest := by
  constructor
  · rintro ⟨hlt, h⟩
    unfold lowSurrogate at h
    split at h
    · cases h
    · cases h
    · rename_i r
      obtain ⟨⟨m, r'⟩, hhex, h⟩ := bind_eq_ok_iff.mp h
      dsimp only at h
      split at h
      · rename_i hlow
        cases h
        exact ⟨hlow, r, rfl, finds_hex4_iff.mp ⟨r'.2, hhex⟩⟩
      · cases h
    · cases h
  · rintro ⟨hlow, r, rfl, hhex⟩
    obtain ⟨hlt, e⟩ := finds_hex4_iff.mpr hhex
    refine ⟨Nat.lt_succ_of_lt (Nat.lt_succ_of_lt hlt), ?_⟩
    rw [lowSurrogate, e]
    exact if_pos hlow

/-- A numeric escape is read as the character that has its code units. -/
theorem finds_numericEscape_iff {cs rest : List Char} {c : Char} :
    Finds (numericEscape cs) c rest ↔
      (∃ n, Hex4 cs n rest ∧ unitsOf c = [n]) ∨
      ∃ hi lo r, Hex4 cs hi ('\\' :: 'u' :: r) ∧ Hex4 r lo rest ∧ unitsOf c = [hi, lo] := by
  constructor
  · rintro ⟨hlt, h⟩
    obtain ⟨⟨n, r⟩, hhex, h⟩ := bind_eq_ok_iff.mp h
    have hn : Hex4 cs n r.1 := finds_hex4_iff.mp ⟨r.2, hhex⟩
    dsimp only at h
    split at h
    · cases h
    · rename_i hlow
      split at h
      · rename_i hhigh
        obtain ⟨⟨m, r'⟩, hsecond, h⟩ := bind_eq_ok_iff.mp h
        obtain ⟨hm, r'', hr, hhex'⟩ := finds_lowSurrogate_iff.mp ⟨r'.2, hsecond⟩
        obtain ⟨hc, hrest⟩ := Prod.mk.inj (Except.ok.inj h)
        have hrest' : r'.1 = rest := congrArg Subtype.val hrest
        exact .inr ⟨n, m, r'', hr ▸ hn, hrest' ▸ hhex', by rw [← hc, unitsOf_pair hhigh hm]⟩
      · rename_i hhigh
        obtain ⟨hc, hrest⟩ := Prod.mk.inj (Except.ok.inj h)
        have hrest' : r.1 = rest := congrArg Subtype.val hrest
        exact .inl ⟨n, hrest' ▸ hn, by rw [← hc, unitsOf_ofNat hn.lt hhigh hlow]⟩
  · rintro (⟨n, hn, hc⟩ | ⟨hi, lo, r, hhi, hlo, hc⟩)
    · obtain ⟨hhigh, hlow, hvalue⟩ := of_unitsOf_eq_one hc
      obtain ⟨hlt, e⟩ := finds_hex4_iff.mpr hn
      refine ⟨hlt, ?_⟩
      rw [numericEscape, e]
      change (if isLowSurrogate n then _ else _) = _
      rw [if_neg hlow, if_neg hhigh, hvalue]
    · obtain ⟨hhigh, hlow, hvalue⟩ := of_unitsOf_eq_two hc
      obtain ⟨hlt, e⟩ := finds_hex4_iff.mpr hhi
      obtain ⟨hlt', e'⟩ := finds_lowSurrogate_iff.mpr ⟨hlow, r, rfl, hlo⟩
      refine ⟨Nat.lt_trans hlt' hlt, ?_⟩
      rw [numericEscape, e]
      change (if isLowSurrogate hi then _ else _) = _
      rw [if_neg (not_isLowSurrogate_of_high hhigh), if_pos hhigh]
      change (lowSurrogate ('\\' :: 'u' :: r) >>= _) = _
      rw [e', bind_eq_ok_iff]
      exact ⟨_, rfl, by dsimp only; rw [hvalue]; rfl⟩

theorem finds_escape_iff {cs rest : List Char} {x : Char} :
    Finds (escape cs) x rest ↔
      (∃ c, cs = c :: rest ∧ shortEscape? c = some x) ∨
      ∃ r, cs = 'u' :: r ∧ Finds (numericEscape r) x rest := by
  constructor
  · rintro ⟨hlt, h⟩
    unfold escape at h
    split at h
    · cases h
    · rename_i c r
      split at h
      · rename_i hshort
        cases h
        exact .inl ⟨c, rfl, hshort⟩
      · split at h
        · rename_i hu
          obtain ⟨⟨y, r'⟩, hnum, h⟩ := map_eq_ok_iff.mp h
          cases h
          exact .inr ⟨r, by rw [hu], r'.2, hnum⟩
        · cases h
  · rintro (⟨c, rfl, hshort⟩ | ⟨r, rfl, hlt, e⟩)
    · exact escape_short hshort rest
    · have hshort : shortEscape? 'u' = none := by decide
      refine ⟨Nat.lt_succ_of_lt hlt, ?_⟩
      simp only [escape, hshort]
      rw [if_pos trivial, e]
      rfl

/-! ## Whole strings -/

/-- An escape spells the code units of the character that it is read as. -/
theorem Body.escape {cs r rest : List Char} {x : Char} {us : List Nat}
    (hx : Finds (Json.escape cs) x r) (h : Body r us rest) :
    Body ('\\' :: cs) (unitsOf x ++ us) rest := by
  obtain ⟨c, rfl, hshort⟩ | ⟨s, rfl, hnum⟩ := finds_escape_iff.mp hx
  · exact .short hshort h
  · obtain ⟨n, hn, hx⟩ | ⟨hi, lo, t, hhi, hlo, hx⟩ := finds_numericEscape_iff.mp hnum <;> rw [hx]
    · exact .numeric hn h
    · exact .numeric hhi (.numeric hlo h)

/-- A string that is read is a spelling of the text found. -/
theorem body_of_finds {cs s rest : List Char} (h : Finds (stringBody cs) s rest) :
    Body cs (units s) rest := by
  induction cs using stringBody.induct generalizing s with
  | case1 =>
    obtain ⟨_, h⟩ := h
    rw [stringBody] at h
    cases h
  | case2 r =>
    obtain ⟨_, h⟩ := h
    rw [stringBody, if_pos rfl] at h
    cases h
    exact .close _
  | case3 r hc ih =>
    obtain ⟨_, h⟩ := h
    rw [stringBody, if_neg hc, if_pos rfl] at h
    obtain ⟨⟨x, r'⟩, hx, h⟩ := bind_eq_ok_iff.mp h
    obtain ⟨⟨s', r''⟩, hs', h⟩ := bind_eq_ok_iff.mp h
    cases h
    rw [units_cons]
    exact .escape ⟨r'.2, hx⟩ (ih r' ⟨r''.2, hs'⟩)
  | case4 c r hc hb hcontrol =>
    obtain ⟨_, h⟩ := h
    rw [stringBody, if_neg hc, if_neg hb, if_pos hcontrol] at h
    cases h
  | case5 c r hc hb hcontrol ih =>
    obtain ⟨_, h⟩ := h
    rw [stringBody, if_neg hc, if_neg hb, if_neg hcontrol] at h
    obtain ⟨⟨s', r'⟩, hs', h⟩ := bind_eq_ok_iff.mp h
    cases h
    rw [units_cons]
    exact .plain hc hb (Nat.le_of_not_lt hcontrol) (ih ⟨r'.2, hs'⟩)

/-- What goes on with a low surrogate goes on with an escape of it. -/
theorem Body.of_low {cs rest : List Char} {lo : Nat} {us : List Nat}
    (h : Body cs (lo :: us) rest) (hlow : isLowSurrogate lo) :
    ∃ r r', cs = '\\' :: 'u' :: r ∧ Hex4 r lo r' ∧ Body r' us rest := by
  generalize hvs : lo :: us = vs at h
  cases h with
  | close => cases hvs
  | plain => exact absurd hvs.symm (unitsOf_append_ne_low hlow)
  | short => exact absurd hvs.symm (unitsOf_append_ne_low hlow)
  | numeric hn h =>
    cases hvs
    exact ⟨_, _, rfl, hn, h⟩

/-- The spelling of a text is read as the text. -/
theorem finds_of_body {cs s rest : List Char} (h : Body cs (units s) rest) :
    Finds (stringBody cs) s rest := by
  -- A pair of surrogates takes two escapes at once, so the induction is on the length.
  induction hlen : cs.length using Nat.strongRecOn generalizing cs s with
  | ind len ih =>
    subst hlen
    generalize hus : units s = us at h
    cases h with
    | close =>
      have hnil : s = [] := units_inj hus
      exact hnil ▸ stringBody_quote rest
    | @plain c r rest us hc hb hcontrol h =>
      cases s with
      | nil => exact absurd hus.symm (unitsOf_append_ne_nil c us)
      | cons d s =>
        obtain ⟨rfl, rfl⟩ := unitsOf_append_inj hus
        exact stringBody_plain hc hb (Nat.not_lt_of_le hcontrol)
          (ih _ (Nat.lt_succ_self _) h rfl)
    | @short c x r rest us hx h =>
      cases s with
      | nil => exact absurd hus.symm (unitsOf_append_ne_nil x us)
      | cons d s =>
        obtain ⟨rfl, rfl⟩ := unitsOf_append_inj hus
        exact stringBody_escape (escape_short hx r)
          (ih _ (by simp only [List.length_cons]; omega) h rfl)
    | @numeric n r r' rest us hn h =>
      have hr := hn.length_lt
      obtain ⟨c, s, rfl, ⟨hc, rfl⟩ | ⟨lo, hc, rfl⟩⟩ := units_eq_cons hus.symm
      · exact stringBody_escape
          (finds_escape_iff.mpr (.inr ⟨r, rfl, finds_numericEscape_iff.mpr
            (.inl ⟨n, hn, hc⟩)⟩))
          (ih _ (by simp only [List.length_cons]; omega) h rfl)
      · obtain ⟨t, t', rfl, ht, h⟩ := h.of_low (of_unitsOf_eq_two hc).2.1
        have ht' := ht.length_lt
        simp only [List.length_cons] at hr
        exact stringBody_escape
          (finds_escape_iff.mpr (.inr ⟨r, rfl, finds_numericEscape_iff.mpr
            (.inr ⟨n, lo, t, hn, ht, hc⟩)⟩))
          (ih _ (by simp only [List.length_cons]; omega) h rfl)

/-! ## Strings that are skipped -/

theorem leaves_skipEscape_iff {cs rest : List Char} :
    Leaves (skipEscape cs) rest ↔
      (∃ c x, cs = c :: rest ∧ shortEscape? c = some x) ∨
      ∃ n r, cs = 'u' :: r ∧ Hex4 r n rest := by
  constructor
  · rintro ⟨hlt, h⟩
    unfold skipEscape at h
    split at h
    · cases h
    · rename_i c r
      split at h
      · rename_i hshort
        obtain ⟨x, hx⟩ := Option.isSome_iff_exists.mp hshort
        cases h
        exact .inl ⟨c, x, rfl, hx⟩
      · split at h
        · rename_i hu
          obtain ⟨⟨n, r'⟩, hhex, h⟩ := map_eq_ok_iff.mp h
          cases h
          exact .inr ⟨n, r, by rw [hu], finds_hex4_iff.mp ⟨r'.2, hhex⟩⟩
        · cases h
  · rintro (⟨c, x, rfl, hx⟩ | ⟨n, r, rfl, hn⟩)
    · exact ⟨Nat.lt_succ_self _, if_pos (by rw [hx]; rfl)⟩
    · obtain ⟨hlt, e⟩ := finds_hex4_iff.mpr hn
      refine ⟨Nat.lt_succ_of_lt hlt, ?_⟩
      rw [skipEscape, if_neg (by decide), if_pos rfl, e]
      rfl

theorem Body.of_skipEscape {cs r rest : List Char} {us : List Nat} (h : Body r us rest)
    (hr : Leaves (skipEscape cs) r) : ∃ vs, Body ('\\' :: cs) vs rest := by
  obtain ⟨c, x, rfl, hx⟩ | ⟨n, s, rfl, hn⟩ := leaves_skipEscape_iff.mp hr
  · exact ⟨_, .short hx h⟩
  · exact ⟨_, .numeric hn h⟩

/-- The spelling of a string is skipped, and nothing else is. -/
theorem leaves_skipString_iff {cs rest : List Char} :
    Leaves (skipString cs) rest ↔ ∃ us, Body cs us rest := by
  constructor
  · intro h
    induction cs using skipString.induct with
    | case1 =>
      obtain ⟨_, h⟩ := h
      rw [skipString] at h
      cases h
    | case2 r =>
      obtain ⟨_, h⟩ := h
      rw [skipString, if_pos rfl] at h
      cases h
      exact ⟨[], .close _⟩
    | case3 r hc ih =>
      obtain ⟨_, h⟩ := h
      rw [skipString, if_neg hc, if_pos rfl] at h
      obtain ⟨r', hr', h⟩ := bind_eq_ok_iff.mp h
      obtain ⟨r'', hr'', h⟩ := bind_eq_ok_iff.mp h
      cases h
      obtain ⟨us, hus⟩ := ih r' ⟨r''.2, hr''⟩
      exact hus.of_skipEscape ⟨r'.2, hr'⟩
    | case4 c r hc hb hcontrol =>
      obtain ⟨_, h⟩ := h
      rw [skipString, if_neg hc, if_neg hb, if_pos hcontrol] at h
      cases h
    | case5 c r hc hb hcontrol ih =>
      obtain ⟨_, h⟩ := h
      rw [skipString, if_neg hc, if_neg hb, if_neg hcontrol] at h
      obtain ⟨r', hr', h⟩ := bind_eq_ok_iff.mp h
      cases h
      obtain ⟨us, hus⟩ := ih ⟨r'.2, hr'⟩
      exact ⟨_, .plain hc hb (Nat.le_of_not_lt hcontrol) hus⟩
  · rintro ⟨us, h⟩
    have hescape : ∀ {r r' : List Char}, Leaves (skipEscape r) r' → Leaves (skipString r') rest →
        Leaves (skipString ('\\' :: r)) rest := by
      rintro r r' ⟨hlt, e⟩ ⟨hlt', e'⟩
      refine ⟨Nat.lt_succ_of_lt (Nat.lt_trans hlt' hlt), ?_⟩
      rw [skipString, if_neg (by decide), if_pos rfl, e]
      change (skipString r' >>= _) = _
      rw [e']
      rfl
    induction h with
    | close rest => exact ⟨Nat.lt_succ_self _, by rw [skipString, if_pos rfl]; rfl⟩
    | plain hc hb hcontrol h ih =>
      obtain ⟨hlt, e⟩ := ih hescape
      refine ⟨Nat.lt_succ_of_lt hlt, ?_⟩
      rw [skipString, if_neg hc, if_neg hb, if_neg (Nat.not_lt_of_le hcontrol), e]
      rfl
    | short hx h ih =>
      exact hescape (leaves_skipEscape_iff.mpr (.inl ⟨_, _, rfl, hx⟩)) (ih hescape)
    | numeric hn h ih =>
      exact hescape (leaves_skipEscape_iff.mpr (.inr ⟨_, _, rfl, hn⟩)) (ih hescape)

end Conformance.Json
