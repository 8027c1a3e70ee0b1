import Mathlib.Algebra.Group.Nat.Defs
import Conformance.Yaml.Quoted
import Conformance.Proofs.Yaml.Cursor
/-!
# Texts between double quotes

Any text can be written between double quotes on one line: a quote and a backslash behind a
backslash, every other printable character as it is, and any character at all by the hexadecimal
digits of its code. Whatever the text looks like, it is read back.

A quoted scalar is read word by word with the blanks between the words. A run of spaces that is
written as it is ends a word, while an escaped space does not; so the words of the spelling need not
be those of the text.
-/

namespace Conformance.Yaml

/-! ## Spellings -/

/-- A hexadecimal digit of the number `d`, in either case. -/
def IsHexDigit (c : Char) (d : Nat) : Prop :=
  d < 16 ∧ (c = Nat.digitChar d ∨ c = (Nat.digitChar d).toUpper)

/-- Hexadecimal digits of a number, with any number of zeros in front. -/
inductive HexDigits : List Char → Nat → Prop where
  | nil : HexDigits [] 0
  | snoc {ds : List Char} {n d : Nat} {c : Char} (h : HexDigits ds n) (hc : IsHexDigit c d) :
    HexDigits (ds ++ [c]) (16 * n + d)

/-- A spelling of one character between double quotes. -/
inductive SpellsChar : Char → List Char → Prop where
  | plain {c : Char} (h : IsPrintable c) (hquote : c ≠ '"') (hbackslash : c ≠ '\\') :
    SpellsChar c [c]
  | quote : SpellsChar '"' ['\\', '"']
  | backslash : SpellsChar '\\' ['\\', '\\']
  | byte {c : Char} {ds : List Char} (hlen : ds.length = 2) (h : HexDigits ds c.toNat) :
    SpellsChar c ('\\' :: 'x' :: ds)
  | short {c : Char} {ds : List Char} (hlen : ds.length = 4) (h : HexDigits ds c.toNat) :
    SpellsChar c ('\\' :: 'u' :: ds)
  | long {c : Char} {ds : List Char} (hlen : ds.length = 8) (h : HexDigits ds c.toNat) :
    SpellsChar c ('\\' :: 'U' :: ds)

/-- A spelling of a text between double quotes. -/
inductive Spells : List Char → List Char → Prop where
  | nil : Spells [] []
  | cons {c : Char} {s cs body : List Char} (hc : SpellsChar c cs) (h : Spells s body) :
    Spells (c :: s) (cs ++ body)

/-! ## Every text has a spelling -/

theorem exists_hexDigits (width : Nat) {n : Nat} (h : n < 16 ^ width) :
    ∃ ds, ds.length = width ∧ HexDigits ds n := by
  induction width generalizing n with
  | zero =>
    obtain rfl : n = 0 := by simpa using h
    exact ⟨[], rfl, .nil⟩
  | succ width ih =>
    obtain ⟨ds, hlen, hds⟩ := ih (n := n / 16) (by rw [Nat.pow_succ] at h; omega)
    have hdigit : IsHexDigit (Nat.digitChar (n % 16)) (n % 16) :=
      ⟨Nat.mod_lt _ (by decide), .inl rfl⟩
    have hn := HexDigits.snoc hds hdigit
    rw [Nat.div_add_mod] at hn
    exact ⟨ds ++ [Nat.digitChar (n % 16)], by simp [hlen], hn⟩

theorem exists_spellsChar (c : Char) : ∃ cs, SpellsChar c cs := by
  have hvalid : c.toNat < 16 ^ 8 := by
    have h : c.toNat < 0xD800 ∨ 0xDFFF < c.toNat ∧ c.toNat < 0x110000 := c.valid
    omega
  obtain ⟨ds, hlen, hds⟩ := exists_hexDigits 8 hvalid
  exact ⟨_, .long hlen hds⟩

theorem exists_spells (s : List Char) : ∃ body, Spells s body := by
  induction s with
  | nil => exact ⟨[], .nil⟩
  | cons c s ih =>
    obtain ⟨cs, hcs⟩ := exists_spellsChar c
    obtain ⟨body, hbody⟩ := ih
    exact ⟨cs ++ body, .cons hcs hbody⟩

theorem spellsChar_cases {c : Char} {cs : List Char} (h : SpellsChar c cs) :
    cs = [c] ∧ IsPrintable c ∧ c ≠ '"' ∧ c ≠ '\\' ∨ ∃ ds, cs = '\\' :: ds := by
  cases h with
  | plain h hquote hbackslash => exact .inl ⟨rfl, h, hquote, hbackslash⟩
  | _ => exact .inr ⟨_, rfl⟩

theorem HexDigits.isPrintable {ds : List Char} {n : Nat} (h : HexDigits ds n) :
    ∀ c ∈ ds, IsPrintable c := by
  have hall : ∀ d, d < 16 →
      IsPrintable (Nat.digitChar d) ∧ IsPrintable (Nat.digitChar d).toUpper := by
    decide
  induction h with
  | nil => exact List.forall_mem_nil _
  | snoc _ hc ih =>
    rw [List.forall_mem_append, List.forall_mem_singleton]
    refine ⟨ih, ?_⟩
    obtain ⟨hd, rfl | rfl⟩ := hc
    · exact (hall _ hd).1
    · exact (hall _ hd).2

theorem SpellsChar.isPrintable {c : Char} {cs : List Char} (h : SpellsChar c cs) :
    ∀ d ∈ cs, IsPrintable d := by
  cases h with
  | plain h => exact List.forall_mem_singleton.mpr h
  | quote | backslash =>
    exact List.forall_mem_cons.mpr ⟨by decide, List.forall_mem_singleton.mpr (by decide)⟩
  | byte _ h | short _ h | long _ h =>
    exact List.forall_mem_cons.mpr ⟨by decide, List.forall_mem_cons.mpr ⟨by decide, h.isPrintable⟩⟩

theorem Spells.isPrintable {s body : List Char} (h : Spells s body) :
    ∀ c ∈ body, IsPrintable c := by
  induction h with
  | nil => exact List.forall_mem_nil _
  | cons hc _ ih => exact List.forall_mem_append.mpr ⟨hc.isPrintable, ih⟩

theorem Spells.length_le {s body : List Char} (h : Spells s body) : s.length ≤ body.length := by
  induction h with
  | nil => exact Nat.le_refl 0
  | cons hc _ ih =>
    obtain ⟨rfl, -⟩ | ⟨ds, rfl⟩ := spellsChar_cases hc <;>
      simp only [List.length_append, List.length_cons, List.length_nil] <;> omega

/-! ## Escapes are read back -/

theorem hexDigit?_of_isHexDigit {c : Char} {d : Nat} (h : IsHexDigit c d) :
    Json.hexDigit? c = some d := by
  have hall : ∀ d, d < 16 → Json.hexDigit? (Nat.digitChar d) = some d ∧
      Json.hexDigit? (Nat.digitChar d).toUpper = some d := by decide
  obtain ⟨hd, rfl | rfl⟩ := h
  · exact (hall d hd).1
  · exact (hall d hd).2

theorem HexDigits.foldlM_eq {ds : List Char} {n : Nat} (h : HexDigits ds n) :
    ds.foldlM (fun value c ↦ (Json.hexDigit? c).map (16 * value + ·)) 0 = some n := by
  induction h with
  | nil => rfl
  | snoc _ hc ih =>
    rw [List.foldlM_append, ih]
    simp [hexDigit?_of_isHexDigit hc]

namespace Quoted

theorem hexNumber_append {ds r : List Char} {n width : Nat} (hlen : ds.length = width)
    (h : HexDigits ds n) : hexNumber width (ds ++ r) = some n := by
  rw [hexNumber, ← hlen, List.take_left, if_pos rfl, h.foldlM_eq]

theorem escape?_code {x c : Char} {ds r : List Char} {width : Nat} (hx : letterEscape? x = none)
    (hwidth : codeWidth? x = some width) (hlen : ds.length = width) (h : HexDigits ds c.toNat) :
    escape? (x :: (ds ++ r)) = some (c, width + 1) := by
  have hvalid : c.toNat.isValidChar := c.valid
  have hchar := Char.ofNat_toNat c
  rw [Char.ofNat, dif_pos hvalid] at hchar
  rw [escape?, hx]
  dsimp only
  rw [hwidth, Option.bind_eq_bind, Option.bind_some, hexNumber_append hlen h,
    Option.bind_some, dif_pos hvalid, hchar]

/-- The escapes of a character: what stands behind the backslash is read as the character. -/
theorem escape?_of_spellsChar {c : Char} {cs : List Char} (h : SpellsChar c ('\\' :: cs))
    (r : List Char) :
    (cs ++ r).head?.any isBreak = false ∧ escape? (cs ++ r) = some (c, cs.length) := by
  generalize hcs : '\\' :: cs = chars at h
  cases h with
  | plain _ _ hbackslash => exact absurd (List.cons.inj hcs).1.symm hbackslash
  | quote | backslash =>
    cases hcs
    exact ⟨rfl, rfl⟩
  | byte hlen h | short hlen h | long hlen h =>
    cases hcs
    refine ⟨rfl, ?_⟩
    rw [List.cons_append, escape?_code (by decide) rfl hlen h, List.length_cons, hlen]

/-! ## Words -/

theorem doubleWord_plain {c : Char} (hc : isSpace c = false) (hquote : c ≠ '"')
    (hbackslash : c ≠ '\\') (fuel : Nat) (r : List Char) (m : Mark) :
    doubleWord (fuel + 1) ⟨c :: r, m⟩
      = (doubleWord fuel ⟨r, m.advance 1⟩).map fun (w, stop, d) ↦ (c :: w, stop, d) := by
  rw [doubleWord]
  dsimp only
  rw [if_neg (by simpa using hquote), if_neg (by simp [hc]), if_neg (by simpa using hbackslash)]
  change (doubleWord fuel ⟨r, m.advance 1⟩ >>= _) = _
  cases doubleWord fuel ⟨r, m.advance 1⟩ <;> rfl

theorem doubleWord_escape {c : Char} {ds : List Char} (h : SpellsChar c ('\\' :: ds)) (fuel : Nat)
    (r : List Char) (m : Mark) :
    doubleWord (fuel + 1) ⟨'\\' :: (ds ++ r), m⟩
      = (doubleWord fuel ⟨r, m.advance (ds.length + 1)⟩).map
          fun (w, stop, d) ↦ (c :: w, stop, d) := by
  obtain ⟨hbreak, hescape⟩ := escape?_of_spellsChar h r
  rw [doubleWord]
  dsimp only
  rw [if_neg (by decide), if_neg (by decide), if_pos (by decide),
    if_neg (by rw [hbreak]; decide), hescape]
  have hadvance : Cursor.advance ⟨'\\' :: (ds ++ r), m⟩ (ds.length + 1)
      = ⟨r, m.advance (ds.length + 1)⟩ := by
    simp [Cursor.advance]
  change (doubleWord fuel (Cursor.advance ⟨'\\' :: (ds ++ r), m⟩ (ds.length + 1)) >>= _) = _
  rw [hadvance]
  cases doubleWord fuel ⟨r, m.advance (ds.length + 1)⟩ <;> rfl

/-- A word ends at the closing quote or at a space that is written as it is. The rest of the text is
spelled behind it. -/
theorem exists_doubleWord {s body : List Char} (h : Spells s body) (r : List Char) :
    ∃ w s' body' stop k, s = w ++ s' ∧ Spells s' body' ∧
      (s' = [] ∨ ∃ s'' body'', s' = ' ' :: s'' ∧ body' = ' ' :: body'') ∧ stop ≠ .joinedLine ∧
      ∀ m fuel, body.length < fuel → doubleWord fuel ⟨body ++ '"' :: r, m⟩
        = some (w, stop, ⟨body' ++ '"' :: r, m.advance k⟩) := by
  induction h with
  | nil =>
    refine ⟨[], [], [], .quote, 0, rfl, .nil, .inl rfl, by decide, fun m fuel hfuel ↦ ?_⟩
    obtain ⟨fuel, rfl⟩ := Nat.exists_eq_add_of_lt hfuel
    rfl
  | @cons c s cs body hc h ih =>
    obtain ⟨w, s', body', stop, k, rfl, hs', hend, hstop, hword⟩ := ih
    obtain ⟨rfl, hprintable, hquote, hbackslash⟩ | ⟨ds, rfl⟩ := spellsChar_cases hc
    · by_cases hspace : c = ' '
      · subst hspace
        refine ⟨[], _, _, .space, 0, rfl, .cons hc h, .inr ⟨_, _, rfl, rfl⟩, by decide, ?_⟩
        intro m fuel hfuel
        obtain ⟨fuel, rfl⟩ := Nat.exists_eq_add_of_lt hfuel
        rfl
      · refine ⟨c :: w, s', body', stop, 1 + k, rfl, hs', hend, hstop, fun m fuel hfuel ↦ ?_⟩
        rw [List.length_append] at hfuel
        obtain ⟨fuel, rfl⟩ := Nat.exists_eq_add_of_lt hfuel
        rw [List.append_assoc, List.singleton_append,
          doubleWord_plain (isSpace_of_isPrintable hprintable hspace) hquote hbackslash,
          hword _ _ (by simp; omega), Mark.advance_advance]
        rfl
    · refine ⟨c :: w, s', body', stop, ds.length + 1 + k, rfl, hs', hend, hstop,
        fun m fuel hfuel ↦ ?_⟩
      rw [List.length_append] at hfuel
      obtain ⟨fuel, rfl⟩ := Nat.exists_eq_add_of_lt hfuel
      rw [List.append_assoc, List.cons_append, doubleWord_escape hc,
        hword _ _ (by simp; omega), Mark.advance_advance]
      rfl

/-! ## Gaps -/

/-- The spaces that a spelling begins with are read as a gap; what comes behind them is spelled by
the rest. -/
theorem exists_gap {s body : List Char} (h : Spells s body) (r : List Char) :
    ∃ n s' body', s = List.replicate n ' ' ++ s' ∧ Spells s' body' ∧
      (∀ s'' body'', s = ' ' :: s'' → body = ' ' :: body'' → 0 < n) ∧
      ∀ m gap, Gap.scan 0 (.blanks gap) m (body ++ '"' :: r)
        = some (.blanks (gap ++ List.replicate n ' '), ⟨body' ++ '"' :: r, m.advance n⟩) := by
  induction h with
  | nil =>
    refine ⟨0, [], [], rfl, .nil, nofun, fun m gap ↦ ?_⟩
    rw [List.replicate_zero, List.append_nil]
    exact Gap.scan_stop (by decide) 0 _ m r
  | @cons c s cs body hc h ih =>
    -- Whatever is no plain space ends the gap.
    have hstop : ∀ d ds, cs = d :: ds → isSpace d = false →
        ∃ n s' body', c :: s = List.replicate n ' ' ++ s' ∧ Spells s' body' ∧
          (∀ s'' body'', c :: s = ' ' :: s'' → cs ++ body = ' ' :: body'' → 0 < n) ∧
          ∀ m gap, Gap.scan 0 (.blanks gap) m (cs ++ body ++ '"' :: r)
            = some (.blanks (gap ++ List.replicate n ' '), ⟨body' ++ '"' :: r, m.advance n⟩) := by
      rintro d ds rfl hd
      refine ⟨0, _, _, rfl, .cons hc h, fun s'' body'' _ hbody ↦ ?_, fun m gap ↦ ?_⟩
      · obtain ⟨rfl, -⟩ := List.cons.inj hbody
        exact absurd hd (by decide)
      · rw [List.replicate_zero, List.append_nil]
        exact Gap.scan_stop hd 0 _ m _
    obtain ⟨rfl, hprintable, -, -⟩ | ⟨ds, rfl⟩ := spellsChar_cases hc
    · by_cases hspace : c = ' '
      · subst hspace
        obtain ⟨n, s', body', rfl, hs', -, hgap⟩ := ih
        refine ⟨n + 1, s', body', by rw [List.replicate_succ, List.cons_append], hs',
          fun _ _ _ _ ↦ Nat.succ_pos n, fun m gap ↦ ?_⟩
        rw [List.append_assoc, List.singleton_append, Gap.scan_space, hgap, Mark.advance_advance,
          List.append_assoc, List.singleton_append, ← List.replicate_succ, Nat.add_comm 1 n]
      · exact hstop c [] rfl (isSpace_of_isPrintable hprintable hspace)
    · exact hstop '\\' ds rfl (by decide)

/-! ## Whole scalars -/

/-- A turn that ends at the closing quote. -/
theorem scanFrom_quote {fuel : Nat} {text w r : List Char} {stop : Stop} {c : Cursor} {m : Mark}
    (hline : c.atDocumentLine = false) (hrest : c.rest.isEmpty = false)
    (hword : doubleWord (c.rest.length + 1) c = some (w, stop, ⟨'"' :: r, m⟩)) :
    scanFrom false (fuel + 1) text c = some (text ++ w, ⟨r, m.advance 1⟩) := by
  rw [scanFrom, hline, hrest]
  change (doubleWord (c.rest.length + 1) c >>= _) = _
  rw [hword]
  rfl

/-- A turn that ends behind a gap. -/
theorem scanFrom_gap {fuel : Nat} {text w gap : List Char} {stop : Stop} {c d e : Cursor}
    (hline : c.atDocumentLine = false) (hrest : c.rest.isEmpty = false)
    (hword : doubleWord (c.rest.length + 1) c = some (w, stop, d)) (hstop : stop ≠ .joinedLine)
    (hquote : d.rest.head? ≠ some '"')
    (hgap : Gap.scan 0 (.blanks []) d.mark d.rest = some (.blanks gap, e)) :
    scanFrom false (fuel + 1) text c = scanFrom false fuel (text ++ w ++ gap) e := by
  rw [scanFrom, hline, hrest]
  change (doubleWord (c.rest.length + 1) c >>= _) = _
  rw [hword]
  change (if d.rest.head? = some '"' then _ else _) = _
  rw [if_neg hquote, if_neg hstop, hgap]
  rfl

theorem scanFrom_of_spells {s body : List Char} (h : Spells s body) (r : List Char) {m : Mark}
    (hm : 0 < m.column) {fuel : Nat} (hfuel : s.length < fuel) (text : List Char) :
    ∃ k, scanFrom false fuel text ⟨body ++ '"' :: r, m⟩ = some (text ++ s, ⟨r, m.advance k⟩) := by
  induction hlen : s.length using Nat.strongRecOn generalizing s body m fuel text with
  | ind len ih =>
    subst hlen
    obtain ⟨w, s₁, body₁, stop, k, rfl, hs₁, hend, hstop, hword⟩ := exists_doubleWord h r
    obtain ⟨fuel, rfl⟩ := Nat.exists_eq_add_of_lt hfuel
    have hline : Cursor.atDocumentLine ⟨body ++ '"' :: r, m⟩ = false :=
      Cursor.not_atDocumentLine_of_column hm
    have hrest : (body ++ '"' :: r).isEmpty = false := by simp
    have hword := hword m ((body ++ '"' :: r).length + 1) (by rw [List.length_append]; omega)
    obtain rfl | ⟨s'', body'', rfl, rfl⟩ := hend
    · cases hs₁
      exact ⟨k + 1, by
        rw [scanFrom_quote hline hrest hword, Mark.advance_advance, List.append_nil]⟩
    · obtain ⟨n, s₂, body₂, hsplit, hs₂, hpos, hgap⟩ := exists_gap hs₁ r
      have hn : 0 < n := hpos s'' body'' rfl rfl
      have hlt : s₂.length < (w ++ ' ' :: s'').length := by
        rw [hsplit, List.length_append, List.length_append, List.length_replicate]
        omega
      have hcolumn : 0 < (m.advance (k + n)).column := Nat.lt_of_lt_of_le hm (Nat.le_add_right _ _)
      have hfuel' : s₂.length < (w ++ ' ' :: s'').length + fuel := Nat.lt_add_right fuel hlt
      obtain ⟨k', hrun⟩ :=
        ih s₂.length hlt hs₂ hcolumn hfuel' (text ++ w ++ List.replicate n ' ') rfl
      refine ⟨k + n + k', ?_⟩
      have hgap := hgap (m.advance k) []
      rw [List.nil_append, Mark.advance_advance] at hgap
      rw [scanFrom_gap hline hrest hword hstop (by simp) hgap, hrun, Mark.advance_advance, hsplit]
      simp only [List.append_assoc]

/-- **Quoted texts.** A text is read back from each of its spellings between double quotes. -/
theorem scan_of_spells {s body : List Char} (h : Spells s body) (r : List Char) (m : Mark) :
    ∃ k, scan false ⟨'"' :: (body ++ '"' :: r), m⟩ = some (s, ⟨r, m.advance k⟩) := by
  have hfuel : s.length < ('"' :: (body ++ '"' :: r)).length + 1 := by
    have := h.length_le
    simp only [List.length_cons, List.length_append]
    omega
  obtain ⟨k, hk⟩ := scanFrom_of_spells h r (m := m.advance 1) (Nat.succ_pos _) hfuel []
  exact ⟨1 + k, by rw [← Mark.advance_advance]; exact hk⟩

end Quoted

end Conformance.Yaml
