import Mathlib.Algebra.Group.Nat.Defs
import Conformance.Proofs.Text.Utf8
/-!
# The parts that a scan finds

A byte string falls apart into the encodings of characters and, in between, *maximal invalid parts*:
the longest beginnings of what is left that still begin an encoding, or single bytes where nothing
does. This is said here without a scan, by `Parts`, and a scan finds exactly these parts.

Of the scan one fact is used over and over: it takes the bytes of a character as that character,
whatever follows them. So wherever it finds an invalid part no encoding can begin.
-/

namespace Conformance.Utf8

/-- The bytes `part` are the maximal invalid part at the beginning of `part ++ rest`. -/
structure InvalidPart (part rest : List UInt8) : Prop where
  ne_nil : part ≠ []
  /-- No character begins there. -/
  not_char : ∀ c, ¬ String.utf8EncodeChar c <+: part ++ rest
  /-- It is a single byte, or the beginning of a character. -/
  begins : part.length = 1 ∨ ∃ c, part <+: String.utf8EncodeChar c
  /-- No longer part is the beginning of a character. -/
  maximal : ∀ longer c, longer <+: part ++ rest → longer <+: String.utf8EncodeChar c →
    longer.length ≤ part.length

/-- The characters and the maximal invalid parts of a byte string, in order. -/
inductive Parts : List UInt8 → List Item → Prop
  | nil : Parts [] []
  | char (c : Char) {bytes : List UInt8} {items : List Item} (h : Parts bytes items) :
    Parts (String.utf8EncodeChar c ++ bytes) (some c :: items)
  | invalid {part bytes : List UInt8} {items : List Item} (hpart : InvalidPart part bytes)
    (h : Parts bytes items) : Parts (part ++ bytes) (none :: items)

/-! ## The bytes of a character, from its number -/

/-- The last bytes of the encoding of a number: six bits in each. -/
def continuation : Nat → Nat → List UInt8
  | 0, _ => []
  | k + 1, w => UInt8.ofNat (w / 64 ^ k % 64 + 0x80) :: continuation k w

theorem encode_one {w : Nat} (h : w ≤ 0x7F) :
    String.utf8EncodeChar (Char.ofNat w) = [UInt8.ofNat w] := by
  have hw : (Char.ofNat w).val.toNat = w := toNat_ofNat (.inl (by omega))
  rw [String.utf8EncodeChar]
  simp only [hw]
  rw [if_pos h]

theorem encode_two {w : Nat} (h : 0x7F < w) (h' : w ≤ 0x7FF) :
    String.utf8EncodeChar (Char.ofNat w) = UInt8.ofNat (w / 64 + 0xC0) :: continuation 1 w := by
  have hw : (Char.ofNat w).val.toNat = w := toNat_ofNat (.inl (by omega))
  rw [String.utf8EncodeChar]
  simp only [hw]
  rw [if_neg (by omega), if_pos h', Nat.mod_eq_of_lt (by omega : w / 64 < 32)]
  simp [continuation]

theorem encode_three {w : Nat} (h : 0x7FF < w) (h' : w ≤ 0xFFFF)
    (hvalid : w < 0xD800 ∨ 0xDFFF < w) :
    String.utf8EncodeChar (Char.ofNat w) = UInt8.ofNat (w / 4096 + 0xE0) :: continuation 2 w := by
  have hw : (Char.ofNat w).val.toNat = w := toNat_ofNat (hvalid.imp_right fun h ↦ ⟨h, by omega⟩)
  rw [String.utf8EncodeChar]
  simp only [hw]
  rw [if_neg (by omega), if_neg (by omega), if_pos h',
    Nat.mod_eq_of_lt (by omega : w / 4096 < 16)]
  simp [continuation]

theorem encode_four {w : Nat} (h : 0xFFFF < w) (h' : w < 0x110000) :
    String.utf8EncodeChar (Char.ofNat w) = UInt8.ofNat (w / 262144 + 0xF0) :: continuation 3 w := by
  have hw : (Char.ofNat w).val.toNat = w := toNat_ofNat (.inr ⟨by omega, h'⟩)
  rw [String.utf8EncodeChar]
  simp only [hw]
  rw [if_neg (by omega), if_neg (by omega), if_neg (by omega),
    Nat.mod_eq_of_lt (by omega : w / 262144 < 8)]
  simp [continuation]

/-! ## Scans partway through a character -/

/-- The bytes `part` are the beginning of a character of which `missing + 1` bytes are still due:
the next one in the given range completes them to the number that it adds its bits to. -/
structure Opens (part : List UInt8) (missing : Nat) (low high : UInt8) (value : Nat) : Prop where
  ne_nil : part ≠ []
  le_low : 0x80 ≤ low.toNat
  low_le_high : low.toNat ≤ high.toNat
  high_le : high.toNat ≤ 0xBF
  encode_eq (w : Nat) (hvalue : w / 64 ^ (missing + 1) = value)
    (hlow : low.toNat ≤ w / 64 ^ missing % 64 + 0x80)
    (hhigh : w / 64 ^ missing % 64 + 0x80 ≤ high.toNat) :
    String.utf8EncodeChar (Char.ofNat w) = part ++ continuation (missing + 1) w

theorem opens_two {n : Nat} (h : 2 ≤ n) (h' : n < 32) :
    Opens [UInt8.ofNat (n + 0xC0)] 0 0x80 0xBF n where
  ne_nil := List.cons_ne_nil _ _
  le_low := by decide
  low_le_high := by decide
  high_le := by decide
  encode_eq w hvalue _ _ := by
    rw [encode_two (by omega) (by omega), ← hvalue]
    rfl

theorem opens_three {n : Nat} (h : n < 16) :
    Opens [UInt8.ofNat (n + 0xE0)] 1 (if n = 0 then 0xA0 else 0x80)
      (if n = 13 then 0x9F else 0xBF) n where
  ne_nil := List.cons_ne_nil _ _
  le_low := by split <;> decide
  low_le_high := by
    by_cases h₀ : n = 0
    · rw [h₀]
      decide
    · rw [if_neg h₀]
      split <;> decide
  high_le := by split <;> decide
  encode_eq w hvalue hlow hhigh := by
    -- The ranges keep out overlong forms and surrogates.
    have hlong : 0x7FF < w := by
      by_cases h₀ : n = 0
      · simp only [if_pos h₀, UInt8.reduceToNat] at hlow
        omega
      · omega
    have hvalid : w < 0xD800 ∨ 0xDFFF < w := by
      by_cases h₁₃ : n = 13
      · simp only [if_pos h₁₃, UInt8.reduceToNat] at hhigh
        omega
      · omega
    rw [encode_three hlong (by omega) hvalid, ← hvalue]
    rfl

theorem opens_four {n : Nat} (h : n ≤ 4) :
    Opens [UInt8.ofNat (n + 0xF0)] 2 (if n = 0 then 0x90 else 0x80)
      (if n = 4 then 0x8F else 0xBF) n where
  ne_nil := List.cons_ne_nil _ _
  le_low := by split <;> decide
  low_le_high := by
    by_cases h₀ : n = 0
    · rw [h₀]
      decide
    · rw [if_neg h₀]
      split <;> decide
  high_le := by split <;> decide
  encode_eq w hvalue hlow hhigh := by
    -- The ranges keep out overlong forms and what lies past the last code point.
    have hlong : 0xFFFF < w := by
      by_cases h₀ : n = 0
      · simp only [if_pos h₀, UInt8.reduceToNat] at hlow
        omega
      · omega
    have hvalid : w < 0x110000 := by
      by_cases h₄ : n = 4
      · simp only [if_pos h₄, UInt8.reduceToNat] at hhigh
        omega
      · omega
    rw [encode_four hlong hvalid, ← hvalue]
    rfl

namespace Opens

variable {part : List UInt8} {missing : Nat} {low high b : UInt8} {value : Nat}

/-- The byte that was still due makes the character complete. -/
theorem complete (h : Opens part 0 low high value) (hb : low ≤ b ∧ b ≤ high) :
    String.utf8EncodeChar (Char.ofNat (value * 64 + b.toNat % 64)) = part ++ [b] := by
  rw [UInt8.le_iff_toNat_le, UInt8.le_iff_toNat_le] at hb
  have hle := h.le_low
  have hhigh := h.high_le
  have hbits : (value * 64 + b.toNat % 64) / 64 ^ 0 % 64 + 0x80 = b.toNat := by omega
  rw [h.encode_eq _ (by omega) (by omega) (by omega), continuation, continuation, hbits,
    UInt8.ofNat_toNat]

/-- One of several bytes that are still due leads on. -/
theorem next (h : Opens part (missing + 1) low high value) (hb : low ≤ b ∧ b ≤ high) :
    Opens (part ++ [b]) missing 0x80 0xBF (value * 64 + b.toNat % 64) where
  ne_nil := List.append_ne_nil_of_left_ne_nil h.ne_nil _
  le_low := by decide
  low_le_high := by decide
  high_le := by decide
  encode_eq w hvalue _ _ := by
    rw [UInt8.le_iff_toNat_le, UInt8.le_iff_toNat_le] at hb
    have hle := h.le_low
    have hhigh := h.high_le
    have hvalue' : w / 64 ^ (missing + 1 + 1) = value := by
      rw [Nat.pow_succ, ← Nat.div_div_eq_div_mul, hvalue]
      omega
    have hbits : w / 64 ^ (missing + 1) % 64 + 0x80 = b.toNat := by
      rw [hvalue]
      omega
    rw [h.encode_eq w hvalue' (by omega) (by omega), continuation, hbits, UInt8.ofNat_toNat,
      List.append_assoc, List.singleton_append]

/-- Some character can always be completed. -/
theorem begins (h : Opens part missing low high value) :
    ∃ c, part <+: String.utf8EncodeChar c := by
  have hle := h.le_low
  have hrange := h.low_le_high
  have hhigh := h.high_le
  let w := (value * 64 + (low.toNat - 0x80)) * 64 ^ missing
  have hw : w / 64 ^ missing = value * 64 + (low.toNat - 0x80) :=
    Nat.mul_div_cancel _ (Nat.pow_pos (by decide))
  have hvalue : w / 64 ^ (missing + 1) = value := by
    rw [Nat.pow_succ, ← Nat.div_div_eq_div_mul, hw]
    omega
  have hbits : w / 64 ^ missing % 64 + 0x80 = low.toNat := by
    rw [hw]
    omega
  refine ⟨Char.ofNat w, continuation (missing + 1) w, ?_⟩
  rw [h.encode_eq w hvalue (Nat.le_of_eq hbits.symm) (Nat.le_trans (Nat.le_of_eq hbits) hrange)]

end Opens

/-! ## Reading a byte -/

/-- A byte between characters is a character, or nothing, or the beginning of a character. -/
theorem lead_cases (b : UInt8) :
    (∃ c, lead b = ([some c], .start) ∧ String.utf8EncodeChar c = [b]) ∨
    lead b = ([none], .start) ∨
    ∃ missing low high value, lead b = ([], .partway missing low high value) ∧
      Opens [b] missing low high value := by
  obtain ⟨n, hn, rfl⟩ : ∃ n, n < 256 ∧ b = UInt8.ofNat n :=
    ⟨b.toNat, b.toNat_lt, (UInt8.ofNat_toNat).symm⟩
  have hb : (UInt8.ofNat n).toNat = n := UInt8.toNat_ofNat_of_lt' hn
  by_cases h₁ : n ≤ 0x7F
  · exact .inl ⟨Char.ofNat n, lead_one h₁, encode_one h₁⟩
  by_cases h₂ : n < 0xC2
  · refine .inr (.inl ?_)
    simp only [lead, UInt8.le_iff_toNat_le, UInt8.lt_iff_toNat_lt, hb, UInt8.reduceToNat]
    rw [if_neg h₁, if_pos h₂]
  by_cases h₃ : n < 0xE0
  · obtain ⟨k, rfl⟩ := Nat.exists_eq_add_of_le' (show 0xC0 ≤ n by omega)
    exact .inr (.inr ⟨_, _, _, _, lead_two (by omega) (by omega), opens_two (by omega) (by omega)⟩)
  by_cases h₄ : n < 0xF0
  · obtain ⟨k, rfl⟩ := Nat.exists_eq_add_of_le' (show 0xE0 ≤ n by omega)
    exact .inr (.inr ⟨_, _, _, _, lead_three (by omega), opens_three (by omega)⟩)
  by_cases h₅ : n ≤ 0xF4
  · obtain ⟨k, rfl⟩ := Nat.exists_eq_add_of_le' (show 0xF0 ≤ n by omega)
    exact .inr (.inr ⟨_, _, _, _, lead_four (by omega), opens_four (by omega)⟩)
  · refine .inr (.inl ?_)
    simp only [lead, UInt8.le_iff_toNat_le, UInt8.lt_iff_toNat_lt, ← UInt8.toNat_inj, hb,
      UInt8.reduceToNat]
    rw [if_neg h₁, if_neg h₂, if_neg (by omega), if_neg (by omega), if_neg (by omega),
      if_neg (by omega), if_neg (by omega), if_neg (by omega), if_neg (by omega)]

section Partway

variable {missing value : Nat} {low high b : UInt8}

theorem scanFrom_last (hb : low ≤ b ∧ b ≤ high) (bytes : List UInt8) :
    scanFrom (.partway 0 low high value) (b :: bytes)
      = some (Char.ofNat (value * 64 + b.toNat % 64)) :: scanFrom .start bytes := by
  rw [scanFrom_cons, step, if_pos hb]
  rfl

theorem scanFrom_next (hb : low ≤ b ∧ b ≤ high) (bytes : List UInt8) :
    scanFrom (.partway (missing + 1) low high value) (b :: bytes)
      = scanFrom (.partway missing 0x80 0xBF (value * 64 + b.toNat % 64)) bytes := by
  rw [scanFrom_cons, step, if_pos hb]
  rfl

/-- A byte out of range is looked at afresh. -/
theorem scanFrom_afresh (hb : ¬ (low ≤ b ∧ b ≤ high)) (bytes : List UInt8) :
    scanFrom (.partway missing low high value) (b :: bytes)
      = none :: scanFrom .start (b :: bytes) := by
  rw [scanFrom_cons, step, if_neg hb]
  rfl

end Partway

/-! ## The parts of a scan -/

/-- Where a scan finds an invalid part whatever comes behind the next byte, there is one. -/
theorem InvalidPart.of_scan {part rest : List UInt8} (hne : part ≠ [])
    (hbegins : part.length = 1 ∨ ∃ c, part <+: String.utf8EncodeChar c)
    (hscan : ∀ next, next.head? = rest.head? → (scan (part ++ next)).head? = some none) :
    InvalidPart part rest where
  ne_nil := hne
  not_char c h := by
    obtain ⟨behind, e⟩ := h
    have hnone := hscan rest rfl
    rw [← e, scan, scanFrom_utf8EncodeChar] at hnone
    cases hnone
  begins := hbegins
  maximal longer c hlonger hchar := by
    refine Nat.le_of_not_lt fun hlt ↦ ?_
    obtain ⟨next, rfl⟩ : part <+: longer :=
      List.prefix_of_prefix_length_le (List.prefix_append part rest) hlonger (Nat.le_of_lt hlt)
    obtain ⟨behind, rfl⟩ := (List.prefix_append_right_inj part).mp hlonger
    obtain ⟨due, e⟩ := hchar
    rcases next with _ | ⟨b, next⟩
    · rw [List.append_nil] at hlt
      exact Nat.lt_irrefl _ hlt
    · have hnone := hscan (b :: next ++ due) rfl
      rw [← List.append_assoc, e, ← List.append_nil (String.utf8EncodeChar c), scan,
        scanFrom_utf8EncodeChar] at hnone
      cases hnone

/-- What a scan finds between characters, and what it finds partway through one. -/
theorem parts_scanFrom (bytes : List UInt8) :
    Parts bytes (scanFrom .start bytes) ∧
    ∀ part missing low high value, Opens part missing low high value →
      (∀ next, scan (part ++ next) = scanFrom (.partway missing low high value) next) →
      Parts (part ++ bytes) (scanFrom (.partway missing low high value) bytes) := by
  induction bytes with
  | nil =>
    refine ⟨.nil, ?_⟩
    intro part missing low high value hopens hscan
    refine .invalid (.of_scan hopens.ne_nil (.inr hopens.begins) ?_) .nil
    intro next hnext
    rw [List.head?_nil, List.head?_eq_none_iff] at hnext
    rw [hnext, hscan]
    rfl
  | cons b bytes ih =>
    obtain ⟨ihstart, ihpartway⟩ := ih
    have hstart : Parts (b :: bytes) (scanFrom .start (b :: bytes)) := by
      rcases lead_cases b with ⟨c, hlead, hc⟩ | hlead | ⟨missing, low, high, value, hlead, hopens⟩
      · have hchar := Parts.char c ihstart
        rw [hc] at hchar
        rw [scanFrom_cons, step, hlead]
        exact hchar
      · have hpart : InvalidPart [b] bytes := by
          refine .of_scan (List.cons_ne_nil _ _) (.inl rfl) ?_
          intro next _
          rw [List.singleton_append, scan, scanFrom_cons, step, hlead]
          rfl
        rw [scanFrom_cons, step, hlead]
        exact .invalid hpart ihstart
      · have hscan : ∀ next,
            scan ([b] ++ next) = scanFrom (.partway missing low high value) next := by
          intro next
          rw [List.singleton_append, scan, scanFrom_cons, step, hlead]
          rfl
        have hpart := ihpartway [b] missing low high value hopens hscan
        rw [← hscan] at hpart
        exact hpart
    refine ⟨hstart, ?_⟩
    intro part missing low high value hopens hscan
    by_cases hb : low ≤ b ∧ b ≤ high
    · have hassoc : part ++ b :: bytes = (part ++ [b]) ++ bytes := by simp
      rw [hassoc]
      cases missing with
      | zero =>
        rw [scanFrom_last hb, ← hopens.complete hb]
        exact .char _ ihstart
      | succ missing =>
        rw [scanFrom_next hb]
        refine ihpartway _ _ _ _ _ (hopens.next hb) ?_
        intro next
        rw [List.append_assoc, List.singleton_append, hscan, scanFrom_next hb]
    · rw [scanFrom_afresh hb]
      refine .invalid (.of_scan hopens.ne_nil (.inr hopens.begins) ?_) hstart
      intro next hnext
      obtain ⟨behind, rfl⟩ := List.head?_eq_some_iff.mp hnext
      rw [hscan, scanFrom_afresh hb]
      rfl

theorem parts_scan (bytes : List UInt8) : Parts bytes (scan bytes) := (parts_scanFrom bytes).1

/-- A byte string has one maximal invalid part at its beginning, if any. -/
theorem InvalidPart.length_le {part part' rest rest' : List UInt8} (h : InvalidPart part rest)
    (h' : InvalidPart part' rest') (e : part ++ rest = part' ++ rest') :
    part'.length ≤ part.length := by
  rcases h'.begins with hone | ⟨c, hc⟩
  · rw [hone]
    exact List.length_pos_iff.mpr h.ne_nil
  · exact h.maximal part' c ⟨rest', e.symm⟩ hc

/-- No character is the beginning of another one. -/
theorem encodeChar_append_inj {c c' : Char} {bytes bytes' : List UInt8}
    (e : String.utf8EncodeChar c ++ bytes = String.utf8EncodeChar c' ++ bytes') :
    c = c' ∧ bytes = bytes' := by
  have hscan := congrArg (scanFrom .start) e
  rw [scanFrom_utf8EncodeChar, scanFrom_utf8EncodeChar] at hscan
  obtain ⟨hc, -⟩ := List.cons.inj hscan
  cases hc
  exact ⟨rfl, List.append_cancel_left e⟩

/-- Two ways to take a byte string apart agree. -/
theorem Parts.eq {bytes : List UInt8} {items items' : List Item} (h : Parts bytes items)
    (h' : Parts bytes items') : items = items' := by
  induction h generalizing items' with
  | nil =>
    generalize hwhole : ([] : List UInt8) = whole at h'
    cases h' with
    | nil => rfl
    | char c h' =>
      exact absurd (List.append_eq_nil_iff.mp hwhole.symm).1 String.utf8EncodeChar_ne_nil
    | invalid hpart' h' => exact absurd (List.append_eq_nil_iff.mp hwhole.symm).1 hpart'.ne_nil
  | @char c bytes items h ih =>
    generalize hwhole : String.utf8EncodeChar c ++ bytes = whole at h'
    cases h' with
    | nil => exact absurd (List.append_eq_nil_iff.mp hwhole).1 String.utf8EncodeChar_ne_nil
    | char c' h' =>
      obtain ⟨rfl, rfl⟩ := encodeChar_append_inj hwhole
      rw [ih h']
    | invalid hpart' h' => exact absurd ⟨_, hwhole⟩ (hpart'.not_char c)
  | @invalid part bytes items hpart h ih =>
    generalize hwhole : part ++ bytes = whole at h'
    cases h' with
    | nil => exact absurd (List.append_eq_nil_iff.mp hwhole).1 hpart.ne_nil
    | char c' h' => exact absurd ⟨_, hwhole.symm⟩ (hpart.not_char c')
    | invalid hpart' h' =>
      have hlength := Nat.le_antisymm (hpart'.length_le hpart hwhole.symm)
        (hpart.length_le hpart' hwhole)
      obtain ⟨rfl, rfl⟩ := List.append_inj hwhole hlength
      rw [ih h']

/-- **What a scan finds.** The characters and the maximal invalid parts of a byte string are those
that a scan finds. -/
theorem parts_iff {bytes : List UInt8} {items : List Item} :
    Parts bytes items ↔ items = scan bytes := by
  constructor
  · intro h
    exact h.eq (parts_scan bytes)
  · rintro rfl
    exact parts_scan bytes

end Conformance.Utf8
