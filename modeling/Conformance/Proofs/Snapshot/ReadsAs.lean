import Conformance.Proofs.Json.Skipping
import Conformance.Proofs.Snapshot.Reader
import Conformance.Proofs.Snapshot.Shape
/-!
# Readers that accept one shape

A reader succeeds exactly on the values of one shape, and gives what the value holds: this is
`ReadsAs`. It is shown here for counts and texts, and for lists of whatever a reader accepts.
-/

namespace Conformance.Snapshot

open Json (Tree Space ValueAt ItemsAt Finds EndsNumeral Rest units)

/-- The reader succeeds exactly on the values with the shape `P`. Soundness says what was read when
it succeeds; completeness says where it succeeds: wherever the value ends even if it is a numeral.
-/
structure ReadsAs {α : Type} (read : Reader α) (P : Tree → α → Prop) : Prop where
  sound {cs rest : List Char} {a : α} (h : Finds (read cs) a rest) :
    ∃ t cs', Space cs cs' ∧ ValueAt cs' t rest ∧ P t a
  complete {cs cs' rest : List Char} {t : Tree} {a : α} (hspace : Space cs cs')
    (ht : ValueAt cs' t rest) (hends : EndsNumeral rest) (hP : P t a) : Finds (read cs) a rest

section Readers

variable {α : Type} {cs rest : List Char} {a : α}

theorem finds_behindSpace_iff
    {k : (c : Char) → (r : List Char) → Except Stop (α × Rest (c :: r))} :
    Finds (behindSpace k : Except Stop (α × Rest cs)) a rest ↔
      ∃ c r, Json.skipSpace cs = c :: r ∧ Finds (k c r) a rest := by
  constructor
  · intro h
    cases hcs : Json.skipSpace cs with
    | nil =>
      unfold behindSpace at h
      split at h
      · exact absurd h Json.not_finds_error
      · rename_i hcons
        rw [hcs] at hcons
        cases hcons
    | cons c r =>
      rw [behindSpace_of_skipSpace k hcs] at h
      obtain ⟨b, hb, rfl⟩ := (Json.finds_map_iff (g := id) fun _ ↦ ⟨by rfl, by rfl⟩).mp h
      exact ⟨c, r, rfl, hb⟩
  · rintro ⟨c, r, hcs, h⟩
    exact finds_behindSpace hcs h

theorem plainly_eq_ok_iff {x : Except Json.Failure α} : plainly x = .ok a ↔ x = .ok a :=
  mapError_eq_ok_iff

/-- A value that is not of the expected kind is never accepted. -/
theorem unexpected_ne_ok (expected : Expected) (c : Char) (r : List Char) (x : α) :
    unexpected expected c r ≠ .ok x := by
  intro h
  unfold unexpected at h
  dsimp only at h
  split at h
  · obtain ⟨_, -, h⟩ := bind_eq_ok_iff.mp h
    cases h
  split at h
  · obtain ⟨_, -, h⟩ := bind_eq_ok_iff.mp h
    cases h
  split at h
  · obtain ⟨_, -, h⟩ := bind_eq_ok_iff.mp h
    cases h
  split at h
  · obtain ⟨⟨n, s⟩, -, h⟩ := bind_eq_ok_iff.mp h
    cases n <;> cases h
  split at h
  · obtain ⟨_, -, h⟩ := bind_eq_ok_iff.mp h
    cases h
  split at h
  · cases h
  split at h <;> cases h

theorem not_finds_unexpected {expected : Expected} {c : Char} {r : List Char} :
    ¬ Finds (unexpected expected c r : Except Stop (α × Rest cs)) a rest :=
  fun ⟨_, h⟩ ↦ unexpected_ne_ok expected c r _ h

end Readers

theorem ReadsAs.map {α β : Type} {read : Reader α} {P : Tree → α → Prop} (h : ReadsAs read P)
    (g : α → β) : ReadsAs (fun cs ↦ (read cs).map fun (a, rest) ↦ (g a, rest))
      fun t b ↦ ∃ a, P t a ∧ b = g a where
  sound hb := by
    obtain ⟨a, ha, rfl⟩ := (Json.finds_map_iff fun _ ↦ ⟨by rfl, by rfl⟩).mp hb
    obtain ⟨t, cs', hspace, ht, hP⟩ := h.sound ha
    exact ⟨t, cs', hspace, ht, a, hP, rfl⟩
  complete hspace ht hends hb := by
    obtain ⟨a, hP, rfl⟩ := hb
    exact (Json.finds_map_iff fun _ ↦ ⟨by rfl, by rfl⟩).mpr ⟨a, h.complete hspace ht hends hP, rfl⟩

/-! ## Scalars -/

theorem readsAs_count : ReadsAs readCount IsCount where
  sound h := by
    obtain ⟨c, r, hcs, h⟩ := finds_behindSpace_iff.mp h
    have hspace := (Json.skipSpace_eq_cons_iff.mp hcs).2
    split at h
    · obtain ⟨⟨v, s, hs⟩, hv, h⟩ := Json.finds_bind_iff.mp h
      rw [plainly_eq_ok_iff] at hv
      cases v with
      | natural k =>
        obtain ⟨rfl, rfl⟩ := Json.finds_ok_iff.mp h
        -- A numeral with a sign is never natural, not even zero.
        obtain ⟨n, hn, hvalue⟩ | ⟨n, r', -, -, hvalue⟩ := Json.of_finds_number ⟨hs, hv⟩
        · obtain ⟨-, hfraction, hexponent, hk, hsize⟩ := Json.value?_eq_natural_iff.mp hvalue
          obtain ⟨whole, fraction, exponent⟩ := n
          cases hfraction
          cases hexponent
          refine ⟨_, _, hspace, .natural hn, whole, rfl, ?_⟩
          exact hk.trans (UInt64.toNat_ofNat_of_lt' hsize).symm
        · exact absurd (Json.value?_eq_natural_iff.mp hvalue).1 (by decide)
      | negative k => exact absurd h Json.not_finds_error
      | real isNegative x => exact absurd h Json.not_finds_error
    · exact absurd h not_finds_unexpected
  complete hspace ht hends hP := by
    obtain ⟨ds, rfl, hds⟩ := hP
    cases ht with
    | natural hn =>
      rename_i n
      obtain ⟨c, r, rfl, hc⟩ := hn.begins
      have hvalue : Json.Numeral.value? false ⟨ds, none, none⟩ = some (.natural n.toNat) :=
        Json.value?_eq_natural_iff.mpr ⟨rfl, rfl, rfl, hds, UInt64.toNat_lt_size n⟩
      have hsign : (c :: r).head? ≠ some '-' := by
        rintro ⟨⟩
        exact absurd hc (by decide)
      have hskip := Json.skipSpace_eq_cons_iff.mpr ⟨Json.isSpace_of_isDigit hc, hspace⟩
      have hcount := readCount_number hskip hc
        (Json.number_unsigned hsign (hn.finds hends .truncated) hvalue)
      rwa [UInt64.ofNat_toNat] at hcount

theorem readsAs_text : ReadsAs readText IsText where
  sound h := by
    obtain ⟨c, r, hcs, h⟩ := finds_behindSpace_iff.mp h
    have hspace := (Json.skipSpace_eq_cons_iff.mp hcs).2
    split at h
    · rename_i hc
      subst hc
      obtain ⟨⟨s, r', hr'⟩, hs, h⟩ := Json.finds_bind_iff.mp h
      rw [plainly_eq_ok_iff] at hs
      obtain ⟨rfl, rfl⟩ := Json.finds_ok_iff.mp h
      refine ⟨_, _, hspace, .text (Json.body_of_finds ⟨hr', hs⟩), ?_⟩
      rw [IsText, String.toList_ofList]
    · exact absurd h not_finds_unexpected
  complete hspace ht hends hP := by
    rename_i s
    cases hP
    cases ht with
    | text hus =>
      have hskip := Json.skipSpace_eq_cons_iff.mpr ⟨by decide, hspace⟩
      have htext := readText_string hskip (Json.finds_of_body hus)
      rwa [String.ofList_toList] at htext

/-! ## Lists -/

/-- What stands in front of a part of a container, up to `r`: nothing for the first part, a comma
for the others. -/
def Precedes : Bool → List Char → List Char → Prop
  | true, cs, r => cs = r
  | false, cs, r => Space cs (',' :: r)

/-- An element of a list, the first or a later one. -/
def ElementAt (first : Bool) (cs : List Char) (t : Tree) (rest : List Char) : Prop :=
  ∃ r cs', Precedes first cs r ∧ Space r cs' ∧ ValueAt cs' t rest

/-- The elements of a list with its closing bracket, all of them or those behind an element. -/
def ElementsAt : Bool → List Char → List Tree → List Char → Prop
  | true, cs, ts, rest => ValueAt ('[' :: cs) (.list ts) rest
  | false, cs, ts, rest => ItemsAt cs ts rest

theorem elementsAt_nil_iff {first : Bool} {cs rest : List Char} :
    ElementsAt first cs [] rest ↔ Space cs (']' :: rest) := by
  cases first with
  | true =>
    constructor
    · intro h
      cases h with
      | emptyList h => exact h
    · exact .emptyList
  | false =>
    constructor
    · intro h
      cases h with
      | close h => exact h
    · exact .close

theorem elementsAt_cons_iff {first : Bool} {cs rest : List Char} {t : Tree} {ts : List Tree} :
    ElementsAt first cs (t :: ts) rest ↔
      ∃ r, ElementAt first cs t r ∧ ElementsAt false r ts rest := by
  cases first with
  | true =>
    constructor
    · intro h
      cases h with
      | list hspace ht hts => exact ⟨_, ⟨_, _, rfl, hspace, ht⟩, hts⟩
    · rintro ⟨r, ⟨_, _, rfl, hspace, ht⟩, hts⟩
      exact .list hspace ht hts
  | false =>
    constructor
    · intro h
      cases h with
      | item hcomma hspace ht hts => exact ⟨_, ⟨_, _, hcomma, hspace, ht⟩, hts⟩
    · rintro ⟨r, ⟨_, _, hcomma, hspace, ht⟩, hts⟩
      exact .item hcomma hspace ht hts

theorem exists_elementsAt {cs rest : List Char} {ts : List Tree}
    (h : ValueAt cs (.list ts) rest) : ∃ r, cs = '[' :: r ∧ ElementsAt true r ts rest := by
  cases h with
  | emptyList h => exact ⟨_, rfl, .emptyList h⟩
  | list hspace ht hts => exact ⟨_, rfl, .list hspace ht hts⟩

/-- Behind an element, a numeral ends: its list goes on or is closed. -/
theorem ElementsAt.endsNumeral {cs rest : List Char} {ts : List Tree}
    (h : ElementsAt false cs ts rest) : EndsNumeral cs := ItemsAt.endsNumeral h

section Elements

variable {α : Type} {read : Reader α} {P : Tree → α → Prop} {cs rest : List Char}

theorem of_nextElement {first : Bool} {x : ListNext cs} (h : nextElement first cs = .ok x) :
    (∃ s, x = .closed s ∧ Space cs (']' :: s.1)) ∨ ∃ s, x = .element s ∧ Precedes first cs s.1 := by
  unfold nextElement at h
  split at h
  · cases h
  · rename_i c r hcs
    have hspace := (Json.skipSpace_eq_cons_iff.mp hcs).2
    dsimp only at h
    split at h
    · rename_i hc
      cases h
      exact .inl ⟨_, rfl, hc ▸ hspace⟩
    · split at h
      · rename_i hfirst
        cases h
        exact .inr ⟨_, rfl, hfirst ▸ rfl⟩
      · rename_i hfirst
        rw [Bool.not_eq_true] at hfirst
        split at h
        · rename_i hc
          split at h
          · cases h
          · split at h
            · cases h
            · cases h
              refine .inr ⟨_, rfl, ?_⟩
              subst hfirst
              exact hc ▸ hspace
        · cases h

theorem nextElement_of_closed {first : Bool} (h : Space cs (']' :: rest)) :
    ∃ hlt, nextElement first cs = .ok (.closed ⟨rest, hlt⟩) := by
  have hcs := Json.skipSpace_eq_cons_iff.mpr ⟨by decide, h⟩
  exact ⟨_, by rw [nextElement_of_skipSpace first hcs, if_pos rfl]⟩

theorem ElementAt.nextElement_eq {first : Bool} {t : Tree} (h : ElementAt first cs t rest) :
    ∃ r hle cs', nextElement first cs = .ok (.element ⟨r, hle⟩) ∧ Space r cs' ∧
      ValueAt cs' t rest := by
  obtain ⟨r, cs', hprecedes, hspace, ht⟩ := h
  obtain ⟨c, s, rfl, hc, hne⟩ := ht.begins
  have hr := Json.skipSpace_eq_cons_iff.mpr ⟨hc, hspace⟩
  cases first with
  | true =>
    cases hprecedes
    refine ⟨cs, Nat.le_refl _, _, ?_, hspace, ht⟩
    rw [nextElement_of_skipSpace true hr, if_neg hne, if_pos rfl]
    rfl
  | false =>
    have hcs := Json.skipSpace_eq_cons_iff.mpr ⟨by decide, hprecedes⟩
    refine ⟨r, Nat.le_of_lt (Json.length_lt_of_skipSpace hcs), _, ?_, hspace, ht⟩
    rw [nextElement_of_skipSpace false hcs, if_neg (by decide), if_neg (by decide), if_pos rfl, hr]
    exact if_neg hne

theorem ReadsAs.sound_elements (hread : ReadsAs read P) {first : Bool} {as : List α} (n : Nat)
    (hlen : cs.length = n) (h : Finds (readElements read first cs) as rest) :
    ∃ ts, ElementsAt first cs ts rest ∧ List.Forall₂ P ts as := by
  induction n using Nat.strongRecOn generalizing cs first as with
  | ind n ih =>
    subst hlen
    rw [readElements] at h
    obtain ⟨x, hx, h⟩ := Json.finds_bind_iff.mp h
    obtain ⟨s, rfl, hs⟩ | ⟨⟨r, hr⟩, rfl, hprecedes⟩ := of_nextElement hx
    · obtain ⟨rfl, rfl⟩ := Json.finds_ok_iff.mp h
      exact ⟨[], elementsAt_nil_iff.mpr hs, .nil⟩
    · obtain ⟨⟨a, r', hr'⟩, ha, h⟩ := Json.finds_bind_iff.mp h
      obtain ⟨⟨as', r'', hr''⟩, has, h⟩ := Json.finds_bind_iff.mp h
      obtain ⟨rfl, rfl⟩ := Json.finds_ok_iff.mp h
      obtain ⟨t, cs', hspace, ht, hP⟩ := hread.sound ⟨hr', ha⟩
      obtain ⟨ts, hts, hall⟩ := ih _ (Nat.lt_of_lt_of_le hr' hr) rfl ⟨hr'', has⟩
      exact ⟨t :: ts, elementsAt_cons_iff.mpr ⟨r', ⟨r, cs', hprecedes, hspace, ht⟩, hts⟩,
        .cons hP hall⟩

theorem ReadsAs.complete_elements (hread : ReadsAs read P) {first : Bool} {ts : List Tree}
    {as : List α} (h : ElementsAt first cs ts rest) (hall : List.Forall₂ P ts as) :
    Finds (readElements read first cs) as rest := by
  induction hall generalizing cs first with
  | nil =>
    obtain ⟨hlt, e⟩ := nextElement_of_closed (elementsAt_nil_iff.mp h)
    refine ⟨hlt, ?_⟩
    rw [readElements, e]
    rfl
  | cons hP _ ih =>
    obtain ⟨r, ht, hts⟩ := elementsAt_cons_iff.mp h
    obtain ⟨s, hle, cs', hnext, hspace, ht⟩ := ht.nextElement_eq
    exact readElements_element hnext (hread.complete hspace ht hts.endsNumeral hP) (ih hts)

/-- A list is read as its elements are. -/
theorem ReadsAs.list (hread : ReadsAs read P) :
    ReadsAs (readList read) fun t as ↦ ∃ ts, t = .list ts ∧ List.Forall₂ P ts as where
  sound h := by
    obtain ⟨c, r, hcs, h⟩ := finds_behindSpace_iff.mp h
    have hspace := (Json.skipSpace_eq_cons_iff.mp hcs).2
    split at h
    · rename_i hc
      subst hc
      obtain ⟨as, has, rfl⟩ := (Json.finds_map_iff (g := id) fun _ ↦ ⟨by rfl, by rfl⟩).mp h
      obtain ⟨ts, hts, hall⟩ := hread.sound_elements _ rfl has
      exact ⟨_, _, hspace, hts, ts, rfl, hall⟩
    · exact absurd h not_finds_unexpected
  complete hspace ht hends hP := by
    obtain ⟨ts, rfl, hall⟩ := hP
    obtain ⟨r, rfl, hts⟩ := exists_elementsAt ht
    have hskip := Json.skipSpace_eq_cons_iff.mpr ⟨by decide, hspace⟩
    refine finds_behindSpace hskip ?_
    rw [if_pos rfl]
    exact finds_cons id '[' (hread.complete_elements hts hall)

/-! ### Lists of fields -/

theorem ReadsAs.of_readField (hread : ReadsAs read P) {expected : Expected} {index : Nat} {a : α}
    (h : Finds (readField expected index read cs) a rest) :
    ∃ t, ElementAt (index = 0) cs t rest ∧ P t a := by
  obtain ⟨x, hx, h⟩ := Json.finds_bind_iff.mp h
  obtain ⟨s, rfl, hs⟩ | ⟨⟨r, hr⟩, rfl, hprecedes⟩ := of_nextElement hx
  · exact absurd h Json.not_finds_error
  · obtain ⟨⟨b, r', hr'⟩, hb, h⟩ := Json.finds_bind_iff.mp h
    obtain ⟨rfl, rfl⟩ := Json.finds_ok_iff.mp h
    obtain ⟨t, cs', hspace, ht, hP⟩ := hread.sound ⟨hr', hb⟩
    exact ⟨t, ⟨r, cs', hprecedes, hspace, ht⟩, hP⟩

theorem ReadsAs.readField (hread : ReadsAs read P) (expected : Expected) (index : Nat) {a : α}
    {t : Tree} (h : ElementAt (index = 0) cs t rest) (hends : EndsNumeral rest) (hP : P t a) :
    Finds (Snapshot.readField expected index read cs) a rest := by
  obtain ⟨r, hle, cs', hnext, hspace, ht⟩ := h.nextElement_eq
  obtain ⟨hlt, e⟩ := hread.complete hspace ht hends hP
  refine ⟨Nat.lt_of_lt_of_le hlt hle, ?_⟩
  rw [Snapshot.readField, hnext]
  change (read r >>= _) = _
  rw [e]
  rfl

theorem leaves_closeFields_iff :
    Json.Leaves (closeFields cs) rest ↔ Space cs (']' :: rest) := by
  constructor
  · rintro ⟨_, h⟩
    unfold closeFields at h
    split at h
    · cases h
    · rename_i c r hcs
      split at h
      · rename_i hc
        cases h
        exact hc ▸ (Json.skipSpace_eq_cons_iff.mp hcs).2
      · cases h
  · intro h
    have hcs := Json.skipSpace_eq_cons_iff.mpr ⟨by decide, h⟩
    refine ⟨Json.length_lt_of_skipSpace hcs, ?_⟩
    unfold closeFields
    split
    · rename_i hnil
      rw [hcs] at hnil
      cases hnil
    · rename_i c r hcons
      rw [hcs] at hcons
      obtain ⟨rfl, rfl⟩ := List.cons.inj hcons
      exact if_pos rfl

end Elements

end Conformance.Snapshot
