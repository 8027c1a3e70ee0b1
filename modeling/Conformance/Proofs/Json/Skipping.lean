import Conformance.Json.Skip
import Conformance.Proofs.Json.Numerals
/-!
# Just the values of JSON are skipped

The brackets that are still open are kept in a list while a value is skipped. What has to follow a
value is said for the whole list at once: `Closes outer cs rest` goes on with the items or members
of the innermost container, closes it, and so on outwards, until `rest` is left.

Soundness is by induction on the length of the text, as skipping itself; completeness is by
induction on the grammar, one case for each of its rules. A numeral at the very end is only skipped
as a whole if the text behind it ends every numeral.
-/

namespace Conformance.Json

/-- The text closes the given open containers, the innermost first, and leaves `rest`. -/
inductive Closes : List Bracket → List Char → List Char → Prop where
  | none (rest : List Char) : Closes [] rest rest
  | list {cs cs' rest : List Char} {ts : List Tree} {outer : List Bracket}
    (hts : ItemsAt cs ts cs') (h : Closes outer cs' rest) : Closes (.list :: outer) cs rest
  | object {cs cs' rest : List Char} {ms : List (List Nat × Tree)} {outer : List Bracket}
    (hms : MembersAt cs ms cs') (h : Closes outer cs' rest) : Closes (.object :: outer) cs rest

/-! ## Words and scalars -/

theorem leaves_word_iff {ws cs rest : List Char} : Leaves (word ws cs) rest ↔ cs = ws ++ rest := by
  induction ws generalizing cs with
  | nil => exact leaves_ok_iff
  | cons w ws ih =>
    cases cs with
    | nil => exact iff_of_false not_leaves_error nofun
    | cons c cs =>
      rw [word, List.cons_append, List.cons.injEq]
      split
      · rename_i hw
        rw [and_iff_right hw.symm, ← ih]
        exact leaves_map_iff fun _ ↦ rfl
      · rename_i hw
        exact iff_of_false not_leaves_error fun h ↦ hw h.1.symm

theorem valueAt_of_skipScalar {cs rest : List Char} (h : Leaves (skipScalar cs) rest) :
    ∃ t, ValueAt cs t rest := by
  unfold skipScalar at h
  split at h
  · exact absurd h not_leaves_error
  · repeat' split at h
    · subst_vars
      obtain ⟨us, hus⟩ := leaves_skipString_iff.mp ((leaves_map_iff fun _ ↦ by rfl).mp h)
      exact ⟨_, .text hus⟩
    · subst_vars
      obtain ⟨n, hn⟩ := numeralAt_of_leaves ((leaves_map_iff fun _ ↦ by rfl).mp h)
      exact ⟨_, .negative hn⟩
    · obtain ⟨n, hn⟩ := numeralAt_of_leaves h
      exact ⟨_, .natural hn⟩
    · subst_vars
      cases leaves_word_iff.mp ((leaves_map_iff fun _ ↦ by rfl).mp h)
      exact ⟨_, .null rest⟩
    · subst_vars
      cases leaves_word_iff.mp ((leaves_map_iff fun _ ↦ by rfl).mp h)
      exact ⟨_, .isTrue rest⟩
    · subst_vars
      cases leaves_word_iff.mp ((leaves_map_iff fun _ ↦ by rfl).mp h)
      exact ⟨_, .isFalse rest⟩
    · exact absurd h not_leaves_error

/-! ## Keys -/

theorem leaves_skipKey_iff {cs rest : List Char} :
    Leaves (skipKey cs) rest ↔ ∃ key, KeyAt cs key rest := by
  constructor
  · rintro ⟨_, h⟩
    unfold skipKey at h
    split at h
    · cases h
    · rename_i c r hcs
      split at h
      · rename_i hc
        obtain ⟨⟨s, hs⟩, hstring, h⟩ := bind_eq_ok_iff.mp h
        obtain ⟨us, hus⟩ := leaves_skipString_iff.mp ⟨hs, hstring⟩
        dsimp only at h
        split at h
        · cases h
        · rename_i d r' hcolon
          split at h
          · rename_i hd
            cases h
            exact ⟨us, .mk (hc ▸ (skipSpace_eq_cons_iff.mp hcs).2) hus
              (hd ▸ (skipSpace_eq_cons_iff.mp hcolon).2)⟩
          · cases h
      · cases h
  · rintro ⟨key, ⟨hopen, hkey, hcolon⟩⟩
    rename_i r s
    have hopen := skipSpace_eq_cons_iff.mpr ⟨by decide, hopen⟩
    have hcolon := skipSpace_eq_cons_iff.mpr ⟨by decide, hcolon⟩
    obtain ⟨hs, e⟩ := leaves_skipString_iff.mpr ⟨key, hkey⟩
    refine ⟨Nat.lt_trans (length_lt_of_skipSpace hcolon)
      (Nat.lt_trans hs (length_lt_of_skipSpace hopen)), ?_⟩
    unfold skipKey
    split
    · rename_i hnil
      rw [hopen] at hnil
      cases hnil
    · rename_i c r' hcons
      rw [hopen] at hcons
      obtain ⟨rfl, rfl⟩ := List.cons.inj hcons
      rw [if_pos rfl, e, bind_eq_ok_iff]
      refine ⟨_, rfl, ?_⟩
      dsimp only
      split
      · rename_i hnil
        rw [hcolon] at hnil
        cases hnil
      · rename_i d r' hcons
        rw [hcolon] at hcons
        obtain ⟨rfl, rfl⟩ := List.cons.inj hcons
        rw [if_pos rfl]

/-! ## Inside a container -/

section Containers

variable {cs r rest : List Char} {c : Char} {outer : List Bracket}

theorem afterOpening_of_skipSpace (b : Bracket) (h : skipSpace cs = c :: r) :
    afterOpening b cs =
      match b with
      | .list =>
        if c = ']' then .ok (.inl (.closed ⟨r, length_lt_of_skipSpace h⟩)) else .ok (.inr ())
      | .object =>
        if c = '}' then .ok (.inl (.closed ⟨r, length_lt_of_skipSpace h⟩))
        else (skipKey cs).map fun rest ↦ .inl (.value rest) := by
  unfold afterOpening
  split
  · rename_i hnil
    exact absurd (hnil.symm.trans h) (List.cons_ne_nil _ _).symm
  · rename_i c' r' hcons
    obtain ⟨rfl, rfl⟩ := List.cons.inj (hcons.symm.trans h)
    rfl

theorem afterValue_of_skipSpace (b : Bracket) (h : skipSpace cs = c :: r) :
    afterValue b cs =
      match b with
      | .list =>
        if c = ',' then .ok (.value ⟨r, length_lt_of_skipSpace h⟩)
        else if c = ']' then .ok (.closed ⟨r, length_lt_of_skipSpace h⟩)
        else .error .malformed
      | .object =>
        if c = ',' then (skipKey r).map fun rest ↦ .value (rest.within (length_lt_of_skipSpace h))
        else if c = '}' then .ok (.closed ⟨r, length_lt_of_skipSpace h⟩)
        else .error .malformed := by
  unfold afterValue
  split
  · rename_i hnil
    exact absurd (hnil.symm.trans h) (List.cons_ne_nil _ _).symm
  · rename_i c' r' hcons
    obtain ⟨rfl, rfl⟩ := List.cons.inj (hcons.symm.trans h)
    rfl

/-- The character that opens a container. -/
def Bracket.opening : Bracket → Char
  | .list => '['
  | .object => '\x7b'

/-- Behind an opening bracket, skipping goes on as `afterOpening` says, and leaves `rest`. -/
def GoesOn (b : Bracket) (outer : List Bracket) (cs : List Char) : Next cs ⊕ Unit → List Char → Prop
  | .inr (), rest => Leaves (skipNested (b :: outer) cs) rest
  | .inl (.value r), rest => Leaves (skipNested (b :: outer) r.1) rest
  | .inl (.closed r), rest => Leaves (skipRest outer r.1) rest

theorem skipNested_opening (b : Bracket) (h : skipSpace cs = b.opening :: r) :
    Leaves (skipNested outer cs) rest ↔
      ∃ x, afterOpening b r = .ok x ∧ GoesOn b outer r x rest := by
  have hbracket : (if b.opening = '[' then some Bracket.list
      else if b.opening = '\x7b' then some Bracket.object else none) = some b := by
    cases b <;> rfl
  rw [skipNested]
  split
  · rename_i hnil
    exact absurd (hnil.symm.trans h) (List.cons_ne_nil _ _).symm
  · rename_i c' r' hcons
    obtain ⟨rfl, rfl⟩ := List.cons.inj (hcons.symm.trans h)
    simp only [hbracket]
    rw [leaves_bind_iff]
    refine exists_congr fun x ↦ and_congr_right fun _ ↦ ?_
    obtain (s | s) | ⟨⟩ := x <;> exact leaves_map_iff fun _ ↦ by rfl

theorem skipNested_scalar (h : skipSpace cs = c :: r) (hlist : c ≠ '[') (hobject : c ≠ '\x7b') :
    Leaves (skipNested outer cs) rest ↔
      ∃ s, Leaves (skipScalar (c :: r)) s ∧ Leaves (skipRest outer s) rest := by
  rw [skipNested]
  split
  · rename_i hnil
    exact absurd (hnil.symm.trans h) (List.cons_ne_nil _ _).symm
  · rename_i c' r' hcons
    obtain ⟨rfl, rfl⟩ := List.cons.inj (hcons.symm.trans h)
    simp only [if_neg hlist, if_neg hobject]
    rw [leaves_bind_iff]
    constructor
    · rintro ⟨⟨s, hs⟩, hscalar, h⟩
      exact ⟨s, ⟨hs, hscalar⟩, (leaves_map_iff fun _ ↦ by rfl).mp h⟩
    · rintro ⟨s, ⟨hs, hscalar⟩, h⟩
      exact ⟨⟨s, hs⟩, hscalar, (leaves_map_iff fun _ ↦ by rfl).mpr h⟩

theorem skipRest_cons (b : Bracket) :
    Leaves (skipRest (b :: outer) cs) rest ↔
      ∃ x, afterValue b cs = .ok x ∧ GoesOn b outer cs (.inl x) rest := by
  rw [skipRest, leaves_bind_iff]
  refine exists_congr fun x ↦ and_congr_right fun _ ↦ ?_
  obtain s | s := x <;> exact leaves_map_iff fun _ ↦ by rfl

/-! ### What was read behind a bracket or a value -/

theorem of_afterOpening_list {x : Next cs ⊕ Unit} (h : afterOpening .list cs = .ok x) :
    x = .inr () ∨ ∃ s, x = .inl (.closed s) ∧ Space cs (']' :: s.1) := by
  unfold afterOpening at h
  split at h
  · cases h
  · rename_i c r hcs
    dsimp only at h
    split at h
    · rename_i hc
      cases h
      exact .inr ⟨_, rfl, hc ▸ (skipSpace_eq_cons_iff.mp hcs).2⟩
    · cases h
      exact .inl rfl

theorem of_afterOpening_object {x : Next cs ⊕ Unit} (h : afterOpening .object cs = .ok x) :
    (∃ s key, x = .inl (.value s) ∧ KeyAt cs key s.1) ∨
      ∃ s, x = .inl (.closed s) ∧ Space cs ('}' :: s.1) := by
  unfold afterOpening at h
  split at h
  · cases h
  · rename_i c r hcs
    dsimp only at h
    split at h
    · rename_i hc
      cases h
      exact .inr ⟨_, rfl, hc ▸ (skipSpace_eq_cons_iff.mp hcs).2⟩
    · obtain ⟨s, hs, h⟩ := bind_eq_ok_iff.mp h
      cases h
      obtain ⟨key, hkey⟩ := leaves_skipKey_iff.mp ⟨s.2, hs⟩
      exact .inl ⟨s, key, rfl, hkey⟩

theorem of_afterValue_list {x : Next cs} (h : afterValue .list cs = .ok x) :
    (∃ s, x = .value s ∧ Space cs (',' :: s.1)) ∨ ∃ s, x = .closed s ∧ Space cs (']' :: s.1) := by
  unfold afterValue at h
  split at h
  · cases h
  · rename_i c r hcs
    dsimp only at h
    split at h
    · rename_i hc
      cases h
      exact .inl ⟨_, rfl, hc ▸ (skipSpace_eq_cons_iff.mp hcs).2⟩
    · split at h
      · rename_i hc
        cases h
        exact .inr ⟨_, rfl, hc ▸ (skipSpace_eq_cons_iff.mp hcs).2⟩
      · cases h

theorem of_afterValue_object {x : Next cs} (h : afterValue .object cs = .ok x) :
    (∃ s key cs', x = .value s ∧ Space cs (',' :: cs') ∧ KeyAt cs' key s.1) ∨
      ∃ s, x = .closed s ∧ Space cs ('}' :: s.1) := by
  unfold afterValue at h
  split at h
  · cases h
  · rename_i c r hcs
    dsimp only at h
    split at h
    · rename_i hc
      obtain ⟨s, hs, h⟩ := bind_eq_ok_iff.mp h
      cases h
      obtain ⟨key, hkey⟩ := leaves_skipKey_iff.mp ⟨s.2, hs⟩
      exact .inl ⟨_, key, r, rfl, hc ▸ (skipSpace_eq_cons_iff.mp hcs).2, hkey⟩
    · split at h
      · rename_i hc
        cases h
        exact .inr ⟨_, rfl, hc ▸ (skipSpace_eq_cons_iff.mp hcs).2⟩
      · cases h

/-! ### Soundness -/

/-- What is skipped is a value, and then whatever closes the open containers. -/
theorem sound_skip (n : Nat) (cs : List Char) (hlen : cs.length = n) :
    (∀ outer rest, Leaves (skipNested outer cs) rest →
      ∃ t cs₁ cs₂, Space cs cs₁ ∧ ValueAt cs₁ t cs₂ ∧ Closes outer cs₂ rest) ∧
    ∀ outer rest, Leaves (skipRest outer cs) rest → Closes outer cs rest := by
  induction n using Nat.strongRecOn generalizing cs with
  | ind n ih =>
    subst hlen
    constructor
    · intro outer rest h
      cases hcs : skipSpace cs with
      | nil =>
        rw [skipNested] at h
        split at h
        · exact absurd h not_leaves_error
        · rename_i hcons
          rw [hcs] at hcons
          cases hcons
      | cons c r =>
        have hr := length_lt_of_skipSpace hcs
        have hspace := (skipSpace_eq_cons_iff.mp hcs).2
        -- A bracket opens one more container; only the text behind it has to close that one too.
        by_cases hlist : c = '['
        · subst hlist
          obtain ⟨x, hx, h⟩ := (skipNested_opening .list hcs).mp h
          obtain rfl | ⟨s, rfl, hs⟩ := of_afterOpening_list hx
          · obtain ⟨t, cs₁, cs₂, hspace', ht, hcloses⟩ := (ih _ hr r rfl).1 _ _ h
            cases hcloses with
            | list hts h => exact ⟨_, _, _, hspace, .list hspace' ht hts, h⟩
          · exact ⟨_, _, _, hspace, .emptyList hs, (ih _ (Nat.lt_trans s.2 hr) s.1 rfl).2 _ _ h⟩
        · by_cases hobject : c = '\x7b'
          · subst hobject
            obtain ⟨x, hx, h⟩ := (skipNested_opening .object hcs).mp h
            obtain ⟨s, key, rfl, hkey⟩ | ⟨s, rfl, hs⟩ := of_afterOpening_object hx
            · obtain ⟨t, cs₁, cs₂, hspace', ht, hcloses⟩ :=
                (ih _ (Nat.lt_trans s.2 hr) s.1 rfl).1 _ _ h
              cases hcloses with
              | object hms h => exact ⟨_, _, _, hspace, .object hkey hspace' ht hms, h⟩
            · exact ⟨_, _, _, hspace, .emptyObject hs,
                (ih _ (Nat.lt_trans s.2 hr) s.1 rfl).2 _ _ h⟩
          · obtain ⟨s, hs, h⟩ := (skipNested_scalar hcs hlist hobject).mp h
            obtain ⟨t, ht⟩ := valueAt_of_skipScalar hs
            have hlt : s.length < cs.length := Nat.lt_of_lt_of_le hs.1 (Nat.succ_le_of_lt hr)
            exact ⟨t, _, s, hspace, ht, (ih _ hlt s rfl).2 _ _ h⟩
    · intro outer rest h
      cases outer with
      | nil =>
        rw [skipRest, leaves_ok_iff] at h
        exact h ▸ .none cs
      | cons b outer =>
        -- Either the innermost container goes on with one more value, or it is closed here.
        obtain ⟨x, hx, h⟩ := (skipRest_cons b).mp h
        cases b with
        | list =>
          obtain ⟨s, rfl, hs⟩ | ⟨s, rfl, hs⟩ := of_afterValue_list hx
          · obtain ⟨t, cs₁, cs₂, hspace, ht, hcloses⟩ := (ih _ s.2 s.1 rfl).1 _ _ h
            cases hcloses with
            | list hts h => exact .list (.item hs hspace ht hts) h
          · exact .list (.close hs) ((ih _ s.2 s.1 rfl).2 _ _ h)
        | object =>
          obtain ⟨s, key, cs₀, rfl, hs, hkey⟩ | ⟨s, rfl, hs⟩ := of_afterValue_object hx
          · obtain ⟨t, cs₁, cs₂, hspace, ht, hcloses⟩ := (ih _ s.2 s.1 rfl).1 _ _ h
            cases hcloses with
            | object hms h => exact .object (.member hs hkey hspace ht hms) h
          · exact .object (.close hs) ((ih _ s.2 s.1 rfl).2 _ _ h)

/-! ### Completeness -/

theorem leaves_skipScalar_of_numeral {n : Numeral} (h : NumeralAt cs n rest)
    (hrest : EndsNumeral rest) : Leaves (skipScalar cs) rest := by
  obtain ⟨c, r, rfl, hc⟩ := h.begins
  have hquote : c ≠ '"' := by
    rintro rfl
    exact absurd hc (by decide)
  have hsign : c ≠ '-' := by
    rintro rfl
    exact absurd hc (by decide)
  rw [skipScalar, if_neg hquote, if_neg hsign, if_pos hc]
  exact leaves_skipNumeral h hrest

/-- A scalar behind white space is skipped, and then whatever follows it. -/
theorem skipNested_of_scalar {s : List Char} (hspace : Space cs (c :: r))
    (hc : isSpace c = false ∧ c ≠ '[' ∧ c ≠ '\x7b') (hs : Leaves (skipScalar (c :: r)) s)
    (hrest : Leaves (skipRest outer s) rest) : Leaves (skipNested outer cs) rest :=
  (skipNested_scalar (skipSpace_eq_cons_iff.mpr ⟨hc.1, hspace⟩) hc.2.1 hc.2.2).mpr ⟨s, hs, hrest⟩

mutual

/-- Any value is skipped if what follows it ends a numeral. -/
theorem ValueAt.skipNested {cs₀ cs s rest : List Char} {t : Tree} {outer : List Bracket}
    (h : ValueAt cs t s) (hspace : Space cs₀ cs) (hends : EndsNumeral s)
    (hrest : Leaves (skipRest outer s) rest) : Leaves (Json.skipNested outer cs₀) rest := by
  cases h with
  | null =>
    refine skipNested_of_scalar hspace (by decide) ⟨?_, rfl⟩ hrest
    simp only [Tail.whole, List.length_cons]
    omega
  | isTrue =>
    refine skipNested_of_scalar hspace (by decide) ⟨?_, rfl⟩ hrest
    simp only [Tail.whole, List.length_cons]
    omega
  | isFalse =>
    refine skipNested_of_scalar hspace (by decide) ⟨?_, rfl⟩ hrest
    simp only [Tail.whole, List.length_cons]
    omega
  | natural hn =>
    -- The only kind of value whose end is not marked: here it matters what follows.
    obtain ⟨c, r, rfl, hc⟩ := hn.begins
    refine skipNested_of_scalar hspace ⟨isSpace_of_isDigit hc, ?_, ?_⟩
      (leaves_skipScalar_of_numeral hn hends) hrest <;>
    · rintro rfl
      exact absurd hc (by decide)
  | negative hn =>
    refine skipNested_of_scalar hspace (by decide) ?_ hrest
    exact (leaves_map_iff fun _ ↦ by rfl).mpr (leaves_skipNumeral hn hends)
  | text hus =>
    refine skipNested_of_scalar hspace (by decide) ?_ hrest
    exact (leaves_map_iff fun _ ↦ by rfl).mpr (leaves_skipString_iff.mpr ⟨_, hus⟩)
  | emptyList hclose =>
    have hopen := skipSpace_eq_cons_iff.mpr ⟨by decide, hspace⟩
    have hcs := skipSpace_eq_cons_iff.mpr ⟨by decide, hclose⟩
    refine (skipNested_opening .list hopen).mpr ⟨_, afterOpening_of_skipSpace .list hcs, ?_⟩
    exact hrest
  | list hspace' ht hts =>
    have hopen := skipSpace_eq_cons_iff.mpr ⟨by decide, hspace⟩
    obtain ⟨c, r, rfl, hc, hne⟩ := ht.begins
    have hcs := skipSpace_eq_cons_iff.mpr ⟨hc, hspace'⟩
    refine (skipNested_opening .list hopen).mpr
      ⟨_, (afterOpening_of_skipSpace .list hcs).trans (if_neg hne), ?_⟩
    exact ht.skipNested hspace' hts.endsNumeral (hts.skipRest hrest)
  | emptyObject hclose =>
    have hopen := skipSpace_eq_cons_iff.mpr ⟨by decide, hspace⟩
    have hcs := skipSpace_eq_cons_iff.mpr ⟨by decide, hclose⟩
    refine (skipNested_opening .object hopen).mpr ⟨_, afterOpening_of_skipSpace .object hcs, ?_⟩
    exact hrest
  | object hkey hspace' ht hms =>
    have hopen := skipSpace_eq_cons_iff.mpr ⟨by decide, hspace⟩
    obtain ⟨hlt, e⟩ := leaves_skipKey_iff.mpr ⟨_, hkey⟩
    obtain ⟨hquote, -, -⟩ := hkey
    have hcs := skipSpace_eq_cons_iff.mpr ⟨by decide, hquote⟩
    refine (skipNested_opening .object hopen).mpr
      ⟨_, (afterOpening_of_skipSpace .object hcs).trans (by rw [e]; rfl), ?_⟩
    exact ht.skipNested hspace' hms.endsNumeral (hms.skipRest hrest)

theorem ItemsAt.skipRest {cs s rest : List Char} {ts : List Tree} {outer : List Bracket}
    (h : ItemsAt cs ts s) (hrest : Leaves (Json.skipRest outer s) rest) :
    Leaves (Json.skipRest (.list :: outer) cs) rest := by
  cases h with
  | close hclose =>
    have hcs := skipSpace_eq_cons_iff.mpr ⟨by decide, hclose⟩
    exact (skipRest_cons .list).mpr ⟨_, afterValue_of_skipSpace .list hcs, hrest⟩
  | item hcomma hspace ht hts =>
    have hcs := skipSpace_eq_cons_iff.mpr ⟨by decide, hcomma⟩
    exact (skipRest_cons .list).mpr ⟨_, afterValue_of_skipSpace .list hcs,
      ht.skipNested hspace hts.endsNumeral (hts.skipRest hrest)⟩

theorem MembersAt.skipRest {cs s rest : List Char} {ms : List (List Nat × Tree)}
    {outer : List Bracket} (h : MembersAt cs ms s) (hrest : Leaves (Json.skipRest outer s) rest) :
    Leaves (Json.skipRest (.object :: outer) cs) rest := by
  cases h with
  | close hclose =>
    have hcs := skipSpace_eq_cons_iff.mpr ⟨by decide, hclose⟩
    exact (skipRest_cons .object).mpr ⟨_, afterValue_of_skipSpace .object hcs, hrest⟩
  | member hcomma hkey hspace ht hms =>
    have hcs := skipSpace_eq_cons_iff.mpr ⟨by decide, hcomma⟩
    obtain ⟨hlt, e⟩ := leaves_skipKey_iff.mpr ⟨_, hkey⟩
    refine (skipRest_cons .object).mpr
      ⟨_, (afterValue_of_skipSpace .object hcs).trans (by rw [e]; rfl), ?_⟩
    exact ht.skipNested hspace hms.endsNumeral (hms.skipRest hrest)

end

end Containers

/-- **Skipping.** What is skipped is a value behind white space, whatever its depth. -/
theorem valueAt_of_skipValue {cs rest : List Char} (h : Leaves (skipValue cs) rest) :
    ∃ t cs', Space cs cs' ∧ ValueAt cs' t rest := by
  obtain ⟨t, cs', cs'', hspace, ht, ⟨⟩⟩ := (sound_skip _ cs rfl).1 [] rest h
  exact ⟨t, cs', hspace, ht⟩

theorem ValueAt.skipValue {cs cs' rest : List Char} {t : Tree} (h : ValueAt cs' t rest)
    (hspace : Space cs cs') (hends : EndsNumeral rest) : Leaves (Json.skipValue cs) rest := by
  refine h.skipNested hspace hends ?_
  rw [Json.skipRest, leaves_ok_iff]

end Conformance.Json
