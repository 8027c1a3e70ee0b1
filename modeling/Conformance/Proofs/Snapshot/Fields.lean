import Conformance.Proofs.Snapshot.ReadsAs
/-!
# Records that are filled in from an object

An object is read member by member into a draft of a record. What is needed of a record for that is
gathered in `Fields`; for every such record, an object is accepted exactly if each field that gets a
value stands in it once. Members that belong to no field may be any JSON, at any depth.
-/

namespace Conformance.Snapshot

open Json (Tree Space ValueAt MembersAt Finds EndsNumeral WellPaired units)

/-! ## Objects -/

/-- A key with its colon, the first of an object or a later one. -/
def MemberAt (first : Bool) (cs : List Char) (key : List Nat) (t : Tree) (rest : List Char) :
    Prop :=
  ∃ r r' cs', Precedes first cs r ∧ Json.KeyAt r key r' ∧ Space r' cs' ∧ ValueAt cs' t rest

/-- The members of an object with its closing brace, all of them or those behind a member. -/
def ObjectAt : Bool → List Char → List (List Nat × Tree) → List Char → Prop
  | true, cs, ms, rest => ValueAt ('\x7b' :: cs) (.object ms) rest
  | false, cs, ms, rest => MembersAt cs ms rest

theorem objectAt_nil_iff {first : Bool} {cs rest : List Char} :
    ObjectAt first cs [] rest ↔ Space cs ('}' :: rest) := by
  cases first with
  | true =>
    constructor
    · intro h
      cases h with
      | emptyObject h => exact h
    · exact .emptyObject
  | false =>
    constructor
    · intro h
      cases h with
      | close h => exact h
    · exact .close

theorem objectAt_cons_iff {first : Bool} {cs rest : List Char} {key : List Nat} {t : Tree}
    {ms : List (List Nat × Tree)} :
    ObjectAt first cs ((key, t) :: ms) rest ↔
      ∃ r, MemberAt first cs key t r ∧ ObjectAt false r ms rest := by
  cases first with
  | true =>
    constructor
    · intro h
      cases h with
      | object hkey hspace ht hms => exact ⟨_, ⟨_, _, _, rfl, hkey, hspace, ht⟩, hms⟩
    · rintro ⟨r, ⟨_, _, _, rfl, hkey, hspace, ht⟩, hms⟩
      exact .object hkey hspace ht hms
  | false =>
    constructor
    · intro h
      cases h with
      | member hcomma hkey hspace ht hms => exact ⟨_, ⟨_, _, _, hcomma, hkey, hspace, ht⟩, hms⟩
    · rintro ⟨r, ⟨_, _, _, hcomma, hkey, hspace, ht⟩, hms⟩
      exact .member hcomma hkey hspace ht hms

theorem exists_objectAt {cs rest : List Char} {ms : List (List Nat × Tree)}
    (h : ValueAt cs (.object ms) rest) : ∃ r, cs = '\x7b' :: r ∧ ObjectAt true r ms rest := by
  cases h with
  | emptyObject h => exact ⟨_, rfl, .emptyObject h⟩
  | object hkey hspace ht hms => exact ⟨_, rfl, .object hkey hspace ht hms⟩

theorem ObjectAt.endsNumeral {cs rest : List Char} {ms : List (List Nat × Tree)}
    (h : ObjectAt false cs ms rest) : EndsNumeral cs := MembersAt.endsNumeral h

section NextMember

variable {cs rest : List Char}

theorem of_readKey {r : List Char} {h : r.length < cs.length} {x : ObjectNext cs}
    (hx : readKey r h = .ok x) :
    ∃ key s, x = .member key s ∧ Json.Body r (units key) s.1 := by
  obtain ⟨⟨key, s, hs⟩, hkey, hx⟩ := bind_eq_ok_iff.mp hx
  rw [plainly_eq_ok_iff] at hkey
  cases hx
  exact ⟨key, _, rfl, Json.body_of_finds ⟨hs, hkey⟩⟩

theorem of_nextMember {first : Bool} {x : ObjectNext cs} (h : nextMember first cs = .ok x) :
    (∃ s, x = .closed s ∧ Space cs ('}' :: s.1)) ∨
      ∃ key s r cs', x = .member key s ∧ Precedes first cs r ∧ Space r ('"' :: cs') ∧
        Json.Body cs' (units key) s.1 := by
  unfold nextMember at h
  split at h
  · cases h
  · rename_i c r hcs
    have hspace := (Json.skipSpace_eq_cons_iff.mp hcs).2
    dsimp only at h
    split at h
    · rename_i hc
      cases h
      exact .inl ⟨_, rfl, hc ▸ hspace⟩
    · split at h
      · rename_i hfirst
        subst hfirst
        split at h
        · rename_i hc
          obtain ⟨key, s, rfl, hkey⟩ := of_readKey h
          exact .inr ⟨key, s, cs, r, rfl, rfl, hc ▸ hspace, hkey⟩
        · cases h
      · rename_i hfirst
        rw [Bool.not_eq_true] at hfirst
        subst hfirst
        split at h
        · rename_i hc
          split at h
          · cases h
          · rename_i d r' hr
            split at h
            · rename_i hd
              obtain ⟨key, s, rfl, hkey⟩ := of_readKey h
              exact .inr ⟨key, s, r, r', rfl, (hc ▸ hspace : Space cs (',' :: r)),
                hd ▸ (Json.skipSpace_eq_cons_iff.mp hr).2, hkey⟩
            · cases h
        · cases h

theorem nextMember_of_closed {first : Bool} (h : Space cs ('}' :: rest)) :
    ∃ hlt, nextMember first cs = .ok (.closed ⟨rest, hlt⟩) := by
  have hcs := Json.skipSpace_eq_cons_iff.mpr ⟨by decide, h⟩
  exact ⟨_, by rw [nextMember_of_skipSpace first hcs, if_pos rfl]⟩

theorem nextMember_of_key {first : Bool} {r cs' key : List Char} (hprecedes : Precedes first cs r)
    (hspace : Space r ('"' :: cs')) (hkey : Json.Body cs' (units key) rest) :
    ∃ hlt, nextMember first cs = .ok (.member key ⟨rest, hlt⟩) := by
  have hr := Json.skipSpace_eq_cons_iff.mpr ⟨by decide, hspace⟩
  cases first with
  | true =>
    cases hprecedes
    rw [nextMember_of_skipSpace true hr, if_neg (by decide), if_pos rfl, if_pos rfl]
    exact readKey_eq _ (Json.finds_of_body hkey)
  | false =>
    have hcs := Json.skipSpace_eq_cons_iff.mpr ⟨by decide, hprecedes⟩
    rw [nextMember_of_skipSpace false hcs, if_neg (by decide), if_neg (by decide), if_pos rfl]
    split
    · rename_i hnil
      rw [hr] at hnil
      cases hnil
    · rename_i d s hcons
      rw [hr] at hcons
      obtain ⟨rfl, rfl⟩ := List.cons.inj hcons
      rw [if_pos rfl]
      exact readKey_eq _ (Json.finds_of_body hkey)

theorem leaves_colon_iff : Json.Leaves (colon cs) rest ↔ Space cs (':' :: rest) := by
  constructor
  · rintro ⟨_, h⟩
    unfold colon at h
    split at h
    · cases h
    · rename_i c r hcs
      split at h
      · rename_i hc
        cases h
        exact hc ▸ (Json.skipSpace_eq_cons_iff.mp hcs).2
      · cases h
  · intro h
    have hcs := Json.skipSpace_eq_cons_iff.mpr ⟨by decide, h⟩
    exact ⟨_, by rw [colon_of_skipSpace hcs, if_pos rfl]⟩

end NextMember

/-! ### Records that are filled in -/

/-- What makes `m` fill in a record with the fields `φ`: each field has a value in a draft or none
yet, and is read by a reader of its own. -/
structure Fields {φ δ : Type} (m : Members φ δ) where
  Value : φ → Type
  get : δ → (f : φ) → Option (Value f)
  set : δ → (f : φ) → Value f → δ
  get_set_self : ∀ d f v, get (set d f v) f = some v
  get_set_of_ne : ∀ d f v g, g ≠ f → get (set d f v) g = get d g
  ext : ∀ d d', (∀ f, get d f = get d' f) → d = d'
  /-- The values that a field is read from. -/
  Holds : (f : φ) → Tree → Value f → Prop
  reads : ∀ d f, ReadsAs (m.read d f) fun t d' ↦ ∃ v, Holds f t v ∧ d' = set d f v
  isSet_iff : ∀ d f, m.isSet d f = true ↔ get d f ≠ none
  field?_eq_some_iff : ∀ key f, m.field? key = some f ↔ key = (m.name f).toList

section Fields

variable {φ δ : Type} {m : Members φ δ} (F : Fields m) {d d' : δ} {ms : List (List Nat × Tree)}

/-- The members fill in `d` to `d'`: each field either stands nowhere among them and stays as it is,
or it had no value and stands there exactly once. -/
def Fields.Fills (ms : List (List Nat × Tree)) (d d' : δ) : Prop :=
  ∀ f, ((∀ e ∈ ms, e.1 ≠ keyOf (m.name f)) ∧ F.get d' f = F.get d f) ∨
    F.get d f = none ∧ ∃ v, F.get d' f = some v ∧ Once ms (keyOf (m.name f)) (F.Holds f · v)

theorem Fields.fills_nil_iff : F.Fills [] d d' ↔ d' = d := by
  constructor
  · intro h
    refine F.ext _ _ fun f ↦ ?_
    obtain ⟨-, h⟩ | ⟨-, v, -, t, ht, -⟩ := h f
    · exact h
    · cases ht
  · rintro rfl f
    exact .inl ⟨List.forall_mem_nil _, rfl⟩

/-- A member that belongs to no field fills in nothing. -/
theorem Fields.fills_cons_ignored {key : List Nat} {t : Tree}
    (hkey : ∀ f, key ≠ keyOf (m.name f)) : F.Fills ((key, t) :: ms) d d' ↔ F.Fills ms d d' := by
  refine forall_congr' fun f ↦ ?_
  simp only [once_cons_of_ne (hkey f), List.forall_mem_cons, ne_eq, hkey f, not_false_eq_true,
    true_and]

include F in
theorem Fields.name_inj {f g : φ} (h : keyOf (m.name f) = keyOf (m.name g)) : f = g := by
  have hf := (F.field?_eq_some_iff _ f).mpr rfl
  rw [keyOf_inj h, (F.field?_eq_some_iff _ g).mpr rfl] at hf
  exact (Option.some.inj hf).symm

/-- A member that belongs to a field gives it its first value. -/
theorem Fields.fills_cons_field {f : φ} {t : Tree} :
    F.Fills ((keyOf (m.name f), t) :: ms) d d' ↔
      F.get d f = none ∧ ∃ v, F.Holds f t v ∧ F.Fills ms (F.set d f v) d' := by
  constructor
  · intro h
    obtain ⟨hnot, -⟩ | ⟨hnone, v, hv, honce⟩ := h f
    · exact absurd rfl (hnot _ List.mem_cons_self)
    · obtain ⟨hholds, hnot⟩ := once_cons_self.mp honce
      refine ⟨hnone, v, hholds, fun g ↦ ?_⟩
      -- The field has its value now, so it must not come again; the others are as before.
      by_cases hg : g = f
      · subst hg
        exact .inl ⟨hnot, by rw [hv, F.get_set_self]⟩
      · have hne : keyOf (m.name f) ≠ keyOf (m.name g) := fun h ↦ hg (F.name_inj h).symm
        rw [F.get_set_of_ne _ _ _ _ hg]
        obtain ⟨hnot, h⟩ | ⟨hnone, w, hw, honce⟩ := h g
        · exact .inl ⟨(List.forall_mem_cons.mp hnot).2, h⟩
        · exact .inr ⟨hnone, w, hw, (once_cons_of_ne hne).mp honce⟩
  · rintro ⟨hnone, v, hholds, h⟩ g
    by_cases hg : g = f
    · subst hg
      obtain ⟨hnot, h⟩ | ⟨hset, -⟩ := h g
      · rw [F.get_set_self] at h
        exact .inr ⟨hnone, v, h, once_cons_self.mpr ⟨hholds, hnot⟩⟩
      · rw [F.get_set_self] at hset
        cases hset
    · have hne : keyOf (m.name f) ≠ keyOf (m.name g) := fun h ↦ hg (F.name_inj h).symm
      have h := h g
      rw [F.get_set_of_ne _ _ _ _ hg] at h
      obtain ⟨hnot, h⟩ | ⟨hnone, w, hw, honce⟩ := h
      · exact .inl ⟨List.forall_mem_cons.mpr ⟨hne, hnot⟩, h⟩
      · exact .inr ⟨hnone, w, hw, (once_cons_of_ne hne).mpr honce⟩

/-- A member turns the draft `d` into `d'`: it gives the field of its key a first value, or it
belongs to no field. -/
def Fields.Takes (key : List Char) (t : Tree) (d d' : δ) : Prop :=
  (∃ f v, key = (m.name f).toList ∧ F.get d f = none ∧ F.Holds f t v ∧ d' = F.set d f v) ∨
    (∀ f, key ≠ (m.name f).toList) ∧ d' = d

theorem Fields.fills_cons_iff {key : List Char} {t : Tree} :
    F.Fills ((units key, t) :: ms) d d' ↔ ∃ d₁, F.Takes key t d d₁ ∧ F.Fills ms d₁ d' := by
  by_cases hkey : ∃ f, key = (m.name f).toList
  · obtain ⟨f, rfl⟩ := hkey
    refine F.fills_cons_field.trans ⟨?_, ?_⟩
    · rintro ⟨hnone, v, hholds, h⟩
      exact ⟨_, .inl ⟨f, v, rfl, hnone, hholds, rfl⟩, h⟩
    · rintro ⟨d₁, ⟨g, v, hg, hnone, hholds, rfl⟩ | ⟨hnot, -⟩, h⟩
      · obtain rfl : f = g := F.name_inj (congrArg units hg)
        exact ⟨hnone, v, hholds, h⟩
      · exact absurd rfl (hnot f)
  · have hnot : ∀ f, key ≠ (m.name f).toList := fun f h ↦ hkey ⟨f, h⟩
    refine (F.fills_cons_ignored fun f h ↦ hnot f (Json.units_inj h)).trans ⟨?_, ?_⟩
    · exact fun h ↦ ⟨d, .inr ⟨hnot, rfl⟩, h⟩
    · rintro ⟨d₁, ⟨f, v, hf, -⟩ | ⟨-, rfl⟩, h⟩
      · exact absurd hf (hnot f)
      · exact h

include F in
theorem Fields.field?_eq_none_iff {key : List Char} :
    m.field? key = none ↔ ∀ f, key ≠ (m.name f).toList := by
  rw [Option.eq_none_iff_forall_ne_some]
  exact forall_congr' fun f ↦ not_congr (F.field?_eq_some_iff key f)

variable {cs rest : List Char} {key : List Char}

theorem Fields.of_readMember (h : Finds (readMember m d key cs) d' rest) :
    ∃ cs₁ cs₂ t, Space cs (':' :: cs₁) ∧ Space cs₁ cs₂ ∧ ValueAt cs₂ t rest ∧
      F.Takes key t d d' := by
  unfold Snapshot.readMember at h
  split at h
  · rename_i f hf
    split at h
    · exact absurd h Json.not_finds_error
    · rename_i hset
      obtain ⟨⟨r, hr⟩, hcolon, h⟩ := Json.finds_bind_iff.mp h
      obtain ⟨⟨d₁, r', hr'⟩, hvalue, h⟩ := Json.finds_bind_iff.mp h
      obtain ⟨rfl, rfl⟩ := Json.finds_ok_iff.mp h
      obtain ⟨t, cs', hspace, ht, v, hholds, hd⟩ := (F.reads d f).sound ⟨hr', hvalue⟩
      have hnone : F.get d f = none := Decidable.not_not.mp fun hne ↦
        hset ((F.isSet_iff d f).mpr hne)
      exact ⟨r, cs', t, leaves_colon_iff.mp ⟨hr, hcolon⟩, hspace, ht,
        .inl ⟨f, v, (F.field?_eq_some_iff key f).mp hf, hnone, hholds, hd⟩⟩
  · rename_i hf
    obtain ⟨⟨r, hr⟩, hcolon, h⟩ := Json.finds_bind_iff.mp h
    obtain ⟨⟨r', hr'⟩, hvalue, h⟩ := Json.finds_bind_iff.mp h
    obtain ⟨rfl, rfl⟩ := Json.finds_ok_iff.mp h
    obtain ⟨t, cs', hspace, ht⟩ :=
      Json.valueAt_of_skipValue ⟨hr', plainly_eq_ok_iff.mp hvalue⟩
    exact ⟨r, cs', t, leaves_colon_iff.mp ⟨hr, hcolon⟩, hspace, ht,
      .inr ⟨F.field?_eq_none_iff.mp hf, rfl⟩⟩

theorem Fields.readMember {cs₁ cs₂ : List Char} {t : Tree} (hcolon : Space cs (':' :: cs₁))
    (hspace : Space cs₁ cs₂) (ht : ValueAt cs₂ t rest) (hends : EndsNumeral rest)
    (htakes : F.Takes key t d d') : Finds (Snapshot.readMember m d key cs) d' rest := by
  obtain ⟨hlt, e⟩ := leaves_colon_iff.mpr hcolon
  obtain ⟨f, v, hf, hnone, hholds, rfl⟩ | ⟨hnot, rfl⟩ := htakes
  · obtain ⟨hlt', e'⟩ := (F.reads d f).complete hspace ht hends ⟨v, hholds, rfl⟩
    have hset : ¬ m.isSet d f = true := by
      rw [F.isSet_iff, hnone]
      exact fun h ↦ h rfl
    refine ⟨Nat.lt_trans hlt' hlt, ?_⟩
    rw [Snapshot.readMember, (F.field?_eq_some_iff key f).mpr hf]
    dsimp only
    rw [if_neg hset, e]
    change (m.read d f cs₁ >>= _) = _
    rw [e']
    rfl
  · obtain ⟨hlt', e'⟩ := ht.skipValue hspace hends
    refine ⟨Nat.lt_trans hlt' hlt, ?_⟩
    rw [Snapshot.readMember, F.field?_eq_none_iff.mpr hnot]
    dsimp only
    rw [e]
    change (plainly (Json.skipValue cs₁) >>= _) = _
    rw [e']
    rfl

/-- An object that is read fills in the draft as its members say. -/
theorem Fields.of_readMembers {first : Bool} (n : Nat) (hlen : cs.length = n)
    (h : Finds (readMembers m d first cs) d' rest) :
    ∃ ms, ObjectAt first cs ms rest ∧ (∀ e ∈ ms, WellPaired e.1) ∧ F.Fills ms d d' := by
  -- A skipped member has no bound but the text, so the induction is on the length of the text.
  induction n using Nat.strongRecOn generalizing cs first d with
  | ind n ih =>
    subst hlen
    rw [Snapshot.readMembers] at h
    obtain ⟨x, hx, h⟩ := Json.finds_bind_iff.mp h
    obtain ⟨s, rfl, hs⟩ | ⟨key, ⟨s, hs⟩, r, cs', rfl, hprecedes, hspace, hkey⟩ := of_nextMember hx
    · obtain ⟨rfl, rfl⟩ := Json.finds_ok_iff.mp h
      exact ⟨[], objectAt_nil_iff.mpr hs, List.forall_mem_nil _, F.fills_nil_iff.mpr rfl⟩
    · obtain ⟨⟨d₁, r', hr'⟩, hmember, h⟩ := Json.finds_bind_iff.mp h
      obtain ⟨⟨d₂, r'', hr''⟩, hmembers, h⟩ := Json.finds_bind_iff.mp h
      obtain ⟨rfl, rfl⟩ := Json.finds_ok_iff.mp h
      obtain ⟨cs₁, cs₂, t, hcolon, hspace', ht, htakes⟩ := F.of_readMember ⟨hr', hmember⟩
      obtain ⟨ms, hms, hpaired, hfills⟩ := ih _ (Nat.lt_trans hr' hs) rfl ⟨hr'', hmembers⟩
      refine ⟨(units key, t) :: ms, objectAt_cons_iff.mpr ⟨r', ?_, hms⟩,
        List.forall_mem_cons.mpr ⟨⟨key, rfl⟩, hpaired⟩, F.fills_cons_iff.mpr ⟨d₁, htakes, hfills⟩⟩
      exact ⟨r, cs₁, cs₂, hprecedes, .mk hspace hkey hcolon, hspace', ht⟩

/-- An object whose members fill in the draft is read. -/
theorem Fields.readMembers {first : Bool} (h : ObjectAt first cs ms rest)
    (hpaired : ∀ e ∈ ms, WellPaired e.1) (hfills : F.Fills ms d d') :
    Finds (Snapshot.readMembers m d first cs) d' rest := by
  induction ms generalizing cs first d with
  | nil =>
    cases F.fills_nil_iff.mp hfills
    obtain ⟨hlt, e⟩ := nextMember_of_closed (objectAt_nil_iff.mp h)
    refine ⟨hlt, ?_⟩
    rw [Snapshot.readMembers, e]
    rfl
  | cons e ms ih =>
    obtain ⟨us, t⟩ := e
    obtain ⟨⟨key, rfl⟩, hpaired'⟩ := List.forall_mem_cons.mp hpaired
    obtain ⟨r, ⟨r', r'', cs', hprecedes, ⟨hopen, hkey, hcolon⟩, hspace, ht⟩, hms⟩ :=
      objectAt_cons_iff.mp h
    obtain ⟨d₁, htakes, hfills⟩ := F.fills_cons_iff.mp hfills
    obtain ⟨hlt, hnext⟩ := nextMember_of_key hprecedes hopen hkey
    exact readMembers_member hnext (F.readMember hcolon hspace ht hms.endsNumeral htakes)
      (ih hms hpaired' hfills)

end Fields

theorem need_eq_ok_iff {α : Type} {field : String} {unread : List Char} {o : Option α} {a : α} :
    need field unread o = .ok a ↔ o = some a := by
  cases o with
  | none => exact iff_of_false nofun nofun
  | some b => exact ⟨fun h ↦ congrArg some (Except.ok.inj h), by rintro ⟨⟩; rfl⟩

/-- In an object that fills in an empty draft, a field that has a value stands exactly once. -/
theorem Fields.Fills.once {φ δ : Type} {m : Members φ δ} {F : Fields m} {d d' : δ}
    {ms : List (List Nat × Tree)} (h : F.Fills ms d d') {f : φ} {v : F.Value f}
    (hnone : F.get d f = none) (hv : F.get d' f = some v) :
    Once ms (keyOf (m.name f)) (F.Holds f · v) := by
  obtain ⟨-, hsame⟩ | ⟨-, w, hw, honce⟩ := h f
  · rw [hsame, hnone] at hv
    cases hv
  · rw [hw] at hv
    cases hv
    exact honce

end Conformance.Snapshot
