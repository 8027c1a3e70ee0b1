import Conformance.Proofs.Snapshot.Fields
/-!
# Which texts are read as a tally

Failure samples and tallies are read in two forms, as an object by the general rule for records, or
as a list of their fields. A whole snapshot is a tally with white space around it, so what is read
is decided by the shape of the one JSON value that the text spells.
-/

namespace Conformance.Snapshot

open Json (Tree Space ValueAt Finds EndsNumeral units)

/-! ## Failure samples -/

/-- The fields of a failure sample. -/
def sampleFields : Fields sampleMembers where
  Value _ := String
  get
    | d, .test => d.test
    | d, .error => d.error
  set
    | d, .test, s => { d with test := some s }
    | d, .error, s => { d with error := some s }
  get_set_self d f v := by cases f <;> rfl
  get_set_of_ne d f v g hne := by cases f <;> cases g <;> first | rfl | exact absurd rfl hne
  ext d d' h := by
    obtain ⟨test, error⟩ := d
    obtain ⟨test', error'⟩ := d'
    cases h .test
    cases h .error
    rfl
  Holds _ := IsText
  reads d f := by
    cases f with
    | test => exact readsAs_text.map fun s ↦ { d with test := some s }
    | error => exact readsAs_text.map fun s ↦ { d with error := some s }
  isSet_iff d f := by cases f <;> exact Option.isSome_iff_ne_none
  field?_eq_some_iff key f := by
    constructor
    · intro h
      have hname := List.find?_some h
      exact (of_decide_eq_true hname).symm
    · rintro rfl
      cases f <;> decide

theorem readsAs_sample : ReadsAs readSample IsSample where
  sound h := by
    obtain ⟨c, r, hcs, h⟩ := finds_behindSpace_iff.mp h
    have hspace := (Json.skipSpace_eq_cons_iff.mp hcs).2
    split at h
    · rename_i hc
      subst hc
      obtain ⟨s, hs, rfl⟩ := (Json.finds_map_iff (g := id) fun _ ↦ ⟨by rfl, by rfl⟩).mp h
      obtain ⟨⟨test, r₁, hr₁⟩, htest, hs⟩ := Json.finds_bind_iff.mp hs
      obtain ⟨⟨error, r₂, hr₂⟩, herror, hs⟩ := Json.finds_bind_iff.mp hs
      obtain ⟨⟨r₃, hr₃⟩, hclose, hs⟩ := Json.finds_bind_iff.mp hs
      obtain ⟨rfl, rfl⟩ := Json.finds_ok_iff.mp hs
      obtain ⟨t₁, ht₁, htext₁⟩ := readsAs_text.of_readField ⟨hr₁, htest⟩
      obtain ⟨t₂, ht₂, htext₂⟩ := readsAs_text.of_readField ⟨hr₂, herror⟩
      have hend : ElementsAt false r₂ [] r₃ :=
        elementsAt_nil_iff.mpr (leaves_closeFields_iff.mp ⟨hr₃, hclose⟩)
      have hlist : ElementsAt true r [t₁, t₂] r₃ :=
        elementsAt_cons_iff.mpr ⟨_, ht₁, elementsAt_cons_iff.mpr ⟨_, ht₂, hend⟩⟩
      exact ⟨_, _, hspace, hlist, .list htext₁ htext₂⟩
    · split at h
      · rename_i hc
        subst hc
        obtain ⟨s, hs, rfl⟩ := (Json.finds_map_iff (g := id) fun _ ↦ ⟨by rfl, by rfl⟩).mp h
        obtain ⟨⟨d, r₁, hr₁⟩, hd, hs⟩ := Json.finds_bind_iff.mp hs
        obtain ⟨test, htest, hs⟩ := Json.finds_bind_iff.mp hs
        obtain ⟨error, herror, hs⟩ := Json.finds_bind_iff.mp hs
        obtain ⟨rfl, rfl⟩ := Json.finds_ok_iff.mp hs
        obtain ⟨ms, hms, hkeys, hfills⟩ := sampleFields.of_readMembers _ rfl ⟨hr₁, hd⟩
        exact ⟨_, _, hspace, hms, .object hkeys
          (hfills.once (f := .test) rfl (need_eq_ok_iff.mp htest))
          (hfills.once (f := .error) rfl (need_eq_ok_iff.mp herror))⟩
      · exact absurd h not_finds_unexpected
  complete hspace ht hends hP := by
    cases hP with
    | object hkeys htest herror =>
      rename_i s ms
      obtain ⟨r, rfl, hms⟩ := exists_objectAt ht
      have hfills : sampleFields.Fills ms {} ⟨some s.test, some s.error⟩ := by
        rintro (_ | _)
        · exact .inr ⟨rfl, _, rfl, htest⟩
        · exact .inr ⟨rfl, _, rfl, herror⟩
      obtain ⟨hlt, e⟩ := sampleFields.readMembers hms hkeys hfills
      refine finds_behindSpace (Json.skipSpace_eq_cons_iff.mpr ⟨by decide, hspace⟩) ?_
      rw [if_neg (by decide), if_pos rfl]
      refine finds_cons id '\x7b' ⟨hlt, ?_⟩
      rw [readSampleMembers, e]
      rfl
    | list htest herror =>
      obtain ⟨r, rfl, hts⟩ := exists_elementsAt ht
      obtain ⟨r₁, ht₁, hts₁⟩ := elementsAt_cons_iff.mp hts
      obtain ⟨r₂, ht₂, hts₂⟩ := elementsAt_cons_iff.mp hts₁
      obtain ⟨h₁, e₁⟩ := readsAs_text.readField .sample 0 ht₁ hts₁.endsNumeral htest
      obtain ⟨h₂, e₂⟩ := readsAs_text.readField .sample 1 ht₂ hts₂.endsNumeral herror
      obtain ⟨h₃, e₃⟩ := leaves_closeFields_iff.mpr (elementsAt_nil_iff.mp hts₂)
      refine finds_behindSpace (Json.skipSpace_eq_cons_iff.mpr ⟨by decide, hspace⟩) ?_
      rw [if_pos rfl]
      refine finds_cons id '[' ⟨Nat.lt_trans h₃ (Nat.lt_trans h₂ h₁), ?_⟩
      rw [readSampleFields, e₁]
      change (readField .sample 1 readText r₁ >>= _) = _
      rw [e₂]
      change (closeFields r₂ >>= _) = _
      rw [e₃]
      rfl

/-! ## Tallies -/

theorem readsAs_samples : ReadsAs (readList readSample) IsSamples := readsAs_sample.list

/-- What a field of a tally holds. -/
def TallyField.Value : TallyField → Type
  | .failures => List FailureSample
  | _ => UInt64

/-- The fields of a tally. -/
def tallyFields : Fields tallyMembers where
  Value := TallyField.Value
  get
    | d, .passed => d.passed
    | d, .failed => d.failed
    | d, .skipped => d.skipped
    | d, .total => d.total
    | d, .failures => d.failures
  set
    | d, .passed, n => { d with passed := some n }
    | d, .failed, n => { d with failed := some n }
    | d, .skipped, n => { d with skipped := some n }
    | d, .total, n => { d with total := some n }
    | d, .failures, fs => { d with failures := some fs }
  get_set_self d f v := by cases f <;> rfl
  get_set_of_ne d f v g hne := by cases f <;> cases g <;> first | rfl | exact absurd rfl hne
  ext d d' h := by
    obtain ⟨passed, failed, skipped, total, failures⟩ := d
    obtain ⟨passed', failed', skipped', total', failures'⟩ := d'
    cases h .passed
    cases h .failed
    cases h .skipped
    cases h .total
    cases h .failures
    rfl
  Holds
    | .passed => IsCount
    | .failed => IsCount
    | .skipped => IsCount
    | .total => IsCount
    | .failures => IsSamples
  reads d f := by
    cases f with
    | passed => exact readsAs_count.map fun n ↦ { d with passed := some n }
    | failed => exact readsAs_count.map fun n ↦ { d with failed := some n }
    | skipped => exact readsAs_count.map fun n ↦ { d with skipped := some n }
    | total => exact readsAs_count.map fun n ↦ { d with total := some n }
    | failures => exact readsAs_samples.map fun fs ↦ { d with failures := some fs }
  isSet_iff d f := by cases f <;> exact Option.isSome_iff_ne_none
  field?_eq_some_iff key f := by
    constructor
    · intro h
      have hname := List.find?_some h
      exact (of_decide_eq_true hname).symm
    · rintro rfl
      cases f <;> decide

theorem tallyOf_eq {r : Tally} (h : r.sampleLimit = 50) :
    tallyOf r.passed r.failed r.skipped r.total r.failures.toList = r := by
  rw [tallyOf, defaultSampleLimit, ← h]

theorem readsAs_tally : ReadsAs readTally IsTally where
  sound h := by
    obtain ⟨c, r, hcs, h⟩ := finds_behindSpace_iff.mp h
    have hspace := (Json.skipSpace_eq_cons_iff.mp hcs).2
    split at h
    · rename_i hc
      subst hc
      obtain ⟨s, hs, rfl⟩ := (Json.finds_map_iff (g := id) fun _ ↦ ⟨by rfl, by rfl⟩).mp h
      obtain ⟨⟨passed, r₁, hr₁⟩, hpassed, hs⟩ := Json.finds_bind_iff.mp hs
      obtain ⟨⟨failed, r₂, hr₂⟩, hfailed, hs⟩ := Json.finds_bind_iff.mp hs
      obtain ⟨⟨skipped, r₃, hr₃⟩, hskipped, hs⟩ := Json.finds_bind_iff.mp hs
      obtain ⟨⟨total, r₄, hr₄⟩, htotal, hs⟩ := Json.finds_bind_iff.mp hs
      obtain ⟨⟨failures, r₅, hr₅⟩, hfailures, hs⟩ := Json.finds_bind_iff.mp hs
      obtain ⟨⟨r₆, hr₆⟩, hclose, hs⟩ := Json.finds_bind_iff.mp hs
      obtain ⟨rfl, rfl⟩ := Json.finds_ok_iff.mp hs
      obtain ⟨t₁, ht₁, hcount₁⟩ := readsAs_count.of_readField ⟨hr₁, hpassed⟩
      obtain ⟨t₂, ht₂, hcount₂⟩ := readsAs_count.of_readField ⟨hr₂, hfailed⟩
      obtain ⟨t₃, ht₃, hcount₃⟩ := readsAs_count.of_readField ⟨hr₃, hskipped⟩
      obtain ⟨t₄, ht₄, hcount₄⟩ := readsAs_count.of_readField ⟨hr₄, htotal⟩
      obtain ⟨t₅, ht₅, hsamples⟩ := readsAs_samples.of_readField ⟨hr₅, hfailures⟩
      have hend : ElementsAt false r₅ [] r₆ :=
        elementsAt_nil_iff.mpr (leaves_closeFields_iff.mp ⟨hr₆, hclose⟩)
      have hlist : ElementsAt true r [t₁, t₂, t₃, t₄, t₅] r₆ := by
        refine elementsAt_cons_iff.mpr ⟨_, ht₁, elementsAt_cons_iff.mpr ⟨_, ht₂, ?_⟩⟩
        refine elementsAt_cons_iff.mpr ⟨_, ht₃, elementsAt_cons_iff.mpr ⟨_, ht₄, ?_⟩⟩
        exact elementsAt_cons_iff.mpr ⟨_, ht₅, hend⟩
      exact ⟨_, _, hspace, hlist, .list hcount₁ hcount₂ hcount₃ hcount₄ hsamples rfl⟩
    · split at h
      · rename_i hc
        subst hc
        obtain ⟨s, hs, rfl⟩ := (Json.finds_map_iff (g := id) fun _ ↦ ⟨by rfl, by rfl⟩).mp h
        obtain ⟨⟨d, r₁, hr₁⟩, hd, hs⟩ := Json.finds_bind_iff.mp hs
        obtain ⟨passed, hpassed, hs⟩ := Json.finds_bind_iff.mp hs
        obtain ⟨failed, hfailed, hs⟩ := Json.finds_bind_iff.mp hs
        obtain ⟨skipped, hskipped, hs⟩ := Json.finds_bind_iff.mp hs
        obtain ⟨total, htotal, hs⟩ := Json.finds_bind_iff.mp hs
        obtain ⟨failures, hfailures, hs⟩ := Json.finds_bind_iff.mp hs
        obtain ⟨rfl, rfl⟩ := Json.finds_ok_iff.mp hs
        obtain ⟨ms, hms, hkeys, hfills⟩ := tallyFields.of_readMembers _ rfl ⟨hr₁, hd⟩
        exact ⟨_, _, hspace, hms, .object hkeys
          (hfills.once (f := .passed) rfl (need_eq_ok_iff.mp hpassed))
          (hfills.once (f := .failed) rfl (need_eq_ok_iff.mp hfailed))
          (hfills.once (f := .skipped) rfl (need_eq_ok_iff.mp hskipped))
          (hfills.once (f := .total) rfl (need_eq_ok_iff.mp htotal))
          (hfills.once (f := .failures) rfl (need_eq_ok_iff.mp hfailures)) rfl⟩
      · exact absurd h not_finds_unexpected
  complete hspace ht hends hP := by
    cases hP with
    | object hkeys hpassed hfailed hskipped htotal hfailures hlimit =>
      rename_i r ms
      obtain ⟨cs, rfl, hms⟩ := exists_objectAt ht
      have hfills : tallyFields.Fills ms {}
          ⟨some r.passed, some r.failed, some r.skipped, some r.total, some r.failures.toList⟩ := by
        rintro (_ | _ | _ | _ | _)
        · exact .inr ⟨rfl, _, rfl, hpassed⟩
        · exact .inr ⟨rfl, _, rfl, hfailed⟩
        · exact .inr ⟨rfl, _, rfl, hskipped⟩
        · exact .inr ⟨rfl, _, rfl, htotal⟩
        · exact .inr ⟨rfl, _, rfl, hfailures⟩
      obtain ⟨hlt, e⟩ := tallyFields.readMembers hms hkeys hfills
      refine finds_behindSpace (Json.skipSpace_eq_cons_iff.mpr ⟨by decide, hspace⟩) ?_
      rw [if_neg (by decide), if_pos rfl]
      refine finds_cons id '\x7b' ⟨hlt, ?_⟩
      rw [readTallyMembers, e]
      exact congrArg (fun u ↦ Except.ok (u, _)) (tallyOf_eq hlimit)
    | list hpassed hfailed hskipped htotal hfailures hlimit =>
      obtain ⟨cs, rfl, hts⟩ := exists_elementsAt ht
      obtain ⟨r₁, ht₁, hts₁⟩ := elementsAt_cons_iff.mp hts
      obtain ⟨r₂, ht₂, hts₂⟩ := elementsAt_cons_iff.mp hts₁
      obtain ⟨r₃, ht₃, hts₃⟩ := elementsAt_cons_iff.mp hts₂
      obtain ⟨r₄, ht₄, hts₄⟩ := elementsAt_cons_iff.mp hts₃
      obtain ⟨r₅, ht₅, hts₅⟩ := elementsAt_cons_iff.mp hts₄
      obtain ⟨h₁, e₁⟩ := readsAs_count.readField .tally 0 ht₁ hts₁.endsNumeral hpassed
      obtain ⟨h₂, e₂⟩ := readsAs_count.readField .tally 1 ht₂ hts₂.endsNumeral hfailed
      obtain ⟨h₃, e₃⟩ := readsAs_count.readField .tally 2 ht₃ hts₃.endsNumeral hskipped
      obtain ⟨h₄, e₄⟩ := readsAs_count.readField .tally 3 ht₄ hts₄.endsNumeral htotal
      obtain ⟨h₅, e₅⟩ := readsAs_samples.readField .tally 4 ht₅ hts₅.endsNumeral hfailures
      obtain ⟨h₆, e₆⟩ := leaves_closeFields_iff.mpr (elementsAt_nil_iff.mp hts₅)
      refine finds_behindSpace (Json.skipSpace_eq_cons_iff.mpr ⟨by decide, hspace⟩) ?_
      rw [if_pos rfl]
      refine finds_cons id '[' ⟨by omega, ?_⟩
      rw [readTallyFields, e₁]
      change (readField .tally 1 readCount r₁ >>= _) = _
      rw [e₂]
      change (readField .tally 2 readCount r₂ >>= _) = _
      rw [e₃]
      change (readField .tally 3 readCount r₃ >>= _) = _
      rw [e₄]
      change (readField .tally 4 (readList readSample) r₄ >>= _) = _
      rw [e₅]
      change (closeFields r₅ >>= _) = _
      rw [e₆]
      exact congrArg (fun u ↦ Except.ok (u, _)) (tallyOf_eq hlimit)

/-! ## Whole snapshots -/

theorem readAll_eq_ok_iff {cs : List Char} {r : Tally} :
    readAll cs = .ok r ↔ ∃ t, Json.Spells cs t ∧ IsTally t r := by
  constructor
  · intro h
    obtain ⟨⟨s, rest, hlt⟩, hs, h⟩ := bind_eq_ok_iff.mp h
    dsimp only at h
    split at h
    · rename_i hend
      cases h
      obtain ⟨t, cs', hspace, ht, htally⟩ := readsAs_tally.sound ⟨hlt, hs⟩
      exact ⟨t, ⟨cs', rest, hspace, ht, Json.skipSpace_eq_nil_iff.mp hend⟩, htally⟩
    · cases h
  · rintro ⟨t, ⟨cs', rest, hspace, ht, hend⟩, htally⟩
    have hends : EndsNumeral rest := hend.endsNumeral (by rintro c ⟨⟩)
    obtain ⟨hlt, e⟩ := readsAs_tally.complete hspace ht hends htally
    rw [readAll, e]
    exact if_pos (Json.skipSpace_eq_nil_iff.mpr hend)

/-- **Which texts are read.** A text is read as a tally exactly if it is one JSON value, with
nothing but white space around it, that holds the tally. What it is read as is kept by every
spelling of the value, and by every change of the value that moves members, or puts in or takes out
members that belong to no field. -/
theorem read_eq_ok_iff (text : String) (r : Tally) :
    (read text = .ok r ↔ ∃ t, Json.Spells text.toList t ∧ IsTally t r) ∧
    ∀ t t' : Tree, Json.Spells text.toList t → IsTally t r → Amends .tally t t' →
      ∀ text' : String, Json.Spells text'.toList t' → read text' = .ok r := by
  have hread : ∀ text r, read text = .ok r ↔ ∃ t, Json.Spells text.toList t ∧ IsTally t r :=
    fun text r ↦ mapError_eq_ok_iff.trans readAll_eq_ok_iff
  refine ⟨hread text r, ?_⟩
  intro t t' _ ht hamends text' htext'
  exact (hread text' r).mpr ⟨t', htext', hamends.holds ht⟩

/-- An empty tally in its list form, without and with white space in front. -/
theorem read_spaced_list :
    read "[0,0,0,0,[]]" = .ok (.empty 50) ∧ read "\n[0,0,0,0,[]]" = .ok (.empty 50) := by
  have hread : read "[0,0,0,0,[]]" = .ok (.empty 50) := eq_ok_of_toOption (by decide +kernel)
  obtain ⟨t, htext, htally⟩ := (read_eq_ok_iff _ _).1.mp hread
  refine ⟨hread, (read_eq_ok_iff _ _).2 t t htext htally (.refl .tally t) _ ?_⟩
  obtain ⟨cs, rest, ⟨ws, hws, hcs⟩, ht, hend⟩ := htext
  refine ⟨cs, rest, ⟨'\n' :: ws, List.forall_mem_cons.mpr ⟨by decide, hws⟩, ?_⟩, ht, hend⟩
  have hcons : "\n[0,0,0,0,[]]".toList = '\n' :: "[0,0,0,0,[]]".toList := by decide +kernel
  rw [hcons, hcs, List.cons_append]

end Conformance.Snapshot
