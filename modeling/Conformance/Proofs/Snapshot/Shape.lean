import Conformance.Proofs.Json.Strings
import Conformance.Tally
import Mathlib.Data.List.Forall2
/-!
# The shape of a snapshot

A JSON value is a snapshot of a tally if it holds the counts and samples of the tally in one of two
forms, as an object or as a list. In an object each field stands exactly once, in any order, and
members with other keys may stand between them; a list holds the values of the fields in order and
nothing else. The same goes for each failure sample.

The shape says what may be changed in a snapshot without changing the tally: members may change
places, and a member that belongs to no field may come and go. White space and the choice of escapes
are not part of the value at all.
-/

namespace Conformance.Snapshot

open Json (Tree units WellPaired)

/-- A count is spelled by its digits alone. -/
def IsCount (t : Tree) (n : UInt64) : Prop :=
  ∃ ds, t = .number false ⟨ds, none, none⟩ ∧ Nat.ofDigitChars 10 ds 0 = n.toNat

/-- A string with the code units of the text. -/
def IsText (t : Tree) (s : String) : Prop := t = .text (units s.toList)

/-- The key that names a field. -/
def keyOf (name : String) : List Nat := units name.toList

/-- Exactly one member has the key `key`, and its value has the property `P`. -/
def Once (ms : List (List Nat × Tree)) (key : List Nat) (P : Tree → Prop) : Prop :=
  ∃ t, ms.filter (fun m ↦ m.1 = key) = [(key, t)] ∧ P t

/-- The value holds the failure sample. -/
inductive IsSample : Tree → FailureSample → Prop where
  | object {ms : List (List Nat × Tree)} {s : FailureSample} (hkeys : ∀ m ∈ ms, WellPaired m.1)
    (htest : Once ms (keyOf "test") (IsText · s.test))
    (herror : Once ms (keyOf "error") (IsText · s.error)) : IsSample (.object ms) s
  | list {t₁ t₂ : Tree} {s : FailureSample} (htest : IsText t₁ s.test)
    (herror : IsText t₂ s.error) : IsSample (.list [t₁, t₂]) s

/-- A list of the failure samples. -/
def IsSamples (t : Tree) (samples : List FailureSample) : Prop :=
  ∃ ts, t = .list ts ∧ List.Forall₂ IsSample ts samples

/-- The value holds the tally, up to its sample limit, which is not written: it has the usual one.
-/
inductive IsTally : Tree → Tally → Prop where
  | object {ms : List (List Nat × Tree)} {r : Tally} (hkeys : ∀ m ∈ ms, WellPaired m.1)
    (hpassed : Once ms (keyOf "passed") (IsCount · r.passed))
    (hfailed : Once ms (keyOf "failed") (IsCount · r.failed))
    (hskipped : Once ms (keyOf "skipped") (IsCount · r.skipped))
    (htotal : Once ms (keyOf "total") (IsCount · r.total))
    (hfailures : Once ms (keyOf "failures") (IsSamples · r.failures.toList))
    (hlimit : r.sampleLimit = 50) : IsTally (.object ms) r
  | list {t₁ t₂ t₃ t₄ t₅ : Tree} {r : Tally} (hpassed : IsCount t₁ r.passed)
    (hfailed : IsCount t₂ r.failed) (hskipped : IsCount t₃ r.skipped)
    (htotal : IsCount t₄ r.total) (hfailures : IsSamples t₅ r.failures.toList)
    (hlimit : r.sampleLimit = 50) : IsTally (.list [t₁, t₂, t₃, t₄, t₅]) r

/-! ## Changes that do not matter -/

/-- A place in a snapshot where members are looked for. -/
inductive Place where
  | tally
  | samples
  | sample

/-- The keys that are looked for at a place. -/
def Place.keys : Place → List (List Nat)
  | .tally => ["passed", "failed", "skipped", "total", "failures"].map keyOf
  | .samples => []
  | .sample => ["test", "error"].map keyOf

/-- The first value at a place is changed to the second by moving members of objects, and by putting
in and taking out members that are not looked for there. -/
inductive Amends : Place → Tree → Tree → Prop where
  | refl (p : Place) (t : Tree) : Amends p t t
  | trans {p : Place} {t t' t'' : Tree} (h : Amends p t t') (h' : Amends p t' t'') : Amends p t t''
  | move {p : Place} {ms ms' : List (List Nat × Tree)} (h : ms.Perm ms') :
    Amends p (.object ms) (.object ms')
  | putIn {p : Place} {key : List Nat} (t : Tree) (ms : List (List Nat × Tree))
    (hkey : key ∉ p.keys) (hpaired : WellPaired key) :
    Amends p (.object ms) (.object ((key, t) :: ms))
  | takeOut {p : Place} {key : List Nat} (t : Tree) (ms : List (List Nat × Tree))
    (hkey : key ∉ p.keys) : Amends p (.object ((key, t) :: ms)) (.object ms)
  /-- A change in the samples of a tally that is an object. -/
  | failures {t t' : Tree} (ms : List (List Nat × Tree)) (h : Amends .samples t t') :
    Amends .tally (.object ((keyOf "failures", t) :: ms)) (.object ((keyOf "failures", t') :: ms))
  /-- A change in the samples of a tally that is a list. -/
  | last {t t' : Tree} (t₁ t₂ t₃ t₄ : Tree) (h : Amends .samples t t') :
    Amends .tally (.list [t₁, t₂, t₃, t₄, t]) (.list [t₁, t₂, t₃, t₄, t'])
  | item {t t' : Tree} (ts ts' : List Tree) (h : Amends .sample t t') :
    Amends .samples (.list (ts ++ t :: ts')) (.list (ts ++ t' :: ts'))

section Once

variable {ms ms' : List (List Nat × Tree)} {key key' : List Nat} {P Q : Tree → Prop} {t : Tree}

theorem Once.perm (h : Once ms key P) (hperm : ms.Perm ms') : Once ms' key P := by
  obtain ⟨t, ht, hP⟩ := h
  have hfilter := hperm.filter fun m ↦ m.1 = key
  rw [ht] at hfilter
  exact ⟨t, (List.singleton_perm.mp hfilter).symm, hP⟩

theorem once_cons_of_ne (hne : key' ≠ key) : Once ((key', t) :: ms) key P ↔ Once ms key P := by
  rw [Once, List.filter_cons_of_neg (by simpa using hne)]
  rfl

theorem once_cons_self :
    Once ((key, t) :: ms) key P ↔ P t ∧ ∀ m ∈ ms, m.1 ≠ key := by
  rw [Once, List.filter_cons_of_pos (by simp)]
  constructor
  · rintro ⟨t', h, hP⟩
    rw [List.cons.injEq, Prod.mk.injEq] at h
    obtain ⟨⟨-, rfl⟩, hnil⟩ := h
    exact ⟨hP, by simpa using hnil⟩
  · rintro ⟨hP, hnot⟩
    exact ⟨t, by simpa using hnot, hP⟩

end Once

/-- What stands at a place. -/
def Place.Value : Place → Type
  | .tally => Tally
  | .samples => List FailureSample
  | .sample => FailureSample

/-- The value holds what stands at the place. -/
def Place.Holds : (p : Place) → Tree → p.Value → Prop
  | .tally => IsTally
  | .samples => IsSamples
  | .sample => IsSample

/-- An object is known by its keys and by the members that are looked for in it. -/
theorem Place.Holds.of_once {p : Place} {ms ms' : List (List Nat × Tree)} {x : p.Value}
    (h : p.Holds (.object ms) x)
    (hkeys : (∀ m ∈ ms, WellPaired m.1) → ∀ m ∈ ms', WellPaired m.1)
    (honce : ∀ key ∈ p.keys, ∀ P, Once ms key P → Once ms' key P) : p.Holds (.object ms') x := by
  cases p with
  | tally =>
    obtain ⟨hpaired, hpassed, hfailed, hskipped, htotal, hfailures, hlimit⟩ := h
    exact .object (hkeys hpaired) (honce _ (by simp [Place.keys]) _ hpassed)
      (honce _ (by simp [Place.keys]) _ hfailed) (honce _ (by simp [Place.keys]) _ hskipped)
      (honce _ (by simp [Place.keys]) _ htotal) (honce _ (by simp [Place.keys]) _ hfailures) hlimit
  | samples =>
    obtain ⟨ts, ⟨⟩, -⟩ := h
  | sample =>
    obtain ⟨hpaired, htest, herror⟩ := h
    exact .object (hkeys hpaired) (honce _ (by simp [Place.keys]) _ htest)
      (honce _ (by simp [Place.keys]) _ herror)

theorem keyOf_inj {a b : String} (h : keyOf a = keyOf b) : a = b :=
  String.toList_injective (Json.units_inj h)

/-- What an object or a list holds stays the same through every change that does not matter. -/
theorem Amends.holds {p : Place} {t t' : Tree} (h : Amends p t t') {x : p.Value}
    (ht : p.Holds t x) : p.Holds t' x := by
  induction h with
  | refl => exact ht
  | trans _ _ ih ih' => exact ih' (ih ht)
  | move hperm =>
    exact ht.of_once (fun hkeys m hm ↦ hkeys m (hperm.mem_iff.mpr hm))
      fun key _ P honce ↦ honce.perm hperm
  | putIn t ms hkey hpaired =>
    refine ht.of_once (fun hkeys ↦ List.forall_mem_cons.mpr ⟨hpaired, hkeys⟩) ?_
    intro key' hkey' P honce
    exact (once_cons_of_ne (by rintro rfl; exact hkey hkey')).mpr honce
  | takeOut t ms hkey =>
    refine ht.of_once (fun hkeys ↦ (List.forall_mem_cons.mp hkeys).2) ?_
    intro key' hkey' P honce
    exact (once_cons_of_ne (by rintro rfl; exact hkey hkey')).mp honce
  | @failures t t' ms _ ih =>
    obtain ⟨hpaired, hpassed, hfailed, hskipped, htotal, hfailures, hlimit⟩ := ht
    have hother : ∀ {name : String} {P : Tree → Prop}, name ≠ "failures" →
        Once ((keyOf "failures", t) :: ms) (keyOf name) P →
        Once ((keyOf "failures", t') :: ms) (keyOf name) P := by
      intro name P hne honce
      have hkey : keyOf "failures" ≠ keyOf name := fun h ↦ hne (keyOf_inj h).symm
      exact (once_cons_of_ne hkey).mpr ((once_cons_of_ne hkey).mp honce)
    obtain ⟨hsamples, hnot⟩ := once_cons_self.mp hfailures
    refine .object ?_ (hother (by decide) hpassed) (hother (by decide) hfailed)
      (hother (by decide) hskipped) (hother (by decide) htotal)
      (once_cons_self.mpr ⟨ih hsamples, hnot⟩) hlimit
    rw [List.forall_mem_cons] at hpaired ⊢
    exact hpaired
  | last t₁ t₂ t₃ t₄ _ ih =>
    cases ht with
    | list hpassed hfailed hskipped htotal hfailures hlimit =>
      exact .list hpassed hfailed hskipped htotal (ih hfailures) hlimit
  | item ts ts' _ ih =>
    obtain ⟨_, ⟨⟩, hitems⟩ := ht
    refine ⟨_, rfl, ?_⟩
    induction ts generalizing x with
    | nil =>
      cases hitems with
      | cons hitem hitems => exact .cons (ih hitem) hitems
    | cons u us ihus =>
      cases hitems with
      | cons hitem hitems => exact .cons hitem (ihus hitems)

end Conformance.Snapshot
