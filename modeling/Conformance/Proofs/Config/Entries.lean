import Conformance.Config
/-!
# Configurations from the entries of a mapping

A mapping gives a configuration exactly if every entry sets a field and no field is set twice. Which
field an entry sets is decided by its key alone, and to what by its value alone, so the entries may
stand in any order. Otherwise the first entry that is wrong decides the error, and its key is looked
at before its value.

The specification is in three relations: what a key names, what a value holds, and how an entry
offends. One step of decoding is described by them completely, and a whole run is an induction over
the entries.
-/

namespace Conformance.Config

/-! ## Values of fields -/

/-- What a field of a configuration holds. -/
def Field.Value : Field → Type
  | .text _ => String
  | .number _ => UInt64

/-- The value of a field. -/
def value (c : Config) : (f : Field) → f.Value
  | .text .suiteName => c.suiteName
  | .text .repository => c.repository
  | .text .testSubdir => c.testSubdir
  | .text .extension => c.extension
  | .text .excludeMarker => c.excludeMarker
  | .text .notExecutedMarker => c.notExecutedMarker
  | .number .timeoutSecs => c.timeoutSecs
  | .number .maxFailureSamples => c.maxFailureSamples

/-- The configuration with the value of one field changed. -/
def put (c : Config) : (f : Field) → f.Value → Config
  | .text f, s => c.setText f s
  | .number f, n => c.setNumber f n

@[simp] theorem value_put_self (c : Config) (f : Field) (v : f.Value) :
    (c.put f v).value f = v := by
  obtain f | f := f <;> cases f <;> rfl

theorem value_put_of_ne {c : Config} {f g : Field} {v : f.Value} (h : g ≠ f) :
    (c.put f v).value g = c.value g := by
  obtain f | f := f <;> obtain g | g := g <;> cases f <;> cases g <;> first
    | rfl
    | exact absurd rfl h

/-- A configuration is known from its fields. -/
theorem ext_value {c d : Config} (h : ∀ f, c.value f = d.value f) : c = d := by
  obtain ⟨suiteName, repository, testSubdir, extension, excludeMarker, notExecutedMarker,
    timeoutSecs, maxFailureSamples⟩ := c
  obtain ⟨suiteName', repository', testSubdir', extension', excludeMarker', notExecutedMarker',
    timeoutSecs', maxFailureSamples'⟩ := d
  cases h (.text .suiteName)
  cases h (.text .repository)
  cases h (.text .testSubdir)
  cases h (.text .extension)
  cases h (.text .excludeMarker)
  cases h (.text .notExecutedMarker)
  cases h (.number .timeoutSecs)
  cases h (.number .maxFailureSamples)
  rfl

/-- The order in which two fields are changed does not matter. -/
theorem put_comm (c : Config) {f g : Field} (v : f.Value) (w : g.Value) (h : f ≠ g) :
    (c.put f v).put g w = (c.put g w).put f v := by
  refine ext_value fun k ↦ ?_
  by_cases hf : k = f
  · subst hf
    rw [value_put_of_ne h, value_put_self, value_put_self]
  · by_cases hg : k = g
    · subst hg
      rw [value_put_self, value_put_of_ne hf, value_put_self]
    · rw [value_put_of_ne hg, value_put_of_ne hf, value_put_of_ne hf, value_put_of_ne hg]

/-! ## What entries say -/

/-- The key is a scalar, of any style and tag, that names the field. -/
inductive Names : Yaml.Shape → Field → Prop where
  | mk (tag : Option String) (style : Yaml.Style) (f : Field) : Names (.scalar tag style f.key) f

/-- A scalar of this tag and style may hold a number: a plain one does whatever its tag, and a
literal block does with the tag of integers. -/
inductive HoldsNumbers : Option String → Yaml.Style → Prop where
  | plain (tag : Option String) : HoldsNumbers tag .plain
  | literal : HoldsNumbers (some "tag:yaml.org,2002:int") .literal

/-- The value holds one of the field: any scalar is a text, and a number is a scalar that may hold
one and denotes a natural number of 64 bits. -/
inductive Holds : Yaml.Shape → (f : Field) → f.Value → Prop where
  | text (tag : Option String) (style : Yaml.Style) (s : String) (f : TextField) :
    Holds (.scalar tag style s) (.text f) s
  | number {tag : Option String} {style : Yaml.Style} {s : String} {n : UInt64} (f : NumberField)
    (hscalar : HoldsNumbers tag style) (hn : Yaml.natural? s.toList = some n.toNat) :
    Holds (.scalar tag style s) (.number f) n

/-- The limit for a test is never zero seconds. -/
def Allowed : (f : Field) → f.Value → Prop
  | .number .timeoutSecs, n => n ≠ (0 : UInt64)
  | _, _ => True

/-- The entry sets the field to the value. -/
structure Sets (e : Yaml.Value × Yaml.Value) (f : Field) (v : f.Value) : Prop where
  names : Names e.1.shape f
  holds : Holds e.2.shape f v
  allowed : Allowed f v

/-- How an entry can be wrong, where `taken` are the fields that are set already. What is wrong with
its key comes first. -/
inductive Offends (taken : Field → Prop) (e : Yaml.Value × Yaml.Value) : Problem → Prop where
  | badKey (h : ∀ tag style s, e.1.shape ≠ .scalar tag style s) :
    Offends taken e (.badKey (.ofShape e.1.shape))
  | unknownKey {tag : Option String} {style : Yaml.Style} {key : String}
    (hkey : e.1.shape = .scalar tag style key) (h : ∀ f, ¬ Names e.1.shape f) :
    Offends taken e (.unknownKey key)
  | duplicateKey {f : Field} (hkey : Names e.1.shape f) (h : taken f) :
    Offends taken e (.duplicateKey f)
  | badValue {f : Field} (hkey : Names e.1.shape f) (hnew : ¬ taken f)
    (h : ∀ v, ¬ Holds e.2.shape f v) : Offends taken e (.badValue f (.ofShape e.2.shape))
  | zeroTimeout {f : Field} {v : f.Value} (hkey : Names e.1.shape f) (hnew : ¬ taken f)
    (hv : Holds e.2.shape f v) (h : ¬ Allowed f v) : Offends taken e .zeroTimeout

theorem key_inj {f g : Field} (h : f.key = g.key) : f = g := by
  obtain f | f := f <;> obtain g | g := g <;> cases f <;> cases g <;> first
    | rfl
    | exact absurd h (by decide)

theorem ofKey?_eq_some_iff {key : String} {f : Field} :
    Field.ofKey? key = some f ↔ f.key = key := by
  constructor
  · intro h
    have hkey := List.find?_some (p := fun f : Field ↦ decide (f.key = key)) h
    exact of_decide_eq_true hkey
  · rintro rfl
    obtain f | f := f <;> cases f <;> decide

theorem names_scalar_iff {tag : Option String} {style : Yaml.Style} {key : String} {f : Field} :
    Names (.scalar tag style key) f ↔ f.key = key := by
  constructor
  · rintro ⟨⟩
    rfl
  · rintro rfl
    exact .mk tag style f

theorem Names.unique {v : Yaml.Shape} {f g : Field} (hf : Names v f) (hg : Names v g) : f = g := by
  obtain ⟨tag, style⟩ := hf
  exact (key_inj (names_scalar_iff.mp hg)).symm

theorem Holds.unique {v : Yaml.Shape} {f : Field} {a b : f.Value} (ha : Holds v f a)
    (hb : Holds v f b) : a = b := by
  cases ha with
  | text =>
    cases hb
    rfl
  | number f hscalar hn =>
    cases hb with
    | number _ _ hn' =>
      rw [hn] at hn'
      exact UInt64.toNat_inj.mp (Option.some.inj hn')

theorem allowed_standard (f : Field) : Allowed f (standard.value f) := by
  obtain f | f := f <;> cases f <;> first
    | trivial
    | exact (by decide : (5 : UInt64) ≠ 0)

theorem holdsNumbers_iff {tag : Option String} {style : Yaml.Style} :
    HoldsNumbers tag style ↔ Yaml.canBeNatural tag style = true := by
  constructor
  · rintro (_ | _)
    · rfl
    · decide
  · intro h
    cases style with
    | plain => exact .plain tag
    | quoted | folded => cases h
    | literal =>
      -- Only the full tag of integers asks for an integer.
      obtain ⟨t, rfl, ht⟩ := Option.bind_eq_some_iff.mp (of_decide_eq_true h)
      rw [Yaml.ScalarKind.ofTag?] at ht
      split at ht
      · cases ht
      · split at ht
        · rename_i hint
          rw [hint]
          exact .literal
        · split at ht
          · cases ht
          · split at ht <;> cases ht

theorem word?_eq_some_iff {v : Yaml.Shape} {n : UInt64} {f : NumberField} :
    word? v = some n ↔ Holds v (.number f) n := by
  constructor
  · intro h
    cases v with
    | scalar tag style s =>
      rw [word?] at h
      split at h
      · rename_i hnatural
        obtain ⟨k, hk, rfl⟩ := Option.map_eq_some_iff.mp h
        obtain ⟨hk, hsize⟩ := Option.filter_eq_some_iff.mp hk
        refine .number f (holdsNumbers_iff.mpr hnatural) ?_
        rw [hk, UInt64.toNat_ofNat_of_lt' (of_decide_eq_true hsize)]
      · cases h
    | sequence | mapping => cases h
  · rintro ⟨⟩
    rename_i hscalar hn
    have hsize : decide (n.toNat < UInt64.size) = true := decide_eq_true n.toNat_lt_size
    rw [word?, if_pos (holdsNumbers_iff.mp hscalar), hn, Option.filter_some, if_pos hsize,
      Option.map_some, UInt64.ofNat_toNat]

theorem allowed_number_iff {n : NumberField} {w : UInt64} :
    Allowed (.number n) w ↔ ¬ (n = .timeoutSecs ∧ w = 0) := by
  cases n with
  | timeoutSecs => exact ⟨fun h hzero ↦ h hzero.2, fun h hzero ↦ h ⟨rfl, hzero⟩⟩
  | maxFailureSamples => exact iff_of_true trivial (by rintro ⟨⟨⟩, -⟩)

/-- Setting a field goes wrong if the value holds none of the field, and if it holds one that the
field may not have. -/
theorem setField_cases (c : Config) (f : Field) (v : Yaml.Shape) :
    (∃ a, Holds v f a ∧ Allowed f a ∧ c.setField f v = .ok (c.put f a)) ∨
    (∃ a, Holds v f a ∧ ¬ Allowed f a ∧ c.setField f v = .error .zeroTimeout) ∨
    (∀ a, ¬ Holds v f a) ∧ c.setField f v = .error (.badValue f (.ofShape v)) := by
  cases f with
  | text t =>
    cases v with
    | scalar tag style s => exact .inl ⟨s, .text tag style s t, trivial, rfl⟩
    | sequence => exact .inr (.inr ⟨nofun, rfl⟩)
    | mapping => exact .inr (.inr ⟨nofun, rfl⟩)
  | number n =>
    rw [setField]
    cases hw : word? v with
    | none =>
      refine .inr (.inr ⟨fun a ha ↦ ?_, rfl⟩)
      rw [word?_eq_some_iff.mpr ha] at hw
      cases hw
    | some w =>
      have hholds : Holds v (.number n) w := word?_eq_some_iff.mp hw
      by_cases hzero : n = .timeoutSecs ∧ w = 0
      · exact .inr (.inl ⟨w, hholds, fun h ↦ allowed_number_iff.mp h hzero, if_pos hzero⟩)
      · exact .inl ⟨w, hholds, allowed_number_iff.mpr hzero, if_neg hzero⟩

/-- A key names a field, or it is the wrong scalar, or no scalar at all. -/
theorem fieldOf_cases (v : Yaml.Shape) :
    (∃ f, Names v f ∧ fieldOf v = .ok f) ∨
    (∃ tag style key, v = .scalar tag style key ∧ (∀ f, ¬ Names v f) ∧
      fieldOf v = .error (.unknownKey key)) ∨
    (∀ tag style s, v ≠ .scalar tag style s) ∧ fieldOf v = .error (.badKey (.ofShape v)) := by
  cases v with
  | scalar tag style key =>
    cases hkey : Field.ofKey? key with
    | some f =>
      exact .inl ⟨f, names_scalar_iff.mpr (ofKey?_eq_some_iff.mp hkey), by rw [fieldOf, hkey]; rfl⟩
    | none =>
      refine .inr (.inl ⟨tag, style, key, rfl, fun f hf ↦ ?_, by rw [fieldOf, hkey]; rfl⟩)
      rw [ofKey?_eq_some_iff.mpr (names_scalar_iff.mp hf)] at hkey
      cases hkey
  | sequence => exact .inr (.inr ⟨nofun, rfl⟩)
  | mapping => exact .inr (.inr ⟨nofun, rfl⟩)

/-! ## One entry -/

/-- Taking an entry into account sets a new field, or goes wrong as the entry offends. -/
theorem setEntry_cases (c : Config) (seen : List Field) (e : Yaml.Value × Yaml.Value) :
    (∃ f a, Sets e f a ∧ f ∉ seen ∧ c.setEntry seen e = .ok (c.put f a, f :: seen)) ∨
    ∃ p, Offends (· ∈ seen) e p ∧ c.setEntry seen e = .error p := by
  rw [setEntry]
  obtain ⟨f, hnames, hf⟩ | ⟨tag, style, key, hkey, hnot, hf⟩ | ⟨hnot, hf⟩ :=
    fieldOf_cases e.1.shape
  · rw [hf]
    by_cases hseen : f ∈ seen
    · exact .inr ⟨_, .duplicateKey hnames hseen, if_pos hseen⟩
    · obtain ⟨a, hholds, hallowed, ha⟩ | ⟨a, hholds, hallowed, ha⟩ | ⟨hnot, ha⟩ :=
        setField_cases c f e.2.shape
      · exact .inl ⟨f, a, ⟨hnames, hholds, hallowed⟩, hseen, (if_neg hseen).trans (by rw [ha]; rfl)⟩
      · exact .inr ⟨_, .zeroTimeout hnames hseen hholds hallowed,
          (if_neg hseen).trans (by rw [ha]; rfl)⟩
      · exact .inr ⟨_, .badValue hnames hseen hnot, (if_neg hseen).trans (by rw [ha]; rfl)⟩
  · exact .inr ⟨_, .unknownKey hkey hnot, by rw [hf]; rfl⟩
  · exact .inr ⟨_, .badKey hnot, by rw [hf]; rfl⟩

theorem Names.fieldOf_eq {v : Yaml.Shape} {f : Field} (h : Names v f) : fieldOf v = .ok f := by
  obtain ⟨g, hg, hf⟩ | ⟨tag, style, key, -, hnot, -⟩ | ⟨hnot, -⟩ := fieldOf_cases v
  · rw [hf, h.unique hg]
  · exact absurd h (hnot f)
  · obtain ⟨tag, style⟩ := h
    exact absurd rfl (hnot _ _ _)

theorem Sets.setEntry_eq {c : Config} {seen : List Field} {e : Yaml.Value × Yaml.Value} {f : Field}
    {a : f.Value} (h : Sets e f a) (hnew : f ∉ seen) :
    c.setEntry seen e = .ok (c.put f a, f :: seen) := by
  have hfield : c.setField f e.2.shape = .ok (c.put f a) := by
    obtain ⟨b, hb, -, hok⟩ | ⟨b, hb, hnot, -⟩ | ⟨hnot, -⟩ := setField_cases c f e.2.shape
    · rw [hok, h.holds.unique hb]
    · exact absurd (hb.unique h.holds ▸ h.allowed) hnot
    · exact absurd h.holds (hnot a)
  rw [setEntry, h.names.fieldOf_eq]
  exact (if_neg hnew).trans (by rw [hfield]; rfl)

theorem Offends.setEntry_eq {seen : List Field} {e : Yaml.Value × Yaml.Value} {p : Problem}
    (h : Offends (· ∈ seen) e p) (c : Config) : c.setEntry seen e = .error p := by
  rw [setEntry]
  cases h with
  | badKey h =>
    obtain ⟨f, hf, -⟩ | ⟨tag, style, key, hkey, -⟩ | ⟨-, he⟩ := fieldOf_cases e.1.shape
    · generalize e.1.shape = v at *
      obtain ⟨tag, style⟩ := hf
      exact absurd rfl (h _ _ _)
    · exact absurd hkey (h _ _ _)
    · rw [he]
      rfl
  | unknownKey hkey h =>
    obtain ⟨f, hf, -⟩ | ⟨tag, style, key, hkey', -, he⟩ | ⟨hnot, -⟩ := fieldOf_cases e.1.shape
    · exact absurd hf (h f)
    · rw [hkey'] at hkey
      cases hkey
      rw [he]
      rfl
    · exact absurd hkey (hnot _ _ _)
  | duplicateKey hkey h =>
    rw [hkey.fieldOf_eq]
    exact if_pos h
  | @badValue f hkey hnew h =>
    rw [hkey.fieldOf_eq]
    refine (if_neg hnew).trans ?_
    obtain ⟨b, hb, -⟩ | ⟨b, hb, -⟩ | ⟨-, he⟩ := setField_cases c f e.2.shape
    · exact absurd hb (h b)
    · exact absurd hb (h b)
    · rw [he]
      rfl
  | @zeroTimeout f a hkey hnew hv h =>
    rw [hkey.fieldOf_eq]
    refine (if_neg hnew).trans ?_
    obtain ⟨b, hb, hallowed, -⟩ | ⟨b, -, -, he⟩ | ⟨hnot, -⟩ := setField_cases c f e.2.shape
    · exact absurd (hb.unique hv ▸ hallowed) h
    · rw [he]
      rfl
    · exact absurd hv (hnot a)

/-! ## All entries -/

/-- The entries set `c` to `c'`, field after field, none of which is among those seen before. -/
inductive SetsAll : Config → List Field → List (Yaml.Value × Yaml.Value) → Config → Prop where
  | nil (c : Config) (seen : List Field) : SetsAll c seen [] c
  | cons {c c' : Config} {seen : List Field} {e : Yaml.Value × Yaml.Value}
    {es : List (Yaml.Value × Yaml.Value)} {f : Field} {a : f.Value} (he : Sets e f a)
    (hnew : f ∉ seen) (h : SetsAll (c.put f a) (f :: seen) es c') : SetsAll c seen (e :: es) c'

section Runs

variable {c c' : Config} {seen : List Field} {m : Yaml.Mark}
  {es : List (Yaml.Value × Yaml.Value)}

theorem SetsAll.setEntries_eq (h : SetsAll c seen es c') : c.setEntries m seen es = .ok c' := by
  induction h with
  | nil => rfl
  | cons he hnew _ ih =>
    rw [setEntries, he.setEntry_eq hnew]
    exact ih

theorem setEntries_eq_ok_iff : c.setEntries m seen es = .ok c' ↔ SetsAll c seen es c' := by
  refine ⟨fun h ↦ ?_, SetsAll.setEntries_eq⟩
  induction es generalizing c seen with
  | nil =>
    cases h
    exact .nil _ seen
  | cons e es ih =>
    rw [setEntries] at h
    obtain ⟨f, a, hsets, hnew, he⟩ | ⟨p, -, he⟩ := setEntry_cases c seen e <;> rw [he] at h
    · exact .cons hsets hnew (ih h)
    · cases h

/-- No field is set by both entries. -/
def Apart (e e' : Yaml.Value × Yaml.Value) : Prop := ∀ f, Names e.1.shape f → ¬ Names e'.1.shape f

/-- Entries can be taken into account exactly if each sets a field that was not seen before, and no
field is set twice. -/
theorem exists_setsAll_iff :
    (∃ c', SetsAll c seen es c') ↔
      (∀ e ∈ es, ∃ f a, Sets e f a ∧ f ∉ seen) ∧ es.Pairwise Apart := by
  induction es generalizing c seen with
  | nil => exact iff_of_true ⟨_, .nil _ seen⟩ ⟨List.forall_mem_nil _, .nil⟩
  | cons e es ih =>
    constructor
    · rintro ⟨c', h⟩
      cases h with
      | @cons _ _ _ _ _ f a he hnew h =>
        obtain ⟨hall, hpairwise⟩ := ih.mp ⟨c', h⟩
        refine ⟨List.forall_mem_cons.mpr ⟨⟨f, a, he, hnew⟩, ?_⟩, .cons ?_ hpairwise⟩
        · intro e' he'
          obtain ⟨g, b, hsets, hg⟩ := hall e' he'
          exact ⟨g, b, hsets, fun h ↦ hg (List.mem_cons_of_mem f h)⟩
        · intro e' he' g hg hg'
          obtain ⟨k, b, hsets, hk⟩ := hall e' he'
          cases hsets.names.unique hg'
          cases he.names.unique hg
          exact hk List.mem_cons_self
    · rintro ⟨hall, hpairwise⟩
      obtain ⟨⟨f, a, he, hnew⟩, hall⟩ := List.forall_mem_cons.mp hall
      obtain ⟨hapart, hpairwise⟩ := List.pairwise_cons.mp hpairwise
      have hrest : ∃ c', SetsAll (c.put f a) (f :: seen) es c' := by
        refine ih.mpr ⟨fun e' he' ↦ ?_, hpairwise⟩
        obtain ⟨g, b, hsets, hg⟩ := hall e' he'
        refine ⟨g, b, hsets, fun h ↦ ?_⟩
        rcases List.mem_cons.mp h with rfl | h
        · exact hapart e' he' _ he.names hsets.names
        · exact hg h
      obtain ⟨c', h⟩ := hrest
      exact ⟨c', .cons he hnew h⟩

/-- Afterwards, a field that an entry names holds the value of that entry, and every other field is
as before. -/
theorem SetsAll.values (h : SetsAll c seen es c') (f : Field) :
    (∃ e ∈ es, Sets e f (c'.value f)) ∨
      (∀ e ∈ es, ¬ Names e.1.shape f) ∧ c'.value f = c.value f := by
  induction h with
  | nil => exact .inr ⟨List.forall_mem_nil _, rfl⟩
  | @cons c c' seen e es g a he _ _ ih =>
    obtain ⟨e', he', hsets⟩ | ⟨hnot, hvalue⟩ := ih
    · exact .inl ⟨e', List.mem_cons_of_mem e he', hsets⟩
    · by_cases hf : f = g
      · subst hf
        rw [value_put_self] at hvalue
        exact .inl ⟨e, List.mem_cons_self, hvalue.symm ▸ he⟩
      · rw [value_put_of_ne hf] at hvalue
        exact .inr ⟨List.forall_mem_cons.mpr ⟨fun h ↦ hf (h.unique he.names), hnot⟩, hvalue⟩

theorem SetsAll.congr_seen {seen' : List Field} (h : SetsAll c seen es c')
    (hseen : ∀ f, f ∈ seen' ↔ f ∈ seen) : SetsAll c seen' es c' := by
  induction h generalizing seen' with
  | nil => exact .nil _ _
  | cons he hnew _ ih =>
    refine .cons he (fun h ↦ hnew ((hseen _).mp h)) (ih fun f ↦ ?_)
    rw [List.mem_cons, List.mem_cons, hseen]

/-- The order of the entries does not matter. -/
theorem SetsAll.perm {es' : List (Yaml.Value × Yaml.Value)} (h : SetsAll c seen es c')
    (hperm : es.Perm es') : SetsAll c seen es' c' := by
  induction hperm generalizing c seen with
  | nil => exact h
  | cons e _ ih =>
    cases h with
    | cons he hnew h => exact .cons he hnew (ih h)
  | swap e e' es =>
    cases h with
    | @cons _ _ _ _ _ f a he hnew h =>
      cases h with
      | @cons _ _ _ _ _ g b he' hnew' h =>
        rw [List.mem_cons, not_or] at hnew'
        have hne : f ∉ g :: seen := by
          rw [List.mem_cons, not_or]
          exact ⟨fun h ↦ hnew'.1 h.symm, hnew⟩
        refine .cons he' hnew'.2 (.cons he hne ?_)
        rw [← put_comm c a b fun h ↦ hnew'.1 h.symm]
        refine h.congr_seen fun k ↦ ?_
        rw [List.mem_cons, List.mem_cons, List.mem_cons, List.mem_cons]
        exact or_left_comm
  | trans _ _ ih ih' => exact ih' (ih h)

/-! ### The first entry that is wrong -/

theorem Offends.congr {taken taken' : Field → Prop} {e : Yaml.Value × Yaml.Value} {p : Problem}
    (h : Offends taken e p) (htaken : ∀ f, taken f ↔ taken' f) : Offends taken' e p := by
  cases h with
  | badKey h => exact .badKey h
  | unknownKey hkey h => exact .unknownKey hkey h
  | duplicateKey hkey h => exact .duplicateKey hkey ((htaken _).mp h)
  | badValue hkey hnew h => exact .badValue hkey (fun h ↦ hnew ((htaken _).mpr h)) h
  | zeroTimeout hkey hnew hv h => exact .zeroTimeout hkey (fun h ↦ hnew ((htaken _).mpr h)) hv h

/-- The entries up to `before` are in order, and the next one offends. -/
def FirstOffends (c : Config) (seen : List Field) (es : List (Yaml.Value × Yaml.Value))
    (e : Yaml.Value × Yaml.Value) (p : Problem) : Prop :=
  ∃ before after, es = before ++ e :: after ∧ (∃ c', SetsAll c seen before c') ∧
    Offends (fun f ↦ f ∈ seen ∨ ∃ e' ∈ before, Names e'.1.shape f) e p

/-- The fields that are set after an entry and `before` are those set after the entry is put in
front of `before`. -/
theorem taken_cons_iff {e : Yaml.Value × Yaml.Value} {f g : Field} (hnames : Names e.1.shape f) :
    (g ∈ f :: seen ∨ ∃ e' ∈ es, Names e'.1.shape g) ↔
      g ∈ seen ∨ ∃ e' ∈ e :: es, Names e'.1.shape g := by
  have hg : Names e.1.shape g ↔ g = f := ⟨fun h ↦ h.unique hnames, fun h ↦ h ▸ hnames⟩
  simp only [List.mem_cons, exists_eq_or_imp, hg]
  rw [or_assoc, or_left_comm]

/-- Entries that are in order are taken into account before the others are looked at. -/
theorem SetsAll.setEntries_append (h : SetsAll c seen es c') :
    ∃ seen', (∀ f, f ∈ seen' ↔ f ∈ seen ∨ ∃ e ∈ es, Names e.1.shape f) ∧
      ∀ rest, c.setEntries m seen (es ++ rest) = c'.setEntries m seen' rest := by
  induction h with
  | nil c seen => exact ⟨seen, by simp, fun rest ↦ rfl⟩
  | cons he hnew _ ih =>
    obtain ⟨seen', hseen', hrest⟩ := ih
    refine ⟨seen', fun g ↦ (hseen' g).trans (taken_cons_iff he.names), fun rest ↦ ?_⟩
    rw [List.cons_append, setEntries, he.setEntry_eq hnew]
    exact hrest rest

theorem setEntries_eq_error_iff {x : Failure} :
    c.setEntries m seen es = .error x ↔
      ∃ e p, FirstOffends c seen es e p ∧ x = .misshapen p (p.markIn m e) := by
  constructor
  · intro h
    induction es generalizing c seen with
    | nil => cases h
    | cons e es ih =>
      rw [setEntries] at h
      obtain ⟨f, a, hsets, hnew, he⟩ | ⟨p, hoffends, he⟩ := setEntry_cases c seen e <;> rw [he] at h
      · obtain ⟨e', p, ⟨before, after, rfl, ⟨d, hbefore⟩, hoffends⟩, hx⟩ := ih h
        exact ⟨e', p, ⟨e :: before, after, rfl, ⟨d, .cons hsets hnew hbefore⟩,
          hoffends.congr fun _ ↦ taken_cons_iff hsets.names⟩, hx⟩
      · cases h
        exact ⟨e, p, ⟨[], es, rfl, ⟨c, .nil c seen⟩, hoffends.congr fun f ↦ by simp⟩, rfl⟩
  · rintro ⟨e, p, ⟨before, after, rfl, ⟨d, hbefore⟩, hoffends⟩, rfl⟩
    obtain ⟨seen', hseen', hrest⟩ := hbefore.setEntries_append (m := m)
    have he := (hoffends.congr fun f ↦ (hseen' f).symm).setEntry_eq d
    rw [hrest, setEntries, he]

end Runs

/-! ## Whole documents -/

/-- A configuration that was read has a limit of at least one second. -/
theorem SetsAll.one_le_timeoutSecs {c : Config} {seen : List Field}
    {es : List (Yaml.Value × Yaml.Value)} (h : SetsAll standard seen es c) : 1 ≤ c.timeoutSecs := by
  have hallowed : Allowed (.number .timeoutSecs) (c.value (.number .timeoutSecs)) := by
    obtain ⟨e, -, hsets⟩ | ⟨-, hvalue⟩ := h.values (.number .timeoutSecs)
    · exact hsets.allowed
    · rw [hvalue]
      exact allowed_standard _
  have hne : c.timeoutSecs ≠ 0 := hallowed
  rw [UInt64.le_iff_toNat_le]
  exact Nat.one_le_iff_ne_zero.mpr fun h ↦ hne (UInt64.toNat_inj.mp h)

theorem one_le_timeoutSecs_of_ofDocument {d : Yaml.Document} {c : Config}
    (h : ofDocument d = .ok c) : 1 ≤ c.timeoutSecs := by
  unfold ofDocument at h
  split at h
  · cases h
    decide
  · exact (setEntries_eq_ok_iff.mp h).one_le_timeoutSecs
  · cases h
    decide
  · cases h

/-- **Configurations of mappings.** A mapping gives a configuration exactly if every entry sets a
field, and no field is set twice. The configuration then has the values of the entries, in whatever
order they stand, and the standard values otherwise, and its limit is never zero. If the mapping
gives none, the error is that of the first entry that is wrong, whatever comes behind it. -/
theorem ofDocument_mapping (m : Yaml.Mark) (es : List (Yaml.Value × Yaml.Value)) :
    ((∃ c, ofDocument (.mapping m es) = .ok c) ↔
      (∀ e ∈ es, ∃ f a, Sets e f a) ∧ es.Pairwise Apart) ∧
    (∀ c, ofDocument (.mapping m es) = .ok c →
      (∀ f, (∃ e ∈ es, Sets e f (c.value f)) ∨
        (∀ e ∈ es, ¬ Names e.1.shape f) ∧ c.value f = standard.value f) ∧
      ∀ m' es', es.Perm es' → ofDocument (.mapping m' es') = .ok c) ∧
    (∀ x, ofDocument (.mapping m es) = .error x ↔
      ∃ before e after p, es = before ++ e :: after ∧
        (∃ c, ofDocument (.mapping m before) = .ok c) ∧
        Offends (fun f ↦ ∃ e' ∈ before, Names e'.1.shape f) e p ∧
        x = .misshapen p (p.markIn m e)) ∧
    (∀ d c, ofDocument d = .ok c → 1 ≤ c.timeoutSecs) ∧
    ∀ f : Field, f.key ≠ "use_colors" := by
  have hok : ∀ m es c, ofDocument (.mapping m es) = .ok c ↔ SetsAll standard [] es c :=
    fun m es c ↦ setEntries_eq_ok_iff
  refine ⟨?_, ?_, ?_, fun d c ↦ one_le_timeoutSecs_of_ofDocument, ?_⟩
  · simp only [hok, exists_setsAll_iff, List.not_mem_nil, not_false_eq_true, and_true]
  · intro c h
    have hsets := (hok m es c).mp h
    exact ⟨hsets.values, fun m' es' hperm ↦ (hok m' es' c).mpr (hsets.perm hperm)⟩
  · intro x
    refine setEntries_eq_error_iff.trans ⟨?_, ?_⟩
    · rintro ⟨e, p, ⟨before, after, rfl, ⟨c, hbefore⟩, hoffends⟩, rfl⟩
      exact ⟨before, e, after, p, rfl, ⟨c, (hok m before c).mpr hbefore⟩,
        hoffends.congr fun f ↦ by simp, rfl⟩
    · rintro ⟨before, e, after, p, rfl, ⟨c, hbefore⟩, hoffends, rfl⟩
      exact ⟨e, p, ⟨before, after, rfl, ⟨c, (hok m before c).mp hbefore⟩,
        hoffends.congr fun f ↦ by simp⟩, rfl⟩
  · intro f
    obtain f | f := f <;> cases f <;> decide

end Conformance.Config
