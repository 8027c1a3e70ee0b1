import Conformance.Harness
import Conformance.Proofs.Config.RoundTrip
/-!
# Numbers in a configuration

The two fields that hold a number take over the number that is written, or the document is an error:
there is no rounding, no wrapping and no other reading of a text. Which texts are numbers is said by
their spellings, and of these a field takes the ones that fit into 64 bits, without zero for the
limit of a test.
-/

namespace Conformance.Config

/-! ## Another entry -/

section

variable {c d : Config} {seen : List Field} {m : Yaml.Mark} {f : Field} {a : f.Value}
  {e : Yaml.Value × Yaml.Value} {es before after : List (Yaml.Value × Yaml.Value)}

/-- An entry for a field that no other entry names can be put behind all others. -/
theorem SetsAll.concat (h : SetsAll c seen es d) (he : Sets e f a) (hnew : f ∉ seen)
    (hother : ∀ e' ∈ es, ¬ Names e'.1.shape f) : SetsAll c seen (es ++ [e]) (d.put f a) := by
  induction h with
  | nil => exact .cons he hnew (.nil _ _)
  | @cons _ _ seen _ _ g _ hsets hg _ ih =>
    obtain ⟨hfirst, hrest⟩ := List.forall_mem_cons.mp hother
    have hne : f ≠ g := by
      rintro rfl
      exact hfirst hsets.names
    refine .cons hsets hg (ih (fun hmem ↦ ?_) hrest)
    rcases List.mem_cons.mp hmem with h | h
    · exact hne h
    · exact hnew h

/-- A mapping is an error as soon as one entry sets nothing. -/
theorem exists_error_of_not_sets (he : e ∈ es) (h : ∀ f a, ¬ Sets e f a) :
    ∃ x, ofDocument (.mapping m es) = .error x := by
  rcases hdocument : ofDocument (.mapping m es) with x | c
  · exact ⟨x, rfl⟩
  · obtain ⟨hall, -⟩ := exists_setsAll_iff.mp ⟨c, setEntries_eq_ok_iff.mp hdocument⟩
    obtain ⟨f, a, hsets, -⟩ := hall e he
    exact absurd hsets (h f a)

/-- A mapping with another entry, for a field that the rest does not name, gives the configuration
of the rest with this field changed, or none. -/
theorem ofDocument_insert_iff (hrest : ofDocument (.mapping m (before ++ after)) = .ok d)
    (hother : ∀ e' ∈ before ++ after, ¬ Names e'.1.shape f) (hkey : Names e.1.shape f) :
    ofDocument (.mapping m (before ++ e :: after)) = .ok c ↔ ∃ a, Sets e f a ∧ c = d.put f a := by
  have hsets : ∀ a, Sets e f a →
      ofDocument (.mapping m (before ++ e :: after)) = .ok (d.put f a) := by
    intro a ha
    have hconcat := (setEntries_eq_ok_iff.mp hrest).concat ha List.not_mem_nil hother
    refine setEntries_eq_ok_iff.mpr (hconcat.perm ?_)
    rw [List.append_assoc]
    exact (List.perm_append_singleton e after).append_left before
  constructor
  · intro h
    obtain ⟨hall, -⟩ := exists_setsAll_iff.mp ⟨c, setEntries_eq_ok_iff.mp h⟩
    obtain ⟨g, a, ha, -⟩ := hall e (List.mem_append_right _ List.mem_cons_self)
    obtain rfl := ha.names.unique hkey
    have hput := hsets a ha
    rw [h, Except.ok.injEq] at hput
    exact ⟨a, ha, hput⟩
  · rintro ⟨a, ha, rfl⟩
    exact hsets a ha

end

/-! ## Numbers as values -/

/-- The number that a field holds. -/
def number (c : Config) (f : NumberField) : UInt64 := c.value (.number f)

theorem number_put (c : Config) (f : NumberField) (n : UInt64) :
    (c.put (.number f) n).number f = n :=
  value_put_self c (.number f) n

/-- The numbers that a field takes. -/
def NumberField.Admits (f : NumberField) (n : ℕ) : Prop := n < 2 ^ 64 ∧ (f = .timeoutSecs → n ≠ 0)

/-- A field of numbers never takes this value, whatever else a mapping holds. -/
def NumberField.Rejects (f : NumberField) (v : Yaml.Shape) : Prop :=
  ∀ (m : Yaml.Mark) (es : List (Yaml.Value × Yaml.Value)), ∀ e ∈ es,
    Names e.1.shape (.number f) → e.2.shape = v → ∃ x, ofDocument (.mapping m es) = .error x

section

variable {f : NumberField} {tag : Option String} {w : String}

theorem holds_number_iff {n : UInt64} :
    Holds (.scalar tag .plain w) (.number f) n ↔ Yaml.Numeral w.toList n.toNat := by
  rw [← Yaml.natural?_eq_some_iff]
  constructor
  · rintro ⟨⟩
    assumption
  · exact .number f (.plain tag)

theorem not_holds_quoted (n : UInt64) : ¬ Holds (.scalar tag .quoted w) (.number f) n := by
  rintro ⟨⟩
  rename_i hscalar _
  cases hscalar

theorem allowed_iff_admits {n : UInt64} : Allowed (.number f) n ↔ f.Admits n.toNat := by
  have hzero : n = 0 ↔ n.toNat = 0 := by rw [← UInt64.toNat_inj, UInt64.toNat_zero]
  rw [allowed_number_iff, hzero, not_and]
  exact (and_iff_right n.toNat_lt).symm

/-- What is read as a number and taken is a number that the text spells. -/
theorem exists_holds_iff :
    (∃ n, Holds (.scalar tag .plain w) (.number f) n ∧ Allowed (.number f) n) ↔
      ∃ n, Yaml.Numeral w.toList n ∧ f.Admits n := by
  constructor
  · rintro ⟨n, hholds, hallowed⟩
    exact ⟨UInt64.toNat n, holds_number_iff.mp hholds, allowed_iff_admits.mp hallowed⟩
  · rintro ⟨n, hnumeral, hadmits⟩
    have hn : (UInt64.ofNat n).toNat = n := UInt64.toNat_ofNat_of_lt' hadmits.1
    exact ⟨UInt64.ofNat n, holds_number_iff.mpr (hn.symm ▸ hnumeral),
      allowed_iff_admits.mpr (hn.symm ▸ hadmits)⟩

theorem rejects_of_not_holds {v : Yaml.Shape}
    (h : ∀ n, Holds v (.number f) n → ¬ Allowed (.number f) n) : f.Rejects v := by
  rintro m es e he hkey rfl
  refine exists_error_of_not_sets he fun g a hsets ↦ ?_
  obtain rfl := hsets.names.unique hkey
  exact h a hsets.holds hsets.allowed

theorem rejects_of_not_admits (h : ∀ n, Yaml.Numeral w.toList n → ¬ f.Admits n) :
    f.Rejects (.scalar tag .plain w) :=
  rejects_of_not_holds fun n hholds hallowed ↦
    h (UInt64.toNat n) (holds_number_iff.mp hholds) (allowed_iff_admits.mp hallowed)

end

/-! ## Numbers in a text -/

/-- A document of one line, which gives a field of numbers a plain value. -/
def NumberField.line (f : NumberField) (w : String) : String :=
  Field.key (.number f) ++ ": " ++ w ++ "\n"

/-- A document of one entry is read as a mapping of one entry. -/
theorem ofText_entry {e : Yaml.Entry} {l : List Char} (h : Yaml.WritesEntry e l) :
    ∃ m v, ofText (String.ofList (l ++ ['\n'])) = ofDocument (.mapping m [v]) ∧ e.IsValues v := by
  obtain ⟨m, vs, hdocument, hvalues⟩ :=
    Yaml.Document.ofText?_lines (.cons h .nil) (List.cons_ne_nil e [])
  obtain ⟨v, vs, hv, hvs, rfl⟩ := List.forall₂_cons_left_iff.mp hvalues
  obtain rfl := List.forall₂_nil_left_iff.mp hvs
  obtain ⟨d, hd, hword⟩ : ∃ d ∈ l, Yaml.isWordChar d := by
    cases h with
    | word hk | quoted hk =>
      obtain ⟨d, k, rfl, hd⟩ := hk.toIsWord.exists_cons
      exact ⟨d, List.mem_cons_self, hd⟩
  refine ⟨m, v, ?_, hv⟩
  rw [ofText, isBlankText_of_isWordChar (List.mem_append_left _ hd) hword, hdocument]
  rfl

section

variable {f : NumberField} {w : String}

theorem line_eq (f : NumberField) (w : String) :
    f.line w = String.ofList ((Field.key (.number f)).toList ++ ':' :: ' ' :: w.toList ++ ['\n']) := by
  rw [← String.toList_inj, NumberField.line]
  simp

/-- A line is read as a mapping with the one entry. -/
theorem ofText_line (hw : Yaml.IsPlainWord w.toList) :
    ∃ m e, ofText (f.line w) = ofDocument (.mapping m [e]) ∧ Names e.1.shape (.number f) ∧
      e.2.shape = .scalar none .plain w := by
  obtain ⟨m, e, hread, hkey, hvalue⟩ := ofText_entry (.word (isKey_key (.number f)) hw)
  rw [String.ofList_toList] at hkey hvalue
  refine ⟨m, e, ?_, hkey ▸ .mk none .plain _, hvalue⟩
  rw [line_eq]
  exact hread

theorem ofText_line_eq_ok_iff (hw : Yaml.IsPlainWord w.toList) {c : Config} :
    ofText (f.line w) = .ok c ↔ ∃ n, Yaml.Numeral w.toList n ∧ f.Admits n ∧
      c = standard.setNumber f (UInt64.ofNat n) := by
  obtain ⟨m, e, hread, hkey, hvalue⟩ := ofText_line (f := f) hw
  rw [hread]
  have hempty : ofDocument (.mapping m ([] ++ [])) = .ok standard := rfl
  refine (ofDocument_insert_iff hempty (List.forall_mem_nil _) hkey).trans ?_
  constructor
  · rintro ⟨a, ⟨-, hholds, hallowed⟩, rfl⟩
    rw [hvalue] at hholds
    exact ⟨UInt64.toNat a, holds_number_iff.mp hholds, allowed_iff_admits.mp hallowed,
      congrArg (standard.setNumber f) UInt64.ofNat_toNat.symm⟩
  · rintro ⟨n, hnumeral, hadmits, rfl⟩
    have hn : (UInt64.ofNat n).toNat = n := UInt64.toNat_ofNat_of_lt' hadmits.1
    refine ⟨UInt64.ofNat n, ⟨hkey, ?_, ?_⟩, rfl⟩
    · rw [hvalue]
      exact holds_number_iff.mpr (hn.symm ▸ hnumeral)
    · exact allowed_iff_admits.mpr (hn.symm ▸ hadmits)

/-- Texts that look like numbers, or like nothing at all, and are none that a field could take. -/
theorem not_numeral_of_mem {n : ℕ}
    (hw : w ∈ ["-1", "01", "1.0", "1e3", "", "null", "true", "+", "0x", "0b2", "1_000"]) :
    ¬ Yaml.Numeral w.toList n := by
  have hall : ∀ w ∈ ["-1", "01", "1.0", "1e3", "", "null", "true", "+", "0x", "0b2", "1_000"],
      Yaml.natural? w.toList = none := by decide
  rw [← Yaml.natural?_eq_some_iff, hall w hw]
  exact nofun

end

/-- **Numbers are exact.** A field of numbers takes a plain value, in a mapping whose other entries
are in order, exactly if the text spells a number that it admits, and then holds this number and
nothing else changes. So it is for a text of one line too: all spellings of an admitted number give
one configuration, and the number becomes the limit for a test in whole seconds or the limit of kept
failures. Any mapping is an error that gives such a field a number past 64 bits, a text that spells
no number, or a value between quotes. -/
theorem numbers_exact (f : NumberField) :
    (∀ (m : Yaml.Mark) (before after : List (Yaml.Value × Yaml.Value)) (e : Yaml.Value × Yaml.Value)
        (tag : Option String) (w : String) (d : Config),
      ofDocument (.mapping m (before ++ after)) = .ok d →
      (∀ e' ∈ before ++ after, ¬ Names e'.1.shape (.number f)) →
      Names e.1.shape (.number f) → e.2.shape = .scalar tag .plain w →
      ((∃ c, ofDocument (.mapping m (before ++ e :: after)) = .ok c) ↔
        ∃ n, Yaml.Numeral w.toList n ∧ f.Admits n) ∧
      ∀ c, ofDocument (.mapping m (before ++ e :: after)) = .ok c →
        (∀ n, Yaml.Numeral w.toList n → (c.number f).toNat = n) ∧
        ∀ g, g ≠ .number f → c.value g = d.value g) ∧
    (∀ w : String, Yaml.IsPlainWord w.toList →
      ((∃ c, ofText (f.line w) = .ok c) ↔ ∃ n, Yaml.Numeral w.toList n ∧ f.Admits n)) ∧
    (∀ n, f.Admits n → ∃ c,
      (∀ w : String, Yaml.Numeral w.toList n → ofText (f.line w) = .ok c) ∧
      (∀ w ∈ Yaml.spellings n, ofText (f.line (String.ofList w)) = .ok c) ∧
      (c.number f).toNat = n ∧
      ∀ (target : Path) (maxTests : Option UInt64),
        (f = .timeoutSecs →
          (Harness.ofConfig target c maxTests).executor.timeout.toNanos = n * nanosPerSec) ∧
        (f = .maxFailureSamples → (Harness.ofConfig target c maxTests).sampleLimit.toNat = n)) ∧
    (∀ n, 2 ^ 64 ≤ n → ∀ w : String, Yaml.Numeral w.toList n → ∀ tag,
      f.Rejects (.scalar tag .plain w)) ∧
    (∀ w ∈ ["-1", "01", "1.0", "1e3", "", "null", "true", "+", "0x", "0b2", "1_000"], ∀ tag,
      f.Rejects (.scalar tag .plain w)) ∧
    ∀ tag w, f.Rejects (.scalar tag .quoted w) := by
  refine ⟨?_, fun w hw ↦ ?_, fun n hn ↦ ?_, fun n hn w hw tag ↦ ?_, fun w hw tag ↦ ?_, fun tag w ↦ ?_⟩
  · intro m before after e tag w d hrest hother hkey hvalue
    have hiff (c : Config) := ofDocument_insert_iff (c := c) hrest hother hkey
    constructor
    · rw [← @exists_holds_iff f tag w, ← hvalue]
      simp only [hiff]
      constructor
      · rintro ⟨c, a, hsets, rfl⟩
        exact ⟨a, hsets.holds, hsets.allowed⟩
      · rintro ⟨a, hholds, hallowed⟩
        exact ⟨_, a, ⟨hkey, hholds, hallowed⟩, rfl⟩
    · intro c hc
      obtain ⟨a, hsets, rfl⟩ := (hiff c).mp hc
      refine ⟨fun n hn ↦ ?_, fun g hg ↦ value_put_of_ne hg⟩
      have hholds := hsets.holds
      rw [hvalue] at hholds
      have hn' := (holds_number_iff.mp hholds).unique hn
      exact (congrArg UInt64.toNat (number_put d f a)).trans hn'
  · simp only [ofText_line_eq_ok_iff hw]
    constructor
    · rintro ⟨c, n, hnumeral, hadmits, -⟩
      exact ⟨n, hnumeral, hadmits⟩
    · rintro ⟨n, hnumeral, hadmits⟩
      exact ⟨_, n, hnumeral, hadmits, rfl⟩
  · have hvalue : (UInt64.ofNat n).toNat = n := UInt64.toNat_ofNat_of_lt' hn.1
    have hread (w : String) (hw : Yaml.Numeral w.toList n) :
        ofText (f.line w) = .ok (standard.setNumber f (UInt64.ofNat n)) :=
      (ofText_line_eq_ok_iff hw.isPlainWord).mpr ⟨n, hw, hn, rfl⟩
    refine ⟨_, hread, fun w hw ↦ hread _ ?_, ?_, fun target maxTests ↦ ⟨?_, ?_⟩⟩
    · rw [String.toList_ofList]
      exact Yaml.numeral_of_mem_spellings hw
    · exact (congrArg UInt64.toNat (number_put standard f (UInt64.ofNat n))).trans hvalue
    · rintro rfl
      exact (Duration.toNanos_ofSecs _).trans (congrArg (· * nanosPerSec) hvalue)
    · rintro rfl
      exact hvalue
  · refine rejects_of_not_admits fun k hk hadmits ↦ ?_
    rw [hw.unique hk] at hn
    exact Nat.not_lt.mpr hn hadmits.1
  · exact rejects_of_not_admits fun n hn ↦ absurd hn (not_numeral_of_mem hw)
  · exact rejects_of_not_holds fun n hn ↦ absurd hn (not_holds_quoted n)

/-- Both cases of letters, zeros in front and a sign, for the greatest number of seconds. -/
theorem numbers_exact_greatest :
    NumberField.Admits .timeoutSecs 18446744073709551615 ∧
      Yaml.Numeral "+0x00fFFfffffffffFFFF".toList 18446744073709551615 ∧
      ∃ c, ofText "timeout_secs: +0x00fFFfffffffffFFFF\n" = .ok c ∧
        ofText "timeout_secs: 18446744073709551615\n" = .ok c ∧
        (Harness.ofConfig ⟨"engine"⟩ c none).executor.timeout.toNanos
          = 18446744073709551615 * nanosPerSec := by
  have hadmits : NumberField.Admits .timeoutSecs 18446744073709551615 :=
    ⟨by decide, fun _ ↦ by decide⟩
  have hnumeral : Yaml.Numeral "+0x00fFFfffffffffFFFF".toList 18446744073709551615 :=
    Yaml.natural?_eq_some_iff.mp (by decide)
  have hdecimal : Yaml.Numeral "18446744073709551615".toList 18446744073709551615 :=
    Yaml.natural?_eq_some_iff.mp (by decide)
  have hline : NumberField.line .timeoutSecs "+0x00fFFfffffffffFFFF"
      = "timeout_secs: +0x00fFFfffffffffFFFF\n" := by decide
  have hline' : NumberField.line .timeoutSecs "18446744073709551615"
      = "timeout_secs: 18446744073709551615\n" := by decide
  obtain ⟨-, -, hload, -⟩ := numbers_exact .timeoutSecs
  obtain ⟨c, hread, -, -, hlimit⟩ := hload _ hadmits
  refine ⟨hadmits, hnumeral, c, ?_, ?_, (hlimit ⟨"engine"⟩ none).1 rfl⟩
  · rw [← hline]
    exact hread _ hnumeral
  · rw [← hline']
    exact hread _ hdecimal

end Conformance.Config
