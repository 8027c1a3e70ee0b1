import Conformance.Proofs.Config.Entries
import Conformance.Proofs.Yaml.Mapping
import Conformance.Proofs.Yaml.Scalar
/-!
# Configurations written as text

A configuration, or any selection of its fields, can be written as a document with one field on each
line, and is read back from it. Numbers are written in decimal. Texts are written between double
quotes, so that nothing in them can be taken for a part of the document.
-/

namespace Conformance.Config

/-! ## Documents -/

/-- The key of a field with its value, as an entry of a document. -/
def entry (c : Config) : Field → Yaml.Entry
  | .text f => ⟨(Field.text f).key.toList, .quoted, String.toList (c.value (.text f))⟩
  | .number f =>
    ⟨(Field.number f).key.toList, .plain, Nat.toDigits 10 (UInt64.toNat (c.value (.number f)))⟩

/-- A way of writing a field in one line: its key, a colon, a space, and the value, which is a text
between double quotes or a number in decimal. -/
inductive Writes (c : Config) : Field → List Char → Prop where
  | text {f : TextField} {body : List Char}
    (h : Yaml.Spells (String.toList (c.value (.text f))) body) :
    Writes c (.text f) ((Field.text f).key.toList ++ ':' :: ' ' :: '"' :: (body ++ ['"']))
  | number {f : NumberField} :
    Writes c (.number f) ((Field.number f).key.toList ++ ':' :: ' ' ::
      Nat.toDigits 10 (UInt64.toNat (c.value (.number f))))

/-- The configuration with some fields taken over from another. -/
def takeOver (d c : Config) (fs : List Field) : Config :=
  fs.foldl (fun d f ↦ d.put f (c.value f)) d

theorem value_takeOver (d c : Config) (fs : List Field) (f : Field) :
    (d.takeOver c fs).value f = (if f ∈ fs then c else d).value f := by
  induction fs generalizing d with
  | nil => rw [if_neg List.not_mem_nil]; rfl
  | cons g fs ih =>
    refine (ih (d.put g (c.value g))).trans ?_
    by_cases hfs : f ∈ fs
    · rw [if_pos hfs, if_pos (List.mem_cons_of_mem g hfs)]
    · rw [if_neg hfs]
      by_cases hfg : f = g
      · subst hfg
        rw [value_put_self, if_pos List.mem_cons_self]
      · rw [value_put_of_ne hfg, if_neg (by simp [hfs, hfg])]

theorem entry_key (c : Config) (f : Field) : String.ofList (c.entry f).key = f.key := by
  cases f <;> exact String.ofList_toList

theorem isKey_key (f : Field) : Yaml.IsKey f.key.toList := by
  have hall : f.key.toList.all Yaml.isWordChar = true := by
    obtain f | f := f <;> cases f <;> decide
  refine ⟨⟨?_, List.all_eq_true.mp hall⟩, ?_⟩ <;>
    obtain f | f := f <;> cases f <;> decide

theorem isWord_toDigits (n : Nat) : Yaml.IsWord (Nat.toDigits 10 n) := by
  refine ⟨Nat.toDigits_ne_nil, fun c hc ↦ ?_⟩
  exact Yaml.isWordChar_of_isDigit (Nat.isDigit_of_mem_toDigits (by decide) (by decide) hc)

theorem Writes.writesEntry {c : Config} {f : Field} {l : List Char} (h : c.Writes f l) :
    Yaml.WritesEntry (c.entry f) l := by
  cases h with
  | text h => exact .quoted (isKey_key _) h
  | number => exact .word (isKey_key _) (isWord_toDigits _).isPlainWord

theorem exists_writes (c : Config) (f : Field) : ∃ l, c.Writes f l := by
  cases f with
  | text f =>
    obtain ⟨body, hbody⟩ := Yaml.exists_spells (String.toList (c.value (.text f)))
    exact ⟨_, .text hbody⟩
  | number f => exact ⟨_, .number⟩

theorem exists_lines (c : Config) (fs : List Field) : ∃ doc, Yaml.Lines c.Writes fs doc := by
  induction fs with
  | nil => exact ⟨[], .nil⟩
  | cons f fs ih =>
    obtain ⟨l, hl⟩ := c.exists_writes f
    obtain ⟨doc, hdoc⟩ := ih
    exact ⟨_, .cons hl hdoc⟩

/-! ## Reading them back -/

theorem sets_of_isValues {c : Config} {f : Field} {v : Yaml.Value × Yaml.Value}
    (h : (c.entry f).IsValues v) (hallowed : Allowed f (c.value f)) : Sets v f (c.value f) := by
  obtain ⟨hkey, hvalue⟩ := h
  rw [entry_key] at hkey
  refine ⟨hkey ▸ .mk none .plain f, ?_, hallowed⟩
  cases f with
  | text f =>
    have htext : v.2.shape = .scalar none .quoted (c.value (.text f)) :=
      hvalue.trans (congrArg _ String.ofList_toList)
    exact htext ▸ .text none .quoted _ f
  | number f =>
    refine hvalue ▸ .number f (.plain none) ?_
    rw [String.toList_ofList]
    exact Yaml.natural?_toDigits _

theorem allowed_of_one_le {c : Config} (h : 1 ≤ c.timeoutSecs) (f : Field) :
    Allowed f (c.value f) := by
  cases f with
  | text f => trivial
  | number f =>
    cases f with
    | maxFailureSamples => trivial
    | timeoutSecs =>
      have hne : c.timeoutSecs ≠ 0 := fun hzero ↦ absurd (hzero ▸ h) (by decide)
      exact hne

theorem setsAll_takeOver {c d : Config} {seen fs : List Field} {vs : List (Yaml.Value × Yaml.Value)}
    (h : List.Forall₂ Yaml.Entry.IsValues (fs.map c.entry) vs)
    (hallowed : ∀ f, Allowed f (c.value f)) (hfs : fs.Nodup) (hnew : ∀ f ∈ fs, f ∉ seen) :
    SetsAll d seen vs (d.takeOver c fs) := by
  induction fs generalizing d seen vs with
  | nil =>
    cases h
    exact .nil d seen
  | cons f fs ih =>
    obtain ⟨hf, hfs⟩ := List.nodup_cons.mp hfs
    obtain ⟨hnew, hnews⟩ := List.forall_mem_cons.mp hnew
    cases h with
    | cons he hes =>
      refine .cons (sets_of_isValues he (hallowed f)) hnew (ih hes hfs fun g hg ↦ ?_)
      rw [List.mem_cons, not_or]
      exact ⟨fun h ↦ hf (h ▸ hg), hnews g hg⟩

theorem lines_entries {c : Config} {fs : List Field} {doc : List Char}
    (h : Yaml.Lines c.Writes fs doc) : Yaml.Lines Yaml.WritesEntry (fs.map c.entry) doc := by
  induction h with
  | nil => exact .nil
  | last h => exact .last h.writesEntry
  | cons h _ ih => exact .cons h.writesEntry ih

theorem Writes.exists_isWordChar {c : Config} {f : Field} {l : List Char} (h : c.Writes f l) :
    ∃ d ∈ l, Yaml.isWordChar d := by
  obtain ⟨⟨hne, hall⟩, -⟩ := isKey_key f
  obtain ⟨d, hd⟩ := List.exists_mem_of_ne_nil _ hne
  cases h <;> exact ⟨d, List.mem_append_left _ hd, hall d hd⟩

theorem isBlank_of_isWordChar {d : Char} (h : Yaml.isWordChar d) : Text.isBlank d = false :=
  Yaml.forall_printable (P := fun d ↦ Yaml.isWordChar d → Text.isBlank d = false) (by decide)
    (Yaml.isPrintable_of_isWordChar h) h

theorem isBlankText_of_isWordChar {cs : List Char} {d : Char} (hd : d ∈ cs)
    (h : Yaml.isWordChar d) : Text.isBlankText (String.ofList cs) = false := by
  rw [Text.isBlankText, String.toList_ofList]
  exact List.all_eq_false.mpr ⟨d, hd, by simp [isBlank_of_isWordChar h]⟩

/-- A document with a key is not blank. -/
theorem not_isBlankText_of_lines {c : Config} {fs : List Field} {doc : List Char}
    (h : Yaml.Lines c.Writes fs doc) (hne : fs ≠ []) :
    Text.isBlankText (String.ofList doc) = false := by
  cases h with
  | nil => exact absurd rfl hne
  | last h =>
    obtain ⟨d, hd, hword⟩ := h.exists_isWordChar
    exact isBlankText_of_isWordChar hd hword
  | cons h _ =>
    obtain ⟨d, hd, hword⟩ := h.exists_isWordChar
    exact isBlankText_of_isWordChar (List.mem_append_left _ hd) hword

/-- **Configurations written as text.** Every selection of fields can be written, in any order, with
one field on each line, and what is read back is the standard configuration with these fields taken
over. A text of nothing but white space gives the standard configuration. -/
theorem ofText_lines (c : Config) (hc : 1 ≤ c.timeoutSecs) (fs : List Field) (hfs : fs.Nodup) :
    (∃ doc, Yaml.Lines c.Writes fs doc) ∧
    (∀ doc, Yaml.Lines c.Writes fs doc → ∃ c', ofText (String.ofList doc) = .ok c' ∧
      ∀ f, c'.value f = (if f ∈ fs then c else standard).value f) ∧
    ∀ s : String, (∀ d ∈ s.toList, Text.isBlank d) → ofText s = .ok standard := by
  refine ⟨c.exists_lines fs, fun doc hdoc ↦ ?_, fun s hs ↦ ?_⟩
  · refine ⟨standard.takeOver c fs, ?_, value_takeOver standard c fs⟩
    -- Without fields there is no mapping at all, but a blank text.
    by_cases hne : fs = []
    · subst hne
      cases hdoc
      rfl
    · obtain ⟨m, vs, hdocument, hvalues⟩ :=
        Yaml.Document.ofText?_lines (lines_entries hdoc) (mt List.map_eq_nil_iff.mp hne)
      have hsets : SetsAll standard [] vs (standard.takeOver c fs) :=
        setsAll_takeOver hvalues (allowed_of_one_le hc) hfs fun _ _ ↦ List.not_mem_nil
      rw [ofText, not_isBlankText_of_lines hdoc hne, hdocument]
      exact hsets.setEntries_eq
  · exact if_pos (List.all_eq_true.mpr hs)

/-- A text that looks like a part of the document, and a number as large as it can be. -/
theorem ofText_misleading_name :
    1 ≤ Config.timeoutSecs
        { standard with suiteName := ": #é", timeoutSecs := 18446744073709551615 } ∧
      [Field.number .timeoutSecs, .text .suiteName].Nodup ∧
      ofText "timeout_secs: 18446744073709551615\nsuite_name: \": #\\xE9\"\n"
        = .ok { standard with suiteName := ": #é", timeoutSecs := 18446744073709551615 } := by
  have hdigits : Yaml.HexDigits ([] ++ ['E'] ++ ['9']) (16 * (16 * 0 + 14) + 9) :=
    .snoc (.snoc .nil ⟨by decide, .inr rfl⟩) ⟨by decide, .inl rfl⟩
  have hletter : Yaml.SpellsChar 'é' ['\\', 'x', 'E', '9'] := .byte rfl hdigits
  have hspells : Yaml.Spells [':', ' ', '#', 'é'] [':', ' ', '#', '\\', 'x', 'E', '9'] :=
    .cons (.plain (by decide) (by decide) (by decide))
      (.cons (.plain (by decide) (by decide) (by decide))
        (.cons (.plain (by decide) (by decide) (by decide))
          (.cons hletter .nil)))
  have hname : String.toList ": #é" = [':', ' ', '#', 'é'] := by decide
  refine ⟨by decide, by decide, ?_⟩
  obtain ⟨-, hread, -⟩ := ofText_lines
    { standard with suiteName := ": #é", timeoutSecs := 18446744073709551615 } (by decide)
    [.number .timeoutSecs, .text .suiteName] (by decide)
  obtain ⟨c', hc', hvalues⟩ := hread _ (.cons .number (.cons (.text (hname ▸ hspells)) .nil))
  have hc : c' = { standard with suiteName := ": #é", timeoutSecs := 18446744073709551615 } := by
    refine ext_value fun f ↦ (hvalues f).trans ?_
    obtain f | f := f <;> cases f <;> rfl
  rw [← hc]
  exact hc'

end Conformance.Config
