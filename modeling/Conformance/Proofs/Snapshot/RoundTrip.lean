import Conformance.Proofs.Snapshot.Reader
import Conformance.Snapshot.Printer
/-!
# A snapshot reads back as its tally

What the printer writes for a count, a string, a failure sample and a tally is taken back by the
reader of that part, whatever stands behind it. The counts and samples survive as they are; the
sample limit is not written, so a tally that was read has the usual one.

It follows that a snapshot tells two tallies apart exactly if they differ in something that is
written.
-/

namespace Conformance.Snapshot

open Json (Finds EndsNumeral)

/-! ## Strings -/

theorem hexDigit?_hexChar {n : Nat} (h : n < 16) : Json.hexDigit? (hexChar n) = some n := by
  have hall : ∀ m, m < 16 → Json.hexDigit? (hexChar m) = some m := by decide
  exact hall n h

/-- A control character without a letter escape is found behind its four digits. -/
theorem escape_control {c : Char} (h : c.toNat < 0x20) (r : List Char) :
    Finds (Json.escape
      ('u' :: '0' :: '0' :: hexChar (c.toNat / 16) :: hexChar (c.toNat % 16) :: r)) c r := by
  have hzero : Json.hexDigit? '0' = some 0 := by decide
  have hvalue : ((0 * 16 + 0) * 16 + c.toNat / 16) * 16 + c.toNat % 16 = c.toNat := by omega
  have hhex := Json.hex4_digits hzero hzero (hexDigit?_hexChar (n := c.toNat / 16) (by omega))
    (hexDigit?_hexChar (n := c.toNat % 16) (by omega)) r
  rw [hvalue] at hhex
  -- Surrogates begin far above the control characters.
  have hhigh : Json.isHighSurrogate c.toNat = false := by
    rw [Json.isHighSurrogate, Bool.and_eq_false_iff]
    exact .inl (by rw [decide_eq_false_iff_not]; omega)
  have hlow : Json.isLowSurrogate c.toNat = false := by
    rw [Json.isLowSurrogate, Bool.and_eq_false_iff]
    exact .inl (by rw [decide_eq_false_iff_not]; omega)
  have hchar := Json.escape_numeric hhex hhigh hlow
  rwa [Char.ofNat_toNat] at hchar

/-- A character is written in one of three ways: by a letter escape, by four digits, as itself. -/
theorem escapedChar_cases (c : Char) :
    (∃ x, escapedChar c = ['\\', x] ∧ Json.shortEscape? x = some c) ∨
      (escapedChar c
          = ['\\', 'u', '0', '0', hexChar (c.toNat / 16), hexChar (c.toNat % 16)] ∧
        c.toNat < 0x20) ∨
      (escapedChar c = [c] ∧ c ≠ '"' ∧ c ≠ '\\' ∧ ¬ c.toNat < 0x20) := by
  unfold escapedChar
  split
  · subst c; exact .inl ⟨'"', rfl, rfl⟩
  split
  · subst c; exact .inl ⟨'\\', rfl, rfl⟩
  split
  · subst c; exact .inl ⟨'b', rfl, rfl⟩
  split
  · subst c; exact .inl ⟨'f', rfl, rfl⟩
  split
  · subst c; exact .inl ⟨'n', rfl, rfl⟩
  split
  · subst c; exact .inl ⟨'r', rfl, rfl⟩
  split
  · subst c; exact .inl ⟨'t', rfl, rfl⟩
  split
  · exact .inr (.inl ⟨rfl, ‹_›⟩)
  · exact .inr (.inr ⟨rfl, ‹_›, ‹_›, ‹_›⟩)

/-- However a character is written, it is found. -/
theorem stringBody_escapedChar (c : Char) {r s rest : List Char}
    (h : Finds (Json.stringBody r) s rest) :
    Finds (Json.stringBody (escapedChar c ++ r)) (c :: s) rest := by
  obtain ⟨x, hx, hshort⟩ | ⟨hx, hcontrol⟩ | ⟨hx, hquote, hbackslash, hcontrol⟩ :=
    escapedChar_cases c
  · rw [hx]
    exact Json.stringBody_escape (Json.escape_short hshort r) h
  · rw [hx]
    exact Json.stringBody_escape (escape_control hcontrol r) h
  · rw [hx]
    exact Json.stringBody_plain hquote hbackslash hcontrol h

theorem stringBody_escaped (s rest : List Char) :
    Finds (Json.stringBody (s.flatMap escapedChar ++ '"' :: rest)) s rest := by
  induction s with
  | nil => exact Json.stringBody_quote rest
  | cons c s ih =>
    rw [List.flatMap_cons, List.append_assoc]
    exact stringBody_escapedChar c ih

theorem stringChars_append (s : String) (rest : List Char) :
    stringChars s ++ rest = '"' :: (s.toList.flatMap escapedChar ++ '"' :: rest) := by
  simp only [stringChars, List.cons_append, List.append_assoc, List.nil_append]

theorem readsBack_text (s : String) : ReadsBack readText (stringChars s) s := by
  intro ws rest hws _
  have hskip := Json.skipSpace_append_cons hws (c := '"') (by decide)
    (s.toList.flatMap escapedChar ++ '"' :: rest)
  rw [stringChars_append]
  have h := readText_string hskip (stringBody_escaped s.toList rest)
  rwa [String.ofList_toList] at h

/-! ## Counts -/

theorem readsBack_count (n : UInt64) : ReadsBack readCount (countChars n) n := by
  intro ws rest hws hrest
  have hnumber := Json.number_toDigits n.toNat_lt hrest
  have hdigit : ∀ c ∈ countChars n, Json.isDigit c := fun c hc ↦
    Nat.isDigit_of_mem_toDigits (by decide) (by decide) hc
  obtain ⟨d, ds, hds⟩ : ∃ d ds, countChars n = d :: ds :=
    List.exists_cons_of_ne_nil Nat.toDigits_ne_nil
  have hd : Json.isDigit d := hdigit d (hds ▸ List.mem_cons_self)
  have hskip := Json.skipSpace_append_cons hws (Json.isSpace_of_isDigit hd) (ds ++ rest)
  change Finds (Json.number (countChars n ++ rest)) _ _ at hnumber
  rw [hds] at hnumber ⊢
  have h := readCount_number hskip hd hnumber
  rwa [UInt64.ofNat_toNat] at h

/-! ## Blocks -/

theorem isSpace_of_mem_newline (level : Nat) : ∀ c ∈ newline level, Json.isSpace c := by
  intro c hc
  rw [newline, List.mem_cons, List.mem_replicate] at hc
  obtain rfl | ⟨-, rfl⟩ := hc <;> rfl

theorem endsNumeral_newline (level : Nat) (rest : List Char) :
    EndsNumeral (newline level ++ rest) := by
  intro c hc
  cases hc
  decide

theorem endsNumeral_comma (rest : List Char) : EndsNumeral (',' :: rest) := by
  intro c hc
  cases hc
  decide

theorem intercalate_comma (x : List Char) (xs : List (List Char)) :
    List.intercalate [','] (x :: xs) = x ++ xs.flatMap (',' :: ·) := by
  induction xs generalizing x with
  | nil => simp
  | cons y ys ih => rw [List.intercalate_cons_cons, ih y]; simp

/-- A block with items: the first behind the bracket, the others behind commas. -/
theorem blockChars_cons (opening closing : Char) (level : Nat) (x : List Char)
    (xs : List (List Char)) (rest : List Char) :
    blockChars opening closing level (x :: xs) ++ rest
      = opening :: (newline (level + 1) ++ (x
        ++ (xs.flatMap (fun x ↦ ',' :: (newline (level + 1) ++ x))
          ++ (newline level ++ closing :: rest)))) := by
  rw [blockChars, if_neg (List.cons_ne_nil _ _), List.map_cons, intercalate_comma]
  simp [List.flatMap_map]

theorem beginsElement_blockChars {opening : Char} (hspace : Json.isSpace opening = false)
    (hclose : opening ≠ ']') (closing : Char) (level : Nat) (items : List (List Char)) :
    BeginsElement (blockChars opening closing level items) := by
  unfold blockChars
  split
  · exact ⟨opening, [closing], rfl, hspace, hclose⟩
  · exact ⟨opening, _, rfl, hspace, hclose⟩

theorem readsBack_list {α : Type} {read : Reader α} {write : α → List Char} {as : List α}
    (hread : ∀ a ∈ as, ReadsBack read (write a) a) (hbegin : ∀ a ∈ as, BeginsElement (write a))
    (level : Nat) :
    ReadsBack (readList read) (blockChars '[' ']' level (as.map write)) as := by
  intro ws rest hws _
  cases as with
  | nil =>
    refine finds_behindSpace (Json.skipSpace_append_cons hws (c := '[') (by decide) _) ?_
    exact finds_cons id '[' (readElements_closed read (List.forall_mem_nil _) true rest)
  | cons a as =>
    rw [List.map_cons, blockChars_cons, List.flatMap_map]
    refine finds_behindSpace (Json.skipSpace_append_cons hws (c := '[') (by decide) _) ?_
    refine finds_cons id '[' ?_
    have hfollow : EndsNumeral (as.flatMap (fun a ↦ ',' :: (newline (level + 1) ++ write a))
        ++ (newline level ++ ']' :: rest)) := by
      cases as with
      | nil => exact endsNumeral_newline level _
      | cons b as => exact endsNumeral_comma _
    refine readElements_element
      (nextElement_first (isSpace_of_mem_newline _) (hbegin a List.mem_cons_self) _)
      (hread a List.mem_cons_self _ _ (isSpace_of_mem_newline _) hfollow) ?_
    exact readElements_later (isSpace_of_mem_newline _) (isSpace_of_mem_newline _)
      (fun b hb ↦ hread b (List.mem_cons_of_mem a hb))
      (fun b hb ↦ hbegin b (List.mem_cons_of_mem a hb)) (endsNumeral_newline level _) rest

/-! ### Objects -/

section Objects

variable {φ δ : Type} {m : Members φ δ}

/-- Members, each a key and a value, fill in a draft one after the other: every key names a field
that the draft does not have yet, and every value is read back into it. -/
inductive Fills (m : Members φ δ) : δ → List (String × List Char) → δ → Prop where
  | nil (draft : δ) : Fills m draft [] draft
  | cons {draft draft' result : δ} {key : String} {value : List Char}
      {members : List (String × List Char)} {f : φ} (hf : m.field? key.toList = some f)
      (hnew : m.isSet draft f = false) (hvalue : ReadsBack (m.read draft f) value draft')
      (h : Fills m draft' members result) : Fills m draft ((key, value) :: members) result

theorem readMembers_memberChars {draft draft' result : δ} {key : String} {f : φ}
    {value ws rest rest' : List Char} (hf : m.field? key.toList = some f)
    (hnew : m.isSet draft f = false) (hvalue : ReadsBack (m.read draft f) value draft')
    (hws : ∀ c ∈ ws, Json.isSpace c) (hrest : EndsNumeral rest) (first : Bool)
    (hmembers : Finds (readMembers m draft' false rest) result rest') :
    Finds (readMembers m draft first
      (separator first ++ (ws ++ (memberChars key value ++ rest)))) result rest' := by
  have hkey := stringBody_escaped key.toList (':' :: ' ' :: (value ++ rest))
  have hshape : memberChars key value ++ rest
      = '"' :: (key.toList.flatMap escapedChar ++ '"' :: ':' :: ' ' :: (value ++ rest)) := by
    simp only [memberChars, List.append_assoc, stringChars_append, List.cons_append,
      List.nil_append]
  have hblank : ∀ c ∈ [' '], Json.isSpace c := by
    intro c hc
    rw [List.mem_singleton.mp hc]
    decide
  obtain ⟨hlt, hnext⟩ := nextMember_member hws first hkey
  rw [hshape]
  exact readMembers_member hnext (readMember_field hf hnew (hvalue [' '] rest hblank hrest))
    hmembers

/-- What follows a member in a block is a comma or the line of the closing brace. -/
theorem endsNumeral_members (level : Nat) (members : List (String × List Char))
    (rest : List Char) :
    EndsNumeral (members.flatMap
      (fun x ↦ ',' :: (newline (level + 1) ++ memberChars x.1 x.2)) ++
        (newline level ++ '}' :: rest)) := by
  cases members with
  | nil => exact endsNumeral_newline level _
  | cons x members => exact endsNumeral_comma _

theorem readMembers_later {draft result : δ} {members : List (String × List Char)}
    (h : Fills m draft members result) (level : Nat) (rest : List Char) :
    Finds (readMembers m draft false (members.flatMap
      (fun x ↦ ',' :: (newline (level + 1) ++ memberChars x.1 x.2)) ++
        (newline level ++ '}' :: rest))) result rest := by
  induction h with
  | nil draft => exact readMembers_closed draft (isSpace_of_mem_newline level) false rest
  | cons hf hnew hvalue h ih =>
    have hstep := readMembers_memberChars hf hnew hvalue
      (isSpace_of_mem_newline (level + 1)) (endsNumeral_members level _ rest) false ih
    rw [List.flatMap_cons, List.cons_append, List.append_assoc, List.cons_append,
      List.append_assoc, List.append_assoc]
    exact hstep

/-- An object over several lines is read back as what its members fill in. -/
theorem readMembers_block {draft result : δ} {members : List (String × List Char)}
    (h : Fills m draft members result) (level : Nat) (rest : List Char) :
    ∃ body, blockChars '{' '}' level (members.map fun x ↦ memberChars x.1 x.2) ++ rest
        = '{' :: body ∧
      Finds (readMembers m draft true body) result rest := by
  cases h with
  | nil =>
    exact ⟨'}' :: rest, rfl, readMembers_closed draft (List.forall_mem_nil _) true rest⟩
  | cons hf hnew hvalue h =>
    refine ⟨_, by rw [List.map_cons, blockChars_cons, List.flatMap_map], ?_⟩
    exact readMembers_memberChars hf hnew hvalue (isSpace_of_mem_newline (level + 1))
      (endsNumeral_members level _ rest) true (readMembers_later h level rest)

end Objects

/-- A value that is read into a draft is read back as it is by itself. -/
theorem ReadsBack.map {α β : Type} {read : Reader α} {chars : List Char} {a : α}
    (h : ReadsBack read chars a) (f : α → β) :
    ReadsBack (fun cs ↦ (read cs).map fun (a, rest) ↦ (f a, rest)) chars (f a) := by
  intro ws rest hws hrest
  obtain ⟨hlt, e⟩ := h ws rest hws hrest
  refine ⟨hlt, ?_⟩
  change (read (ws ++ (chars ++ rest))).map _ = _
  rw [e]
  rfl

/-! ## Failure samples -/

theorem fills_sample (f : FailureSample) :
    Fills sampleMembers {} [("test", stringChars f.test), ("error", stringChars f.error)]
      ⟨some f.test, some f.error⟩ := by
  refine .cons (f := .test) (by decide) rfl
    ((readsBack_text f.test).map fun s ↦ (⟨some s, none⟩ : SampleDraft)) ?_
  refine .cons (f := .error) (by decide) rfl
    ((readsBack_text f.error).map fun s ↦ (⟨some f.test, some s⟩ : SampleDraft)) ?_
  exact .nil _

theorem readsBack_sample (f : FailureSample) : ReadsBack readSample (sampleChars f) f := by
  intro ws rest hws _
  obtain ⟨body, hbody, hlt, e⟩ := readMembers_block (fills_sample f) 2 rest
  have hsample : sampleChars f ++ rest = '{' :: body := hbody
  rw [hsample]
  refine finds_behindSpace (Json.skipSpace_append_cons hws (c := '{') (by decide) body) ?_
  rw [if_neg (by decide), if_pos rfl]
  refine finds_cons id '{' ⟨hlt, ?_⟩
  rw [readSampleMembers, e]
  rfl

/-! ## Tallies -/

theorem readsBack_samples (fs : List FailureSample) (level : Nat) :
    ReadsBack (readList readSample) (blockChars '[' ']' level (fs.map sampleChars)) fs :=
  readsBack_list (fun f _ ↦ readsBack_sample f)
    (fun _ _ ↦ beginsElement_blockChars (by decide) (by decide) _ _ _) level

theorem fills_tally (t : Tally) :
    Fills tallyMembers {}
      [("passed", countChars t.passed), ("failed", countChars t.failed),
        ("skipped", countChars t.skipped), ("total", countChars t.total),
        ("failures", blockChars '[' ']' 1 (t.failures.toList.map sampleChars))]
      ⟨some t.passed, some t.failed, some t.skipped, some t.total, some t.failures.toList⟩ := by
  refine .cons (f := .passed) (by decide) rfl ((readsBack_count t.passed).map
    fun n ↦ (⟨some n, none, none, none, none⟩ : TallyDraft)) ?_
  refine .cons (f := .failed) (by decide) rfl ((readsBack_count t.failed).map
    fun n ↦ (⟨some t.passed, some n, none, none, none⟩ : TallyDraft)) ?_
  refine .cons (f := .skipped) (by decide) rfl ((readsBack_count t.skipped).map
    fun n ↦ (⟨some t.passed, some t.failed, some n, none, none⟩ : TallyDraft)) ?_
  refine .cons (f := .total) (by decide) rfl ((readsBack_count t.total).map
    fun n ↦ (⟨some t.passed, some t.failed, some t.skipped, some n, none⟩ : TallyDraft)) ?_
  refine .cons (f := .failures) (by decide) rfl ((readsBack_samples t.failures.toList 1).map
    fun fs ↦ (⟨some t.passed, some t.failed, some t.skipped, some t.total, some fs⟩ :
      TallyDraft)) ?_
  exact .nil _

/-- The tally that a snapshot of `t` is read as: all that is written, and the usual limit. -/
def stored (t : Tally) : Tally := { t with sampleLimit := defaultSampleLimit }

/-- The object of a tally is found whatever stands behind it. -/
theorem readTally_tallyChars (t : Tally) {ws : List Char} (hws : ∀ c ∈ ws, Json.isSpace c)
    (rest : List Char) : Finds (readTally (ws ++ (tallyChars t ++ rest))) (stored t) rest := by
  obtain ⟨body, hbody, hlt, e⟩ := readMembers_block (fills_tally t) 0 rest
  have htally : tallyChars t ++ rest = '{' :: body := hbody
  rw [htally]
  refine finds_behindSpace (Json.skipSpace_append_cons hws (c := '{') (by decide) body) ?_
  rw [if_neg (by decide), if_pos rfl]
  refine finds_cons id '{' ⟨hlt, ?_⟩
  rw [readTallyMembers, e]
  rfl

/-- Behind a snapshot nothing is read: white space may follow, and nothing else. -/
theorem readAll_append (t : Tally) (s : List Char) :
    readAll (tallyChars t ++ s)
      = if Json.skipSpace s = [] then .ok (stored t) else .error (.json .malformed) := by
  obtain ⟨hlt, e⟩ := readTally_tallyChars t (List.forall_mem_nil _) s
  rw [readAll]
  change (readTally ([] ++ (tallyChars t ++ s)) >>= _) = _
  rw [e]
  rfl

/-- The snapshot of a tally is read as all of it that is written. -/
theorem read_render (t : Tally) : read (render t) = .ok (stored t) := by
  have hall := readAll_append t []
  rw [List.append_nil] at hall
  rw [read, render, String.toList_ofList, hall]
  rfl

/-! ## What a snapshot tells apart -/

theorem stored_eq_iff {t u : Tally} : stored t = stored u ↔
    t.passed = u.passed ∧ t.failed = u.failed ∧ t.skipped = u.skipped ∧ t.total = u.total ∧
      t.failures = u.failures := by
  simp [stored]

theorem stored_eq_self_iff {t : Tally} : stored t = t ↔ t.sampleLimit = 50 := by
  constructor
  · intro h
    rw [← h]
    rfl
  · intro h
    rw [stored, defaultSampleLimit, ← h]

/-- The sample limit is not written. -/
theorem render_stored (t : Tally) : render (stored t) = render t := rfl

theorem render_eq_iff {t u : Tally} : render t = render u ↔ stored t = stored u := by
  constructor
  · intro h
    have hread := read_render t
    rw [h, read_render u] at hread
    exact (Except.ok.inj hread).symm
  · intro h
    rw [← render_stored t, h, render_stored]

/-- **Snapshots are lossless.** Every tally is read back from its snapshot with all counts and
samples, in order, and with the usual sample limit; so it is read back as itself exactly if that is
its limit, and two tallies have one snapshot exactly if they agree on everything that is written. -/
theorem read_render_lossless (t : Tally) :
    (∃ r, read (render t) = .ok r ∧ r.passed = t.passed ∧ r.failed = t.failed ∧
      r.skipped = t.skipped ∧ r.total = t.total ∧ r.failures = t.failures ∧ r.sampleLimit = 50) ∧
    (read (render t) = .ok t ↔ t.sampleLimit = 50) ∧
    ∀ u : Tally, render t = render u ↔
      t.passed = u.passed ∧ t.failed = u.failed ∧ t.skipped = u.skipped ∧ t.total = u.total ∧
        t.failures = u.failures := by
  refine ⟨⟨stored t, read_render t, rfl, rfl, rfl, rfl, rfl, rfl⟩, ?_, ?_⟩
  · rw [read_render, Except.ok.injEq]
    exact stored_eq_self_iff
  · intro u
    exact render_eq_iff.trans stored_eq_iff

end Conformance.Snapshot
