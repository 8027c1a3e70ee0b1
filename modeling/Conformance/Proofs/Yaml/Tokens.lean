import Conformance.Yaml.Token
import Conformance.Proofs.Yaml.Quoted
/-!
# The tokens of a mapping

A mapping can be written as one line for each entry: a word, a colon, a space, and a value that is a
word or stands between double quotes. Such lines are cut into the tokens of a mapping, whatever the
quoted texts look like.

The candidate for a key decides what the colon does: at the first colon the mapping is opened in
front of the key, at every further one only the key is marked. The value cannot begin a key, so the
colons and the length of a value do not matter.
-/

namespace Conformance.Yaml

/-! ## Words -/

namespace Plain

theorem word_append {w r : List Char} (hw : ∀ c ∈ w, isPlainChar c)
    (hr : word false r = some ([], r)) : word false (w ++ r) = some (w, r) := by
  induction w with
  | nil => exact hr
  | cons c w ih =>
    obtain ⟨hc, hw⟩ := List.forall_mem_cons.mp hw
    rw [List.cons_append, word, isSpace_of_isPlainChar hc, ih hw]
    have hcolon : c ≠ ':' := ne_of_isPlainChar hc (by decide)
    simp [hcolon]

theorem canStart_of_isPlainWord {c : Char} {w : List Char} (h : IsPlainWord (c :: w))
    (r : List Char) : canStart false c (w ++ r) := by
  have hc := h.all c List.mem_cons_self
  by_cases hdash : c = '-'
  · subst hdash
    obtain ⟨d, s, hs, hd⟩ := h.exists_cons_of_dash r
    simp [canStart, hs, (isSpace_eq_false_iff.mp hd).1]
  · have hall : ("?:,[]\x7b\x7d#&*!|>'\"%@\x60".toList.all fun d ↦ !isPlainChar d) = true := by
      decide
    have hreserved : "-?:,[]\x7b\x7d#&*!|>'\"%@\x60".toList.contains c = false := by
      rw [List.contains_eq_mem, decide_eq_false_iff_not]
      rintro (_ | ⟨_, hmem⟩)
      · exact hdash rfl
      · exact ne_of_isPlainChar hc (by simpa using List.all_eq_true.mp hall c hmem) rfl
    simp only [canStart, isSpace_of_isPlainChar hc, hreserved]
    rfl

/-- A word ends before something that is no part of it, and the scalar ends there if it does not go
on in the line or far enough to the right. -/
theorem scan_word {w r : List Char} {m : Mark} {margin : Int} {gap : Gap} {c : Cursor}
    (hw : IsPlainWord w) (hline : Cursor.atDocumentLine ⟨w ++ r, m⟩ = false)
    (hr : word false r = some ([], r))
    (hgap : Gap.scan margin (.blanks []) (m.advance w.length) r = some (gap, c))
    (hend : gap = .blanks [] ∨ c.mark.column < margin) :
    scan false margin ⟨w ++ r, m⟩ = some ⟨w, c, gap.isLines⟩ := by
  have hword := word_append hw.all hr
  obtain ⟨d, w, rfl⟩ := List.exists_cons_of_ne_nil hw.ne_nil
  have hcomment : (d :: w ++ r).head? ≠ some '#' := fun h ↦
    ne_of_isPlainChar (hw.all d List.mem_cons_self) (by decide) (Option.some.inj h)
  rw [scan, scanFrom]
  simp only [hline, hcomment, hword, Option.bind_eq_bind, Option.bind_some, hgap]
  rw [if_neg (by simp), if_neg (by simp)]
  by_cases hblank : gap = .blanks []
  · rw [if_pos hblank, hblank]
    rfl
  · have hcolumn : (!false && decide ((c.mark.column : Int) < margin)) = true := by
      simpa using hend.resolve_left hblank
    rw [if_neg hblank, if_pos hcolumn]
    rfl

end Plain

/-! ## Where tokens are read -/

/-- Whether the tokens read so far have opened the mapping. -/
inductive Depth where
  | outside
  | inside
  deriving DecidableEq, Repr

namespace Depth

/-- The column of the innermost collection. -/
def indent : Depth → Int
  | outside => -1
  | inside => 0

/-- The columns around it. -/
def outerIndents : Depth → List Int
  | outside => []
  | inside => [-1]

/-- What is put in front of a key. -/
def opening : Depth → List Token.Kind
  | outside => [.blockMappingStart]
  | inside => []

/-- A text that is partway through being cut, with no brackets open. -/
def tokenizer (d : Depth) (c : Cursor) (ts : Array Token) (k : Option Candidate)
    (allowsKey : Bool) : Tokenizer :=
  ⟨c, ts, k, [], d.indent, d.outerIndents, allowsKey⟩

end Depth

namespace Tokenizer

/-- Whether a character is skipped as a blank. -/
def skips (s : Tokenizer) (d : Char) : Bool := d == ' ' || (d == '\t' && (s.inFlow || !s.allowsKey))

theorem skips_eq_false {s : Tokenizer} {d : Char} (h : isBlank d = false) : s.skips d = false := by
  rw [isBlank, Bool.or_eq_false_iff] at h
  rw [skips, h.1, h.2]
  rfl

theorem skip_skips_stop (s : Tokenizer) {c : Cursor} (h : Stops c.rest) : c.skip s.skips = c :=
  Cursor.skip_stop fun d hd ↦ skips_eq_false (isSpace_eq_false_iff.mp (h d hd).1).1

section

variable {s : Tokenizer} (fuel : Nat) {c : Cursor}

theorem skipSpaceFrom_stop (hskip : s.cursor.skip s.skips = c) (h : Stops c.rest) :
    skipSpaceFrom (fuel + 1) s = { s with cursor := c } := by
  have hskip : s.cursor.skip (fun d ↦ d == ' ' || (d == '\t' && (s.inFlow || !s.allowsKey))) = c :=
    hskip
  have hcomment : c.rest.head? ≠ some '#' := fun hc ↦ (h '#' hc).2.1 rfl
  have hbreak : c.takeBreak = (none, c) :=
    Cursor.takeBreak_stop fun d hd ↦ (isSpace_eq_false_iff.mp (h d hd).1).2
  rw [skipSpaceFrom, hskip, if_neg hcomment, hbreak]

theorem skipSpaceFrom_newLine {r : List Char} {m : Mark} (h : s.cursor = ⟨'\n' :: r, m⟩) :
    skipSpaceFrom (fuel + 1) s = skipSpaceFrom fuel
      { s with cursor := ⟨r, m.newLine 1⟩, allowsKey := s.allowsKey || !s.inFlow } := by
  have hskip : s.cursor.skip (fun d ↦ d == ' ' || (d == '\t' && (s.inFlow || !s.allowsKey)))
      = ⟨'\n' :: r, m⟩ := by
    rw [h]
    refine Cursor.skip_stop fun d hd ↦ ?_
    obtain rfl : '\n' = d := Option.some.inj hd
    rfl
  have hcomment : (⟨'\n' :: r, m⟩ : Cursor).rest.head? ≠ some '#' := by simp
  rw [skipSpaceFrom, hskip, if_neg hcomment]
  rfl

end

end Tokenizer

namespace Depth

variable (d : Depth) {r : List Char} {m : Mark} (ts : Array Token)

/-- Between tokens nothing but the place changes, since no column lies left of the mapping. -/
theorem settle_of_skipSpaceFrom {c c' : Cursor} {k : Option Candidate} {a a' : Bool}
    (hmark : c.rest.head? ≠ some '\uFEFF')
    (hskip : Tokenizer.skipSpaceFrom (c.rest.length + 1) (d.tokenizer c ts k a)
      = d.tokenizer c' ts k a')
    (hk : Tokenizer.refresh c'.mark k = some k) :
    (d.tokenizer c ts k a).settle = some (d.tokenizer c' ts k a') := by
  have hspace : (d.tokenizer c ts k a).skipSpace = d.tokenizer c' ts k a' := by
    rw [Tokenizer.skipSpace, if_neg (by simp [tokenizer, hmark])]
    exact hskip
  have hlapsed : (d.tokenizer c' ts k a').dropLapsed = some (d.tokenizer c' ts k a') := by
    rw [Tokenizer.dropLapsed]
    change (Tokenizer.refresh c'.mark k >>= _) = _
    rw [hk]
    rfl
  have hclose : (d.tokenizer c' ts k a').close (c'.mark.column : Int) = d.tokenizer c' ts k a' := by
    cases d with
    | outside => rfl
    | inside =>
      have hcolumn : ¬ (c'.mark.column : Int) < 0 := Int.not_lt.mpr (Int.natCast_nonneg _)
      simp [Tokenizer.close, tokenizer, Tokenizer.inFlow, indent, outerIndents,
        Tokenizer.closeDeeper, hcolumn]
  rw [Tokenizer.settle, hspace, hlapsed]
  exact congrArg some hclose

theorem settle_stop {c : Cursor} {k : Option Candidate} {a : Bool} (h : Stops c.rest)
    (hk : Tokenizer.refresh c.mark k = some k) :
    (d.tokenizer c ts k a).settle = some (d.tokenizer c ts k a) := by
  refine d.settle_of_skipSpaceFrom ts (fun hc ↦ (h _ hc).2.2 rfl) ?_ hk
  exact Tokenizer.skipSpaceFrom_stop _ (Tokenizer.skip_skips_stop _ h) h

theorem settle_space {a : Bool} (h : Stops r) :
    (d.tokenizer ⟨' ' :: r, m⟩ ts none a).settle
      = some (d.tokenizer ⟨r, m.advance 1⟩ ts none a) := by
  refine d.settle_of_skipSpaceFrom ts (by simp) ?_ rfl
  refine Tokenizer.skipSpaceFrom_stop _ ?_ h
  exact (Cursor.skip_cons rfl).trans (Tokenizer.skip_skips_stop _ h)

/-- At the start of a line a key may begin. -/
theorem settle_newLine {a : Bool} (h : Stops r) :
    (d.tokenizer ⟨'\n' :: r, m⟩ ts none a).settle
      = some (d.tokenizer ⟨r, m.newLine 1⟩ ts none true) := by
  refine d.settle_of_skipSpaceFrom ts (by simp) ?_ rfl
  rw [Tokenizer.skipSpaceFrom_newLine _ rfl]
  change Tokenizer.skipSpaceFrom (r.length + 1)
    (d.tokenizer ⟨r, m.newLine 1⟩ ts none (a || true)) = _
  rw [Bool.or_true]
  exact Tokenizer.skipSpaceFrom_stop _ (Tokenizer.skip_skips_stop _ h) h

end Depth

/-! ## Keys and values -/

/-- A word that is short enough to be a key. -/
structure IsKey (k : List Char) : Prop extends IsWord k where
  short : k.length ≤ longestKey

/-- An entry whose value is a scalar. -/
structure Entry where
  key : List Char
  /-- How the value is written. -/
  style : Style
  value : List Char

/-- A way of writing an entry in one line. -/
inductive WritesEntry : Entry → List Char → Prop where
  | word {k w : List Char} (hk : IsKey k) (hw : IsPlainWord w) :
    WritesEntry ⟨k, .plain, w⟩ (k ++ ':' :: ' ' :: w)
  | quoted {k t body : List Char} (hk : IsKey k) (ht : Spells t body) :
    WritesEntry ⟨k, .quoted, t⟩ (k ++ ':' :: ' ' :: '"' :: (body ++ ['"']))

/-- A text that has one line for each item of a list, as the relation writes it. The last line may
end with the text. -/
inductive Lines {α : Type} (writes : α → List Char → Prop) : List α → List Char → Prop where
  | nil : Lines writes [] []
  | last {x : α} {l : List Char} (h : writes x l) : Lines writes [x] l
  | cons {x : α} {xs : List α} {l r : List Char} (h : writes x l) (hr : Lines writes xs r) :
    Lines writes (x :: xs) (l ++ '\n' :: r)

/-- The tokens of an entry. -/
def Entry.kinds (e : Entry) : List Token.Kind :=
  [.key, .scalar .plain (String.ofList e.key), .value, .scalar e.style (String.ofList e.value)]

theorem WritesEntry.three_lt_length {e : Entry} {l : List Char} (h : WritesEntry e l) :
    3 < l.length := by
  cases h with
  | word hk hw =>
    have hk := List.length_pos_iff.mpr hk.ne_nil
    have hw := List.length_pos_iff.mpr hw.ne_nil
    simp only [List.length_append, List.length_cons]
    omega
  | quoted hk =>
    have hk := List.length_pos_iff.mpr hk.ne_nil
    simp only [List.length_append, List.length_cons]
    omega

theorem WritesEntry.stops {e : Entry} {l : List Char} (h : WritesEntry e l) (r : List Char) :
    Stops (l ++ r) := by
  cases h with
  | word hk | quoted hk =>
    rw [List.append_assoc]
    exact hk.isPlainWord.stops _

theorem WritesEntry.isPermitted {e : Entry} {l : List Char} (h : WritesEntry e l) :
    ∀ c ∈ l, isPermitted c := by
  have hword : ∀ {w : List Char}, IsPlainWord w → ∀ c ∈ w, Yaml.isPermitted c :=
    fun hw c hc ↦ isPermitted_of_isPrintable (isPrintable_of_isPlainChar (hw.all c hc))
  cases h with
  | word hk hw =>
    simp only [List.forall_mem_append, List.forall_mem_cons]
    exact ⟨hword hk.isPlainWord, rfl, rfl, hword hw⟩
  | quoted hk ht =>
    simp only [List.forall_mem_append, List.forall_mem_cons]
    exact ⟨hword hk.isPlainWord, rfl, rfl, rfl,
      fun c hc ↦ isPermitted_of_isPrintable (ht.isPrintable c hc), rfl, nofun⟩

theorem Lines.stops {es : List Entry} {cs : List Char} (h : Lines WritesEntry es cs) :
    Stops cs := by
  cases h with
  | nil => exact nofun
  | last h => exact List.append_nil cs ▸ h.stops []
  | cons h => exact h.stops _

theorem Lines.isPermitted {es : List Entry} {cs : List Char} (h : Lines WritesEntry es cs) :
    ∀ c ∈ cs, isPermitted c := by
  induction h with
  | nil => exact List.forall_mem_nil _
  | last h => exact h.isPermitted
  | cons h _ ih =>
    rw [List.forall_mem_append, List.forall_mem_cons]
    exact ⟨h.isPermitted, rfl, ih⟩

namespace Tokenizer

/-- What the tokens are that were read so far. -/
def kinds (ts : Array Token) : List Token.Kind := ts.toList.map (·.kind)

@[simp] theorem kinds_push (ts : Array Token) (t : Token) :
    kinds (ts.push t) = kinds ts ++ [t.kind] := by
  simp [kinds]

/-- What is put in front of the last token. -/
theorem kinds_insert {s : Tokenizer} {ts : Array Token} {t : Token} (h : s.tokens = ts.push t)
    (ks : List Token.Kind) (m : Mark) :
    kinds (s.insert ts.size ks m).tokens = kinds ts ++ ks ++ [t.kind] := by
  have hlen : ts.size = ts.toList.length := Array.length_toList.symm
  rw [insert, h, kinds, Array.toList_push, hlen, List.take_left, List.drop_left]
  simp [kinds, Function.comp_def]

theorem run_succ {s s' s'' : Tokenizer} {c : Char} {r : List Char} (hsettle : s.settle = some s')
    (hrest : s'.cursor.rest = c :: r) (htoken : s'.token c r = some s'') (fuel : Nat) :
    run (fuel + 1) s = run fuel s'' := by
  simp only [run, hsettle, hrest, htoken, Option.bind_eq_bind, Option.bind_some]

end Tokenizer

namespace Depth

open Tokenizer (run kinds kinds_push kinds_insert run_succ)

variable (d : Depth) {r : List Char} {m : Mark} (ts : Array Token)

theorem startsTriple_tokenizer {c e : Char} (h : c ≠ e) (k : Option Candidate) (a : Bool) :
    (d.tokenizer ⟨c :: r, m⟩ ts k a).cursor.startsTriple e = false :=
  Cursor.startsTriple_of_ne h

/-- The first character of a word begins no other token. -/
theorem token_word {c : Char} {w : List Char} (hw : IsPlainWord (c :: w))
    (hline : Cursor.atDocumentLine ⟨c :: (w ++ r), m⟩ = false) (k : Option Candidate) (a : Bool) :
    (d.tokenizer ⟨c :: (w ++ r), m⟩ ts k a).token c (w ++ r)
      = (d.tokenizer ⟨c :: (w ++ r), m⟩ ts k a).plain := by
  have hc := hw.all c List.mem_cons_self
  have hne : ∀ e, isPlainChar e = false → ¬ c = e := fun e he ↦ ne_of_isPlainChar hc he
  rw [Cursor.atDocumentLine, Bool.or_eq_false_iff] at hline
  have hstart : (d.tokenizer ⟨c :: (w ++ r), m⟩ ts k a).cursor.startsTriple '-' = false := hline.1
  have hend : (d.tokenizer ⟨c :: (w ++ r), m⟩ ts k a).cursor.startsTriple '.' = false := hline.2
  have hitem : (c == '-' && startsSpace (w ++ r)) = false := by
    by_cases hdash : c = '-'
    · subst hdash
      obtain ⟨e, s, hs, he⟩ := hw.exists_cons_of_dash r
      rw [hs]
      exact he
    · simp [hdash]
  have hflow : (d.tokenizer ⟨c :: (w ++ r), m⟩ ts k a).inFlow = false := rfl
  have hplain : Plain.canStart false c (w ++ r) := Plain.canStart_of_isPlainWord hw r
  simp (disch := decide) [Tokenizer.token, hne, hstart, hend, hitem, hflow, hplain]

theorem token_quote (k : Option Candidate) (a : Bool) :
    (d.tokenizer ⟨'"' :: r, m⟩ ts k a).token '"' r
      = (d.tokenizer ⟨'"' :: r, m⟩ ts k a).quoted false := by
  simp (disch := decide) [Tokenizer.token, startsTriple_tokenizer]

theorem token_colon (k : Option Candidate) (a : Bool) :
    (d.tokenizer ⟨':' :: ' ' :: r, m⟩ ts k a).token ':' (' ' :: r)
      = (d.tokenizer ⟨':' :: ' ' :: r, m⟩ ts k a).value := by
  have hspace : startsSpace (' ' :: r) = true := rfl
  simp (disch := decide) [Tokenizer.token, startsTriple_tokenizer, hspace]

theorem plain_key {w : List Char} (hw : IsPlainWord w)
    (hline : Cursor.atDocumentLine ⟨w ++ ':' :: ' ' :: r, m⟩ = false) :
    (d.tokenizer ⟨w ++ ':' :: ' ' :: r, m⟩ ts none true).plain
      = some (d.tokenizer ⟨':' :: ' ' :: r, m.advance w.length⟩
          (ts.push ⟨.scalar .plain (String.ofList w), m, m.advance w.length⟩)
          (some ⟨m, d.indent == m.column, ts.size⟩) false) := by
  have hscan : Plain.scan false (d.indent + 1) ⟨w ++ ':' :: ' ' :: r, m⟩
      = some ⟨w, ⟨':' :: ' ' :: r, m.advance w.length⟩, false⟩ :=
    Plain.scan_word hw hline rfl (Gap.scan_stop (by decide) _ _ _ _) (.inl rfl)
  change (Plain.scan false (d.indent + 1) ⟨w ++ ':' :: ' ' :: r, m⟩ >>= _) = _
  rw [hscan]
  rfl

theorem plain_value {w : List Char} {c : Cursor} {isPastBreak : Bool}
    (hscan : Plain.scan false (d.indent + 1) ⟨r, m⟩ = some ⟨w, c, isPastBreak⟩) :
    (d.tokenizer ⟨r, m⟩ ts none false).plain
      = some (d.tokenizer c (ts.push ⟨.scalar .plain (String.ofList w), m, c.mark⟩) none
          isPastBreak) := by
  change (Plain.scan false (d.indent + 1) ⟨r, m⟩ >>= _) = _
  rw [hscan]
  rfl

theorem quoted_value {t : List Char} {c : Cursor} (hscan : Quoted.scan false ⟨r, m⟩ = some (t, c)) :
    (d.tokenizer ⟨r, m⟩ ts none false).quoted false
      = some (d.tokenizer c (ts.push ⟨.scalar .quoted (String.ofList t), m, c.mark⟩) none false) := by
  change (Quoted.scan false ⟨r, m⟩ >>= _) = _
  rw [hscan]
  rfl

/-- The first colon opens the mapping. -/
theorem value_colon (hm : m.column = 0) (m' : Mark) (t : Token) (isRequired : Bool) :
    ∃ ts', (d.tokenizer ⟨':' :: r, m'⟩ (ts.push t) (some ⟨m, isRequired, ts.size⟩) false).value
        = some (inside.tokenizer ⟨r, m'.advance 1⟩ ts' none false) ∧
      kinds ts' = kinds ts ++ d.opening ++ [.key, t.kind, .value] := by
  -- The key is the last token so far, so all that goes in front of it goes in at one position.
  refine ⟨((d.tokenizer ⟨':' :: r, m'⟩ (ts.push t) none false).insert ts.size
    (d.opening ++ [.key]) m).tokens.push ⟨.value, m', m'.advance 1⟩, ?_, ?_⟩
  · obtain ⟨index, line, column⟩ := m
    obtain rfl : column = 0 := hm
    cases d <;> rfl
  · rw [kinds_push, kinds_insert rfl]
    simp

/-! ## Lines -/

/-- The cutting has come to the text `r`, which begins a line if anything is left, and the tokens so
far are of the kinds `ks`. -/
def AtLine (ks : List Token.Kind) (r : List Char) (s : Tokenizer) : Prop :=
  ∃ m ts a, s.settle = some (d.tokenizer ⟨r, m⟩ ts none a) ∧ kinds ts = ks ∧
    (r ≠ [] → m.column = 0 ∧ a = true)

/-- What stands behind a value: nothing, or a line feed and the lines below. -/
inductive LineEnd : List Char → List Char → Prop where
  | text : LineEnd [] []
  | line {r : List Char} (h : Stops r) : LineEnd ('\n' :: r) r

variable {d} {ts}

theorem AtLine.run_key {ks : List Token.Kind} {k : List Char} {s : Tokenizer}
    (h : d.AtLine ks (k ++ ':' :: ' ' :: r) s) (hk : IsKey k) :
    ∃ m ts, kinds ts = ks ++ d.opening ++ [.key, .scalar .plain (String.ofList k), .value] ∧
      ∀ fuel, run (fuel + 2) s = run fuel (inside.tokenizer ⟨' ' :: r, m⟩ ts none false) := by
  obtain ⟨m, ts, a, hsettle, rfl, hstart⟩ := h
  obtain ⟨hm, rfl⟩ := hstart (by simp)
  have hline : Cursor.atDocumentLine ⟨k ++ ':' :: ' ' :: r, m⟩ = false := by
    obtain ⟨c, k, rfl, hc⟩ := hk.toIsWord.exists_cons
    exact Cursor.not_atDocumentLine_of_isWordChar hc
  have hplain := d.plain_key (r := r) (m := m) ts hk.isPlainWord hline
  obtain ⟨ts', hvalue, hkinds⟩ := d.value_colon (r := ' ' :: r) ts hm (m.advance k.length)
    ⟨.scalar .plain (String.ofList k), m, m.advance k.length⟩ (d.indent == m.column)
  refine ⟨(m.advance k.length).advance 1, ts', hkinds, fun fuel ↦ ?_⟩
  -- The candidate is still there at the colon, because the key is short.
  have hlapsed : Candidate.hasLapsed ⟨m, d.indent == m.column, ts.size⟩
      (m.advance k.length) = false := by
    simpa [Candidate.hasLapsed, Mark.advance] using hk.short
  have hfresh : Tokenizer.refresh (m.advance k.length)
      (some ⟨m, d.indent == m.column, ts.size⟩)
      = some (some ⟨m, d.indent == m.column, ts.size⟩) := by
    rw [Tokenizer.refresh, hlapsed]
    rfl
  have hcolon := d.settle_stop (c := ⟨':' :: ' ' :: r, m.advance k.length⟩) (a := false)
    (ts.push ⟨.scalar .plain (String.ofList k), m, m.advance k.length⟩)
    (stops_cons (by decide) _) hfresh
  obtain ⟨c, k, rfl⟩ := List.exists_cons_of_ne_nil hk.ne_nil
  rw [run_succ hsettle rfl ((d.token_word ts hk.isPlainWord hline _ _).trans hplain)]
  exact run_succ hcolon rfl ((d.token_colon _ _ _).trans hvalue) fuel

/-- Behind a value the next line begins. Whether a key may begin at once or only after the line feed
does not matter. -/
theorem atLine_of_lineEnd {r' : List Char} (m : Mark) (ts : Array Token) (hr : LineEnd r r')
    (a : Bool) :
    inside.AtLine (kinds ts) r' (inside.tokenizer ⟨r, m⟩ ts none a) := by
  cases hr with
  | text => exact ⟨m, ts, a, inside.settle_stop ts nofun rfl, rfl, fun h ↦ absurd rfl h⟩
  | line h => exact ⟨m.newLine 1, ts, true, inside.settle_newLine ts h, rfl, fun _ ↦ ⟨rfl, rfl⟩⟩

theorem run_word {w r' : List Char} (m : Mark) (ts : Array Token) (hw : IsPlainWord w)
    (hr : LineEnd r r') :
    ∃ s', inside.AtLine (kinds ts ++ [.scalar .plain (String.ofList w)]) r' s' ∧
      ∀ fuel, run (fuel + 1) (inside.tokenizer ⟨' ' :: (w ++ r), m⟩ ts none false)
        = run fuel s' := by
  have hsettle := inside.settle_space (m := m) (a := false) ts (hw.stops r)
  have hdocument : Cursor.atDocumentLine ⟨w ++ r, m.advance 1⟩ = false :=
    Cursor.not_atDocumentLine_of_column (Nat.succ_pos _)
  -- A plain scalar that ends with its line is read together with the line feed.
  have hplain : ∃ c isPastBreak, Plain.scan false (inside.indent + 1) ⟨w ++ r, m.advance 1⟩
        = some ⟨w, c, isPastBreak⟩ ∧
      ∀ ts, inside.AtLine (kinds ts) r' (inside.tokenizer c ts none isPastBreak) := by
    cases hr with
    | text =>
      exact ⟨_, _, Plain.scan_word hw hdocument rfl rfl (.inl rfl),
        fun ts ↦ atLine_of_lineEnd _ ts .text _⟩
    | line h =>
      have hscan := Plain.scan_word (m := m.advance 1) hw hdocument rfl (Gap.scan_newLine 1 _ h)
        (.inr Int.zero_lt_one)
      refine ⟨_, _, hscan, fun ts ↦ ?_⟩
      exact ⟨_, ts, true, inside.settle_stop ts h rfl, rfl, fun _ ↦ ⟨rfl, rfl⟩⟩
  obtain ⟨c, isPastBreak, hscan, hline⟩ := hplain
  have hvalue := inside.plain_value ts hscan
  have hline := hline (ts.push ⟨.scalar .plain (String.ofList w), m.advance 1, c.mark⟩)
  rw [kinds_push] at hline
  refine ⟨_, hline, fun fuel ↦ ?_⟩
  obtain ⟨e, w, rfl⟩ := List.exists_cons_of_ne_nil hw.ne_nil
  have htoken := inside.token_word (m := m.advance 1) (r := r) ts hw hdocument none false
  exact run_succ hsettle rfl (htoken.trans hvalue) fuel

theorem run_quoted {t body r' : List Char} (m : Mark) (ts : Array Token) (ht : Spells t body)
    (hr : LineEnd r r') :
    ∃ s', inside.AtLine (kinds ts ++ [.scalar .quoted (String.ofList t)]) r' s' ∧
      ∀ fuel, run (fuel + 1) (inside.tokenizer ⟨' ' :: '"' :: (body ++ '"' :: r), m⟩ ts none false)
        = run fuel s' := by
  have hstops : Stops ('"' :: (body ++ '"' :: r)) := stops_cons (by decide) _
  obtain ⟨n, hscan⟩ := Quoted.scan_of_spells ht r (m.advance 1)
  have hline := atLine_of_lineEnd ((m.advance 1).advance n)
    (ts.push ⟨.scalar .quoted (String.ofList t), m.advance 1, (m.advance 1).advance n⟩) hr false
  rw [kinds_push] at hline
  exact ⟨_, hline, run_succ (inside.settle_space ts hstops) rfl
    ((inside.token_quote ts _ _).trans (inside.quoted_value ts hscan))⟩

theorem AtLine.run_entry {ks : List Token.Kind} {e : Entry} {l r' : List Char} {s : Tokenizer}
    (h : d.AtLine ks (l ++ r) s) (he : WritesEntry e l) (hr : LineEnd r r') :
    ∃ s', inside.AtLine (ks ++ d.opening ++ e.kinds) r' s' ∧
      ∀ fuel, run (fuel + 3) s = run fuel s' := by
  cases he with
  | @word k w hk hw =>
    rw [List.append_assoc, List.cons_append, List.cons_append] at h
    obtain ⟨m, ts, hkinds, hkey⟩ := h.run_key hk
    obtain ⟨s', hline, hvalue⟩ := run_word m ts hw hr
    rw [hkinds, List.append_assoc] at hline
    exact ⟨s', hline, fun fuel ↦ (hkey (fuel + 1)).trans (hvalue fuel)⟩
  | @quoted k t body hk ht =>
    rw [List.append_assoc, List.cons_append, List.cons_append, List.cons_append,
      List.append_assoc] at h
    obtain ⟨m, ts, hkinds, hkey⟩ := h.run_key hk
    obtain ⟨s', hline, hvalue⟩ := run_quoted m ts ht hr
    rw [hkinds, List.append_assoc] at hline
    exact ⟨s', hline, fun fuel ↦ (hkey (fuel + 1)).trans (hvalue fuel)⟩

theorem AtLine.run_nil {ks : List Token.Kind} {s : Tokenizer} (h : inside.AtLine ks [] s)
    (fuel : Nat) :
    ∃ ts, run (fuel + 1) s = some ts ∧ kinds ts = ks ++ [.blockEnd, .streamEnd] := by
  obtain ⟨m, ts, a, hsettle, rfl, -⟩ := h
  -- The end counts as a line of its own, so its mark depends on the column.
  have hend : ∃ m', (inside.tokenizer ⟨[], m⟩ ts none a).finish
      = some ((ts.push ⟨.blockEnd, m', m'⟩).push ⟨.streamEnd, m', m'⟩) := ⟨_, rfl⟩
  obtain ⟨m', hend⟩ := hend
  refine ⟨(ts.push ⟨.blockEnd, m', m'⟩).push ⟨.streamEnd, m', m'⟩, ?_, by simp⟩
  rw [run, hsettle]
  exact hend

/-- The lines of a mapping are cut one after the other. -/
theorem AtLine.run_lines {ks : List Token.Kind} {es : List Entry} {s : Tokenizer}
    (h : d.AtLine ks r s) (hes : Lines WritesEntry es r) (hd : es = [] → d = inside) {fuel : Nat}
    (hfuel : r.length < fuel) :
    ∃ ts, run fuel s = some ts ∧
      kinds ts = ks ++ d.opening ++ es.flatMap Entry.kinds ++ [.blockEnd, .streamEnd] := by
  induction hes generalizing d ks s fuel with
  | nil =>
    obtain rfl := hd rfl
    obtain ⟨fuel, rfl⟩ := Nat.exists_eq_add_of_lt hfuel
    obtain ⟨ts, hrun, hkinds⟩ := h.run_nil (0 + fuel)
    exact ⟨ts, hrun, by simpa [opening] using hkinds⟩
  | @last e l he =>
    -- An entry has at least four characters, and three tokens are read before its end.
    have hlen := he.three_lt_length
    obtain ⟨fuel, rfl⟩ : ∃ k, fuel = k + 1 + 3 := ⟨fuel - 4, by omega⟩
    rw [← List.append_nil l] at h
    obtain ⟨s', hline, hentry⟩ := h.run_entry he .text
    obtain ⟨ts, hrun, hkinds⟩ := hline.run_nil fuel
    exact ⟨ts, (hentry _).trans hrun, by simpa using hkinds⟩
  | @cons e es l r he hes ih =>
    have hlen := he.three_lt_length
    rw [List.length_append, List.length_cons] at hfuel
    obtain ⟨fuel, rfl, hrest⟩ : ∃ k, fuel = k + 3 ∧ r.length < k := ⟨fuel - 3, by omega, by omega⟩
    obtain ⟨s', hline, hentry⟩ := h.run_entry he (.line hes.stops)
    obtain ⟨ts, hrun, hkinds⟩ := ih hline (fun _ ↦ rfl) hrest
    exact ⟨ts, (hentry _).trans hrun, by simpa [opening] using hkinds⟩

end Depth

/-- **Tokens of a mapping.** Lines with one entry each are cut into the tokens of a mapping that
holds these entries. -/
theorem tokens?_lines {es : List Entry} {cs : List Char} (h : Lines WritesEntry es cs)
    (hne : es ≠ []) :
    ∃ ts, tokens? cs = some ts ∧ ts.map (·.kind)
      = .blockMappingStart :: es.flatMap Entry.kinds ++ [.blockEnd, .streamEnd] := by
  have hline : Depth.outside.AtLine [] cs (.ofText cs) :=
    ⟨⟨0, 0, 0⟩, #[], true, Depth.outside.settle_stop #[] h.stops rfl, rfl, fun _ ↦ ⟨rfl, rfl⟩⟩
  obtain ⟨ts, hrun, hkinds⟩ := hline.run_lines h (fun h ↦ absurd h hne) (Nat.lt_succ_self _)
  refine ⟨ts.toList, ?_, hkinds⟩
  rw [tokens?, if_pos (List.all_eq_true.mpr h.isPermitted), hrun]
  rfl

end Conformance.Yaml
