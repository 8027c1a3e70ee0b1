import Mathlib.Data.List.TakeWhile
import Conformance.Proofs.Snapshot.RoundTrip
/-!
# A snapshot that is cut short

A snapshot can end early at any character: inside a number, a key or an escape, or between two
tokens. A reader then either asks for more text or, if all that is missing is the end of a number,
takes what is there and leaves nothing. `RunsOut` says that one of the two happens, and both are the
same to whatever encloses the value, since an object and a list need their closing bracket. So the
reader of a snapshot asks for more text wherever its end is missing.

What is added behind a snapshot, on the other hand, is not read but only checked to be white space.
-/

namespace Conformance

/-! ## Texts that are cut short -/

/-- `p` is what is left of `cs` when its end is missing, at least the last character. -/
def IsCut (p cs : List Char) : Prop := ∃ c s, cs = p ++ c :: s

theorem isCut_iff {p cs : List Char} : IsCut p cs ↔ p <+: cs ∧ p ≠ cs := by
  constructor
  · rintro ⟨c, s, rfl⟩
    exact ⟨List.prefix_append p _, by simp⟩
  · rintro ⟨⟨s, rfl⟩, hne⟩
    cases s with
    | nil => exact absurd (List.append_nil p).symm hne
    | cons c s => exact ⟨c, s, rfl⟩

theorem not_isCut_nil {p : List Char} : ¬ IsCut p [] := by
  rintro ⟨c, s, h⟩
  cases p <;> cases h

theorem isCut_nil_of_ne_nil {cs : List Char} (h : cs ≠ []) : IsCut [] cs :=
  List.exists_cons_of_ne_nil h

theorem isCut_cons_iff {p cs : List Char} {c : Char} :
    IsCut p (c :: cs) ↔ p = [] ∨ ∃ q, p = c :: q ∧ IsCut q cs := by
  constructor
  · rintro ⟨d, s, h⟩
    cases p with
    | nil => exact .inl rfl
    | cons b q =>
      obtain ⟨rfl, hs⟩ := List.cons.inj h
      exact .inr ⟨q, rfl, d, s, hs⟩
  · rintro (rfl | ⟨q, rfl, d, s, rfl⟩)
    · exact ⟨c, cs, rfl⟩
    · exact ⟨d, s, rfl⟩

/-- A text in two parts is cut in the first of them or in the second. -/
theorem isCut_append_iff {p xs ys : List Char} :
    IsCut p (xs ++ ys) ↔ IsCut p xs ∨ ∃ q, p = xs ++ q ∧ IsCut q ys := by
  induction xs generalizing p with
  | nil => simp [not_isCut_nil]
  | cons x xs ih =>
    rw [List.cons_append, isCut_cons_iff, isCut_cons_iff, or_assoc]
    refine or_congr_right ⟨?_, ?_⟩
    · rintro ⟨q, rfl, hq⟩
      obtain hxs | ⟨q, rfl, hys⟩ := ih.mp hq
      · exact .inl ⟨q, rfl, hxs⟩
      · exact .inr ⟨q, rfl, hys⟩
    · rintro (⟨q, rfl, hxs⟩ | ⟨q, rfl, hys⟩)
      · exact ⟨q, rfl, ih.mpr (.inl hxs)⟩
      · exact ⟨xs ++ q, rfl, ih.mpr (.inr ⟨q, rfl, hys⟩)⟩

theorem eq_nil_of_isCut_singleton {p : List Char} {c : Char} (h : IsCut p [c]) : p = [] := by
  obtain rfl | ⟨q, -, hq⟩ := isCut_cons_iff.mp h
  · rfl
  · exact absurd hq not_isCut_nil

theorem IsCut.subset {p cs : List Char} (h : IsCut p cs) : p ⊆ cs :=
  (isCut_iff.mp h).1.subset

namespace Snapshot

open Json (Finds EndsNumeral Rest)

/-- What is cut out of white space and one more character is white space. -/
theorem isSpace_of_isCut {ws p : List Char} {c : Char} (hws : ∀ c ∈ ws, Json.isSpace c)
    (hp : IsCut p (ws ++ [c])) : ∀ c ∈ p, Json.isSpace c := by
  obtain hspaces | ⟨q, rfl, hq⟩ := isCut_append_iff.mp hp
  · exact fun c hc ↦ hws c (hspaces.subset hc)
  · rwa [eq_nil_of_isCut_singleton hq, List.append_nil]

theorem endsNumeral_of_isCut {p cs : List Char} (h : EndsNumeral cs) (hp : IsCut p cs) :
    EndsNumeral p := by
  obtain ⟨c, s, rfl⟩ := hp
  cases p with
  | nil => intro d hd; cases hd
  | cons b p => exact h

/-! ## Strings -/

theorem hex4_isCut {p : List Char} {n : Nat} (hn : n < 256)
    (h : IsCut p ['0', '0', hexChar (n / 16), hexChar (n % 16)]) :
    Json.hex4 p = .error .truncated := by
  have hthree : ∀ m, m < 16 → Json.byteLength ['0', '0', hexChar m] < 4 := by decide
  simp only [isCut_cons_iff, not_isCut_nil, and_false, exists_false, or_false] at h
  obtain rfl | ⟨_, rfl, rfl | ⟨_, rfl, rfl | ⟨_, rfl, rfl⟩⟩⟩ := h
  · rfl
  · rfl
  · rfl
  · exact if_pos (hthree _ (by omega))

theorem stringBody_nil : Json.stringBody [] = .error .truncated := by
  rw [Json.stringBody]

theorem stringBody_of_escape {r : List Char} {e : Json.Failure} (h : Json.escape r = .error e) :
    Json.stringBody ('\\' :: r) = .error e := by
  rw [Json.stringBody, if_neg (by decide), if_pos rfl, h]
  rfl

/-- No escape is complete before its last character. -/
theorem stringBody_isCut_escapedChar {c : Char} {p : List Char} (h : IsCut p (escapedChar c)) :
    Json.stringBody p = .error .truncated := by
  obtain ⟨x, hx, -⟩ | ⟨hx, hcontrol⟩ | ⟨hx, -⟩ := escapedChar_cases c
  · rw [hx] at h
    simp only [isCut_cons_iff, not_isCut_nil, and_false, exists_false, or_false] at h
    obtain rfl | ⟨_, rfl, rfl⟩ := h
    · exact stringBody_nil
    · exact stringBody_of_escape rfl
  · rw [hx, isCut_cons_iff] at h
    obtain rfl | ⟨q, rfl, h⟩ := h
    · exact stringBody_nil
    refine stringBody_of_escape ?_
    obtain rfl | ⟨q, rfl, hq⟩ := isCut_cons_iff.mp h
    · rfl
    have hhex := hex4_isCut (n := c.toNat) (by omega) hq
    have hshort : Json.shortEscape? 'u' = none := by decide
    simp only [Json.escape, hshort, Json.numericEscape, hhex]
    rfl
  · rw [hx] at h
    rw [eq_nil_of_isCut_singleton h]
    exact stringBody_nil

/-- What goes wrong behind a character goes wrong with it in front, however it is written. -/
theorem stringBody_escapedChar_error (c : Char) {r : List Char} {e : Json.Failure}
    (h : Json.stringBody r = .error e) : Json.stringBody (escapedChar c ++ r) = .error e := by
  obtain ⟨x, hx, hshort⟩ | ⟨hx, hcontrol⟩ | ⟨hx, hquote, hbackslash, hcontrol⟩ :=
    escapedChar_cases c
  · obtain ⟨hlt, hescape⟩ := Json.escape_short hshort r
    rw [hx]
    change Json.stringBody ('\\' :: x :: r) = _
    rw [Json.stringBody, if_neg (by decide), if_pos rfl, hescape]
    change (Json.stringBody r >>= _) = _
    rw [h]
    rfl
  · obtain ⟨hlt, hescape⟩ := escape_control hcontrol r
    rw [hx]
    change Json.stringBody ('\\' :: _ :: _ :: _ :: _ :: _ :: r) = _
    rw [Json.stringBody, if_neg (by decide), if_pos rfl, hescape]
    change (Json.stringBody r >>= _) = _
    rw [h]
    rfl
  · rw [hx]
    change Json.stringBody (c :: r) = _
    rw [Json.stringBody, if_neg hquote, if_neg hbackslash, if_neg hcontrol, h]
    rfl

/-- A string without its closing quote asks for more text. -/
theorem stringBody_isCut {s p : List Char} (h : IsCut p (s.flatMap escapedChar ++ ['"'])) :
    Json.stringBody p = .error .truncated := by
  induction s generalizing p with
  | nil =>
    rw [eq_nil_of_isCut_singleton h]
    exact stringBody_nil
  | cons c s ih =>
    rw [List.flatMap_cons, List.append_assoc, isCut_append_iff] at h
    obtain h | ⟨q, rfl, h⟩ := h
    · exact stringBody_isCut_escapedChar h
    · exact stringBody_escapedChar_error c (ih h)

/-! ## Running out of text -/

/-- The scan `r` asks for more text, or takes all that there is. -/
def RunsOut {α : Type} {cs : List Char} (r : Except Stop (α × Rest cs)) : Prop :=
  r = .error (.json .truncated) ∨ ∃ a, Finds r a []

/-- Wherever the value `chars` is cut short, `read` runs out of text. -/
def RunsOutOf {α : Type} (read : Reader α) (chars : List Char) : Prop :=
  ∀ ws p, (∀ c ∈ ws, Json.isSpace c) → IsCut p chars → RunsOut (read (ws ++ p))

theorem RunsOut.map {α β : Type} {cs : List Char} {r : Except Stop (α × Rest cs)} (h : RunsOut r)
    (f : α → β) : RunsOut (r.map fun (a, rest) ↦ (f a, rest)) := by
  obtain rfl | ⟨a, hlt, rfl⟩ := h
  · exact .inl rfl
  · exact .inr ⟨f a, hlt, rfl⟩

theorem RunsOutOf.map {α β : Type} {read : Reader α} {chars : List Char}
    (h : RunsOutOf read chars) (f : α → β) :
    RunsOutOf (fun cs ↦ (read cs).map fun (a, rest) ↦ (f a, rest)) chars :=
  fun ws p hws hp ↦ (h ws p hws hp).map f

section BehindSpace

variable {α : Type} {k : (c : Char) → (r : List Char) → Except Stop (α × Rest (c :: r))}

theorem behindSpace_spaces {ws : List Char} (h : ∀ c ∈ ws, Json.isSpace c) :
    (behindSpace k : Except Stop (α × Rest ws)) = .error (.json .truncated) := by
  unfold behindSpace
  split
  · rfl
  · rename_i c r hcons
    cases hcons.symm.trans (List.dropWhile_eq_nil_iff.mpr h)

theorem behindSpace_error {ws r : List Char} {c : Char} {e : Stop}
    (hws : ∀ c ∈ ws, Json.isSpace c) (hc : Json.isSpace c = false) (h : k c r = .error e) :
    (behindSpace k : Except Stop (α × Rest (ws ++ c :: r))) = .error e := by
  rw [behindSpace_of_skipSpace k (Json.skipSpace_append_cons hws hc r), h]
  rfl

end BehindSpace

theorem readText_isCut (s : String) : RunsOutOf readText (stringChars s) := by
  intro ws p hws hp
  refine .inl ?_
  have hchars : stringChars s = '"' :: (s.toList.flatMap escapedChar ++ ['"']) := rfl
  rw [hchars, isCut_cons_iff] at hp
  obtain rfl | ⟨q, rfl, hq⟩ := hp
  · rw [List.append_nil]
    exact behindSpace_spaces hws
  · refine behindSpace_error hws (by decide) ?_
    rw [if_pos rfl, stringBody_isCut hq]
    rfl

theorem ofDigitChars_isCut_le {p ds : List Char} (h : IsCut p ds) :
    Nat.ofDigitChars 10 p 0 ≤ Nat.ofDigitChars 10 ds 0 := by
  obtain ⟨c, s, rfl⟩ := h
  rw [Nat.ofDigitChars_append]
  exact Json.le_ofDigitChars _ _

/-- The first digits of a number are a number themselves. -/
theorem number_isCut {n : Nat} (hn : n < UInt64.size) {p : List Char}
    (h : IsCut p (Nat.toDigits 10 n)) (hne : p ≠ []) :
    ∃ m, Finds (Json.number p) (.natural m) [] := by
  have hds : ∀ c ∈ p, Json.isDigit c := fun c hc ↦
    Nat.isDigit_of_mem_toDigits (by decide) (by decide) (h.subset hc)
  have hsign : p.head? ≠ some '-' := fun hhead ↦
    absurd (hds '-' (List.mem_of_head? hhead)) (by decide)
  -- A number of more than one digit does not begin with a zero.
  have hzero : p.head? = some '0' → p.length = 1 := by
    intro hhead
    obtain ⟨c, s, hs⟩ := h
    have hfirst : (Nat.toDigits 10 n).head? = some '0' := by
      rw [hs, List.head?_append, hhead]
      rfl
    have hlength := Json.length_toDigits_of_head? hfirst
    rw [hs, List.length_append, List.length_cons] at hlength
    have hpos := List.length_pos_iff.mpr hne
    omega
  have hvalue : Nat.ofDigitChars 10 p 0 < UInt64.size := by
    have hle := ofDigitChars_isCut_le h
    rw [Nat.ofDigitChars_ten_toDigits] at hle
    omega
  have hnumeral : Json.Numeral.value? false ⟨p, none, none⟩
      = some (.natural (Nat.ofDigitChars 10 p 0)) := by
    simp [Json.Numeral.value?, Json.gather_eq p hvalue]
  have hends : EndsNumeral [] := by intro c hc; cases hc
  have hfinds := Json.numeral_append hne hds hzero hends .truncated
  rw [List.append_nil] at hfinds
  exact ⟨_, Json.number_unsigned hsign hfinds hnumeral⟩

theorem readCount_isCut (n : UInt64) : RunsOutOf readCount (countChars n) := by
  intro ws p hws hp
  cases p with
  | nil =>
    refine .inl ?_
    rw [List.append_nil]
    exact behindSpace_spaces hws
  | cons d ds =>
    have hd : Json.isDigit d :=
      Nat.isDigit_of_mem_toDigits (by decide) (by decide) (hp.subset List.mem_cons_self)
    obtain ⟨m, hm⟩ := number_isCut n.toNat_lt hp (List.cons_ne_nil d ds)
    exact .inr ⟨_, readCount_number
      (Json.skipSpace_append_cons hws (Json.isSpace_of_isDigit hd) ds) hd hm⟩

/-! ## Lists -/

theorem eq_nil_of_isCut_separator {p : List Char} {first : Bool} (h : IsCut p (separator first)) :
    p = [] := by
  cases first with
  | true => exact absurd h not_isCut_nil
  | false => exact eq_nil_of_isCut_singleton h

section Lists

variable {α : Type} {read : Reader α} {ws : List Char}

/-- A list that ends before it says how it goes on asks for more text. -/
theorem nextElement_spaces (hws : ∀ c ∈ ws, Json.isSpace c) (first : Bool) :
    nextElement first ws = .error (.json .truncated) := by
  unfold nextElement
  split
  · rfl
  · rename_i c r hcons
    cases hcons.symm.trans (List.dropWhile_eq_nil_iff.mpr hws)

theorem nextElement_separator (hws : ∀ c ∈ ws, Json.isSpace c) (first : Bool) :
    nextElement first (separator first ++ ws) = .error (.json .truncated) := by
  cases first with
  | true => exact nextElement_spaces hws true
  | false =>
    have hcomma : Json.skipSpace (separator false ++ ws) = ',' :: ws :=
      Json.skipSpace_cons (by decide) ws
    have hnil : Json.skipSpace ws = [] := List.dropWhile_eq_nil_iff.mpr hws
    rw [nextElement_of_skipSpace false hcomma, if_neg (by decide), if_neg (by decide), if_pos rfl,
      hnil]

theorem nextElement_element {chars : List Char} (hws : ∀ c ∈ ws, Json.isSpace c)
    (hchars : BeginsElement chars) (first : Bool) (rest : List Char) :
    ∃ h, nextElement first (separator first ++ (ws ++ (chars ++ rest)))
      = .ok (.element ⟨ws ++ (chars ++ rest), h⟩) := by
  cases first with
  | true => exact ⟨_, nextElement_first hws hchars rest⟩
  | false => exact nextElement_later hws hchars rest

theorem readElements_of_nextElement {first : Bool} {cs : List Char} {e : Stop}
    (h : nextElement first cs = .error e) : readElements read first cs = .error e := by
  rw [readElements, h]
  rfl

/-- What goes wrong behind an element goes wrong with it in front. -/
theorem readElements_of_read {first : Bool} {cs r r' : List Char} {hle : r.length ≤ cs.length}
    {a : α} {e : Stop} (hnext : nextElement first cs = .ok (.element ⟨r, hle⟩))
    (ha : Finds (read r) a r') (h : readElements read false r' = .error e) :
    readElements read first cs = .error e := by
  obtain ⟨hlt, hread⟩ := ha
  rw [readElements, hnext]
  change (read r >>= _) = _
  rw [hread]
  change (readElements read false r' >>= _) = _
  rw [h]
  rfl

/-- An element that runs out of text leaves the list without its end. -/
theorem readElements_runsOut {first : Bool} {cs r : List Char} {hle : r.length ≤ cs.length}
    (hnext : nextElement first cs = .ok (.element ⟨r, hle⟩)) (h : RunsOut (read r)) :
    readElements read first cs = .error (.json .truncated) := by
  obtain h | ⟨a, ha⟩ := h
  · rw [readElements, hnext]
    change (read r >>= _) = _
    rw [h]
    rfl
  · exact readElements_of_read hnext ha
      (readElements_of_nextElement (nextElement_spaces (List.forall_mem_nil _) false))

/-- A list that is cut short behind the elements read so far, in the next element or behind it. -/
theorem readElements_isCut_element {a : α} {chars rest p : List Char} {first : Bool}
    (hws : ∀ c ∈ ws, Json.isSpace c) (hbegin : BeginsElement chars)
    (hread : ReadsBack read chars a) (hout : RunsOutOf read chars) (hends : EndsNumeral rest)
    (hrest : ∀ q, IsCut q rest → readElements read false q = .error (.json .truncated))
    (hp : IsCut p (separator first ++ (ws ++ (chars ++ rest)))) :
    readElements read first p = .error (.json .truncated) := by
  have hnone : ∀ q, (∀ c ∈ q, Json.isSpace c) →
      readElements read first (separator first ++ q) = .error (.json .truncated) :=
    fun q hq ↦ readElements_of_nextElement (nextElement_separator hq first)
  obtain hcomma | ⟨p₁, rfl, hp₁⟩ := isCut_append_iff.mp hp
  · rw [eq_nil_of_isCut_separator hcomma]
    exact readElements_of_nextElement (nextElement_spaces (List.forall_mem_nil _) first)
  obtain hspaces | ⟨p₂, rfl, hp₂⟩ := isCut_append_iff.mp hp₁
  · exact hnone p₁ fun c hc ↦ hws c (hspaces.subset hc)
  obtain hvalue | ⟨q, rfl, hq⟩ := isCut_append_iff.mp hp₂
  · obtain ⟨c, r, rfl, hspace, hclose⟩ := hbegin
    obtain rfl | ⟨q, rfl, -⟩ := isCut_cons_iff.mp hvalue
    · rw [List.append_nil]
      exact hnone ws hws
    · obtain ⟨hle, hnext⟩ := nextElement_element hws ⟨c, [], rfl, hspace, hclose⟩ first q
      exact readElements_runsOut hnext (hout ws _ hws hvalue)
  · obtain ⟨hle, hnext⟩ := nextElement_element hws hbegin first q
    exact readElements_of_read hnext (hread ws q hws (endsNumeral_of_isCut hends hq)) (hrest q hq)

theorem readElements_isCut_closing {p : List Char} (hws : ∀ c ∈ ws, Json.isSpace c) (first : Bool)
    (hp : IsCut p (ws ++ [']'])) : readElements read first p = .error (.json .truncated) :=
  readElements_of_nextElement (nextElement_spaces (isSpace_of_isCut hws hp) first)

/-- The elements of a list behind the first, without the end of the list. -/
theorem readElements_isCut_later {ws' : List Char} {write : α → List Char}
    (hws : ∀ c ∈ ws, Json.isSpace c) (hws' : ∀ c ∈ ws', Json.isSpace c)
    (hends : EndsNumeral (ws' ++ [']'])) {as : List α}
    (hread : ∀ a ∈ as, ReadsBack read (write a) a) (hbegin : ∀ a ∈ as, BeginsElement (write a))
    (hout : ∀ a ∈ as, RunsOutOf read (write a)) {p : List Char}
    (hp : IsCut p (as.flatMap (fun a ↦ ',' :: (ws ++ write a)) ++ (ws' ++ [']']))) :
    readElements read false p = .error (.json .truncated) := by
  induction as generalizing p with
  | nil => exact readElements_isCut_closing hws' false hp
  | cons a as ih =>
    obtain ⟨hreadFirst, hread⟩ := List.forall_mem_cons.mp hread
    obtain ⟨hbeginFirst, hbegin⟩ := List.forall_mem_cons.mp hbegin
    obtain ⟨houtFirst, hout⟩ := List.forall_mem_cons.mp hout
    have hshape : (a :: as).flatMap (fun a ↦ ',' :: (ws ++ write a)) ++ (ws' ++ [']'])
        = separator false ++ (ws ++ (write a
          ++ (as.flatMap (fun a ↦ ',' :: (ws ++ write a)) ++ (ws' ++ [']'])))) := by
      simp [separator]
    rw [hshape] at hp
    refine readElements_isCut_element hws hbeginFirst hreadFirst houtFirst ?_
      (fun q hq ↦ ih hread hbegin hout hq) hp
    cases as with
    | nil => exact hends
    | cons b as => exact endsNumeral_comma _

/-- A list without its end asks for more text. -/
theorem readList_isCut {write : α → List Char} {as : List α}
    (hread : ∀ a ∈ as, ReadsBack read (write a) a) (hbegin : ∀ a ∈ as, BeginsElement (write a))
    (hout : ∀ a ∈ as, RunsOutOf read (write a)) (level : Nat) :
    RunsOutOf (readList read) (blockChars '[' ']' level (as.map write)) := by
  intro ws p hws hp
  refine .inl ?_
  have hopening : ∀ {items q}, p = '[' :: q → readElements read true q = .error items →
      readList read (ws ++ p) = .error items := by
    rintro e q rfl hq
    refine behindSpace_error hws (by decide) ?_
    rw [if_pos rfl, hq]
    rfl
  have hnil : p = [] → readList read (ws ++ p) = .error (.json .truncated) := by
    rintro rfl
    rw [List.append_nil]
    exact behindSpace_spaces hws
  cases as with
  | nil =>
    obtain rfl | ⟨q, hq, hcut⟩ := isCut_cons_iff.mp (show IsCut p ('[' :: [']']) from hp)
    · exact hnil rfl
    · have hspaces : ∀ c ∈ ([] : List Char), Json.isSpace c := List.forall_mem_nil _
      exact hopening hq (readElements_isCut_closing hspaces true hcut)
  | cons a as =>
    obtain ⟨hreadFirst, hread⟩ := List.forall_mem_cons.mp hread
    obtain ⟨hbeginFirst, hbegin⟩ := List.forall_mem_cons.mp hbegin
    obtain ⟨houtFirst, hout⟩ := List.forall_mem_cons.mp hout
    have hblock := blockChars_cons '[' ']' level (write a) (as.map write) []
    rw [List.append_nil, List.flatMap_map] at hblock
    rw [List.map_cons, hblock] at hp
    obtain rfl | ⟨q, hq, hcut⟩ := isCut_cons_iff.mp hp
    · exact hnil rfl
    refine hopening hq (readElements_isCut_element (isSpace_of_mem_newline _) hbeginFirst hreadFirst
      houtFirst ?_ (fun r hr ↦ ?_) hcut)
    · cases as with
      | nil => exact endsNumeral_newline level _
      | cons b as => exact endsNumeral_comma _
    · exact readElements_isCut_later (isSpace_of_mem_newline _) (isSpace_of_mem_newline _)
        (endsNumeral_newline level _) hread hbegin hout hr

end Lists

/-! ## Objects -/

section Objects

variable {φ δ : Type} {m : Members φ δ} {ws : List Char}

/-- An object that ends before it says how it goes on asks for more text. -/
theorem nextMember_spaces (hws : ∀ c ∈ ws, Json.isSpace c) (first : Bool) :
    nextMember first ws = .error (.json .truncated) := by
  unfold nextMember
  split
  · rfl
  · rename_i c r hcons
    cases hcons.symm.trans (List.dropWhile_eq_nil_iff.mpr hws)

theorem nextMember_separator (hws : ∀ c ∈ ws, Json.isSpace c) (first : Bool) :
    nextMember first (separator first ++ ws) = .error (.json .truncated) := by
  cases first with
  | true => exact nextMember_spaces hws true
  | false =>
    have hcomma : Json.skipSpace (separator false ++ ws) = ',' :: ws :=
      Json.skipSpace_cons (by decide) ws
    have hnil : Json.skipSpace ws = [] := List.dropWhile_eq_nil_iff.mpr hws
    rw [nextMember_of_skipSpace false hcomma, if_neg (by decide), if_neg (by decide), if_pos rfl]
    split
    · rfl
    · rename_i c r hcons
      cases hcons.symm.trans hnil

theorem readMembers_of_nextMember {draft : δ} {first : Bool} {cs : List Char} {e : Stop}
    (h : nextMember first cs = .error e) : readMembers m draft first cs = .error e := by
  rw [readMembers, h]
  rfl

theorem nextMember_of_readKey {r : List Char} {e : Json.Failure}
    (hws : ∀ c ∈ ws, Json.isSpace c) (first : Bool) (h : Json.stringBody r = .error e) :
    nextMember first (separator first ++ (ws ++ '"' :: r)) = .error (.json e) := by
  have hkey : ∀ {cs : List Char} (hlt : r.length < cs.length),
      (readKey r hlt : Except Stop (ObjectNext cs)) = .error (.json e) := by
    intro cs hlt
    rw [readKey, h]
    rfl
  have hskip := Json.skipSpace_append_cons hws (c := '"') (by decide) r
  cases first with
  | true =>
    have hfirst : Json.skipSpace (separator true ++ (ws ++ '"' :: r)) = '"' :: r := hskip
    rw [nextMember_of_skipSpace true hfirst, if_neg (by decide), if_pos rfl, if_pos rfl, hkey]
  | false =>
    have hcomma : Json.skipSpace (separator false ++ (ws ++ '"' :: r)) = ',' :: (ws ++ '"' :: r) :=
      Json.skipSpace_cons (by decide) _
    rw [nextMember_of_skipSpace false hcomma, if_neg (by decide), if_neg (by decide), if_pos rfl]
    split
    · rename_i hnil
      cases hnil.symm.trans hskip
    · rename_i d s hcons
      obtain ⟨rfl, rfl⟩ := List.cons.inj (hcons.symm.trans hskip)
      rw [if_pos rfl, hkey]

/-- The value of a member with a new field, where the text runs out. -/
theorem readMember_runsOut {draft : δ} {key : List Char} {f : φ} (hf : m.field? key = some f)
    (hnew : m.isSet draft f = false) {cs : List Char} (hvalue : RunsOut (m.read draft f cs)) :
    RunsOut (readMember m draft key (':' :: cs)) := by
  simp only [readMember, hf, hnew, Bool.false_eq_true, if_false, colon_cons]
  change RunsOut (m.read draft f cs >>= _)
  obtain h | ⟨draft', hlt, h⟩ := hvalue
  · rw [h]
    exact .inl rfl
  · rw [h]
    exact .inr ⟨draft', Nat.lt_succ_of_lt hlt, rfl⟩

/-- A member without its colon. -/
theorem readMember_nil {draft : δ} {key : List Char} {f : φ} (hf : m.field? key = some f)
    (hnew : m.isSet draft f = false) : RunsOut (readMember m draft key []) := by
  simp only [readMember, hf, hnew, Bool.false_eq_true, if_false]
  exact .inl rfl

/-- What goes wrong behind a member goes wrong with it in front. -/
theorem readMembers_of_readMember {draft draft' : δ} {first : Bool} {cs key r r' : List Char}
    {hlt : r.length < cs.length} {e : Stop}
    (hnext : nextMember first cs = .ok (.member key ⟨r, hlt⟩))
    (hmember : Finds (readMember m draft key r) draft' r')
    (h : readMembers m draft' false r' = .error e) : readMembers m draft first cs = .error e := by
  obtain ⟨hlt', hread⟩ := hmember
  rw [readMembers, hnext]
  change (readMember m draft key r >>= _) = _
  rw [hread]
  change (readMembers m draft' false r' >>= _) = _
  rw [h]
  rfl

theorem readMembers_runsOut {draft : δ} {first : Bool} {cs key r : List Char}
    {hlt : r.length < cs.length} (hnext : nextMember first cs = .ok (.member key ⟨r, hlt⟩))
    (h : RunsOut (readMember m draft key r)) :
    readMembers m draft first cs = .error (.json .truncated) := by
  obtain h | ⟨draft', hmember⟩ := h
  · rw [readMembers, hnext]
    change (readMember m draft key r >>= _) = _
    rw [h]
    rfl
  · exact readMembers_of_readMember hnext hmember
      (readMembers_of_nextMember (nextMember_spaces (List.forall_mem_nil _) false))

/-- An object that is cut short in its next member or behind it. -/
theorem readMembers_isCut_member {draft draft' : δ} {key : String} {f : φ}
    {value rest p : List Char} {first : Bool} (hf : m.field? key.toList = some f)
    (hnew : m.isSet draft f = false) (hvalue : ReadsBack (m.read draft f) value draft')
    (hne : value ≠ []) (hout : RunsOutOf (m.read draft f) value)
    (hws : ∀ c ∈ ws, Json.isSpace c) (hends : EndsNumeral rest)
    (hrest : ∀ q, IsCut q rest → readMembers m draft' false q = .error (.json .truncated))
    (hp : IsCut p (separator first ++ (ws ++ (memberChars key value ++ rest)))) :
    readMembers m draft first p = .error (.json .truncated) := by
  have hblank : ∀ c ∈ [' '], Json.isSpace c := List.forall_mem_singleton.mpr (by decide)
  have hnone : ∀ q, (∀ c ∈ q, Json.isSpace c) →
      readMembers m draft first (separator first ++ q) = .error (.json .truncated) :=
    fun q hq ↦ readMembers_of_nextMember (nextMember_separator hq first)
  have hshape : memberChars key value ++ rest
      = '"' :: (key.toList.flatMap escapedChar ++ ['"'] ++ ':' :: ' ' :: (value ++ rest)) := by
    simp only [memberChars, List.append_assoc, stringChars_append, List.cons_append,
      List.nil_append]
  rw [hshape] at hp
  obtain hcomma | ⟨p₁, rfl, hp₁⟩ := isCut_append_iff.mp hp
  · rw [eq_nil_of_isCut_separator hcomma]
    exact readMembers_of_nextMember (nextMember_spaces (List.forall_mem_nil _) first)
  obtain hspaces | ⟨p₂, rfl, hp₂⟩ := isCut_append_iff.mp hp₁
  · exact hnone p₁ fun c hc ↦ hws c (hspaces.subset hc)
  obtain rfl | ⟨p₃, rfl, hp₃⟩ := isCut_cons_iff.mp hp₂
  · rw [List.append_nil]
    exact hnone ws hws
  obtain hkey | ⟨p₄, rfl, hp₄⟩ := isCut_append_iff.mp hp₃
  · exact readMembers_of_nextMember (nextMember_of_readKey hws first (stringBody_isCut hkey))
  -- The key is complete, so what is left to see is its value.
  obtain ⟨hlt, hnext⟩ := nextMember_member hws first (stringBody_escaped key.toList p₄)
  rw [List.append_assoc]
  obtain rfl | ⟨p₅, rfl, hp₅⟩ := isCut_cons_iff.mp hp₄
  · exact readMembers_runsOut hnext (readMember_nil hf hnew)
  obtain rfl | ⟨p₆, rfl, hp₆⟩ := isCut_cons_iff.mp hp₅
  · exact readMembers_runsOut hnext (readMember_runsOut hf hnew
      (hout [] [] (List.forall_mem_nil _) (isCut_nil_of_ne_nil hne)))
  obtain hcut | ⟨q, rfl, hq⟩ := isCut_append_iff.mp hp₆
  · exact readMembers_runsOut hnext (readMember_runsOut hf hnew (hout [' '] p₆ hblank hcut))
  · have hread := hvalue [' '] q hblank (endsNumeral_of_isCut hends hq)
    exact readMembers_of_readMember hnext (readMember_field hf hnew hread) (hrest q hq)

/-- Members whose values, where they are cut short, run out of text. -/
def AllRunOut (m : Members φ δ) (members : List (String × List Char)) : Prop :=
  ∀ x ∈ members, x.2 ≠ [] ∧
    ∀ draft f, m.field? x.1.toList = some f → RunsOutOf (m.read draft f) x.2

theorem AllRunOut.cons {key : String} {value : List Char} {members : List (String × List Char)}
    {f : φ} (hf : m.field? key.toList = some f) (hne : value ≠ [])
    (hout : ∀ draft, RunsOutOf (m.read draft f) value) (h : AllRunOut m members) :
    AllRunOut m ((key, value) :: members) := by
  refine List.forall_mem_cons.mpr ⟨⟨hne, fun draft f' hf' ↦ ?_⟩, h⟩
  cases hf.symm.trans hf'
  exact hout draft

theorem readMembers_isCut_later {draft result : δ} {members : List (String × List Char)}
    (h : Fills m draft members result) (hout : AllRunOut m members) (level : Nat) {p : List Char}
    (hp : IsCut p (members.flatMap
      (fun x ↦ ',' :: (newline (level + 1) ++ memberChars x.1 x.2)) ++ (newline level ++ ['}']))) :
    readMembers m draft false p = .error (.json .truncated) := by
  induction h generalizing p with
  | nil draft =>
    exact readMembers_of_nextMember
      (nextMember_spaces (isSpace_of_isCut (isSpace_of_mem_newline level) hp) false)
  | @cons draft draft' result key value members f hf hnew hvalue h ih =>
    obtain ⟨⟨hne, houtFirst⟩, hout⟩ := List.forall_mem_cons.mp hout
    refine readMembers_isCut_member hf hnew hvalue hne (houtFirst draft f hf)
      (isSpace_of_mem_newline (level + 1)) (endsNumeral_members level members [])
      (fun q hq ↦ ih hout hq) ?_
    simpa [separator] using hp

/-- An object over several lines without its end asks for more text. -/
theorem readMembers_isCut_block {draft result : δ} {members : List (String × List Char)}
    (h : Fills m draft members result) (hout : AllRunOut m members) (level : Nat) {p : List Char}
    (hp : IsCut p (blockChars '{' '}' level (members.map fun x ↦ memberChars x.1 x.2))) :
    p = [] ∨ ∃ q, p = '{' :: q ∧ readMembers m draft true q = .error (.json .truncated) := by
  cases h with
  | nil =>
    obtain rfl | ⟨q, rfl, hq⟩ := isCut_cons_iff.mp (show IsCut p ('{' :: ['}']) from hp)
    · exact .inl rfl
    · rw [eq_nil_of_isCut_singleton hq]
      exact .inr ⟨[], rfl, readMembers_of_nextMember
        (nextMember_spaces (List.forall_mem_nil _) true)⟩
  | @cons _ draft' _ key value members f hf hnew hvalue h =>
    obtain ⟨⟨hne, houtFirst⟩, hout⟩ := List.forall_mem_cons.mp hout
    have hblock := blockChars_cons '{' '}' level (memberChars key value)
      (members.map fun x ↦ memberChars x.1 x.2) []
    rw [List.append_nil, List.flatMap_map] at hblock
    rw [List.map_cons, hblock] at hp
    obtain rfl | ⟨q, rfl, hq⟩ := isCut_cons_iff.mp hp
    · exact .inl rfl
    · exact .inr ⟨q, rfl, readMembers_isCut_member hf hnew hvalue hne (houtFirst draft f hf)
        (isSpace_of_mem_newline (level + 1)) (endsNumeral_members level members [])
        (fun r hr ↦ readMembers_isCut_later h hout level hr) hq⟩

end Objects

/-! ## Failure samples and tallies -/

theorem allRunOut_sample (f : FailureSample) :
    AllRunOut sampleMembers [("test", stringChars f.test), ("error", stringChars f.error)] := by
  refine .cons (f := .test) (by decide) (List.cons_ne_nil _ _) (fun draft ↦
    (readText_isCut f.test).map fun s ↦ ({ draft with test := some s } : SampleDraft)) ?_
  refine .cons (f := .error) (by decide) (List.cons_ne_nil _ _) (fun draft ↦
    (readText_isCut f.error).map fun s ↦ ({ draft with error := some s } : SampleDraft)) ?_
  exact List.forall_mem_nil _

/-- An object without its end, behind white space. -/
theorem behindSpace_isCut_block {α : Type} {φ δ : Type} {m : Members φ δ}
    {k : (c : Char) → (r : List Char) → Except Stop (α × Rest (c :: r))} {draft result : δ}
    {members : List (String × List Char)} {ws p : List Char}
    (hk : ∀ r e, readMembers m draft true r = .error e → k '{' r = .error e)
    (h : Fills m draft members result) (hout : AllRunOut m members) (level : Nat)
    (hws : ∀ c ∈ ws, Json.isSpace c)
    (hp : IsCut p (blockChars '{' '}' level (members.map fun x ↦ memberChars x.1 x.2))) :
    (behindSpace k : Except Stop (α × Rest (ws ++ p))) = .error (.json .truncated) := by
  obtain rfl | ⟨q, rfl, hq⟩ := readMembers_isCut_block h hout level hp
  · refine behindSpace_spaces ?_
    rwa [List.append_nil]
  · exact behindSpace_error hws (by decide) (hk q _ hq)

theorem readSample_isCut (f : FailureSample) : RunsOutOf readSample (sampleChars f) := by
  refine fun ws p hws hp ↦ .inl ?_
  refine behindSpace_isCut_block (fun r e hr ↦ ?_) (fills_sample f) (allRunOut_sample f) 2 hws hp
  rw [if_neg (by decide), if_pos rfl, readSampleMembers, hr]
  rfl

theorem blockChars_ne_nil (opening closing : Char) (level : Nat) (items : List (List Char)) :
    blockChars opening closing level items ≠ [] := by
  unfold blockChars
  split
  · exact List.cons_ne_nil _ _
  · simp

theorem allRunOut_tally (t : Tally) :
    AllRunOut tallyMembers
      [("passed", countChars t.passed), ("failed", countChars t.failed),
        ("skipped", countChars t.skipped), ("total", countChars t.total),
        ("failures", blockChars '[' ']' 1 (t.failures.toList.map sampleChars))] := by
  have hsamples : RunsOutOf (readList readSample)
      (blockChars '[' ']' 1 (t.failures.toList.map sampleChars)) :=
    readList_isCut (fun f _ ↦ readsBack_sample f)
      (fun _ _ ↦ beginsElement_blockChars (by decide) (by decide) _ _ _)
      (fun f _ ↦ readSample_isCut f) 1
  refine .cons (f := .passed) (by decide) Nat.toDigits_ne_nil (fun draft ↦
    (readCount_isCut t.passed).map fun n ↦ ({ draft with passed := some n } : TallyDraft)) ?_
  refine .cons (f := .failed) (by decide) Nat.toDigits_ne_nil (fun draft ↦
    (readCount_isCut t.failed).map fun n ↦ ({ draft with failed := some n } : TallyDraft)) ?_
  refine .cons (f := .skipped) (by decide) Nat.toDigits_ne_nil (fun draft ↦
    (readCount_isCut t.skipped).map fun n ↦ ({ draft with skipped := some n } : TallyDraft)) ?_
  refine .cons (f := .total) (by decide) Nat.toDigits_ne_nil (fun draft ↦
    (readCount_isCut t.total).map fun n ↦ ({ draft with total := some n } : TallyDraft)) ?_
  refine .cons (f := .failures) (by decide) (blockChars_ne_nil _ _ _ _) (fun draft ↦
    hsamples.map fun fs ↦ ({ draft with failures := some fs } : TallyDraft)) ?_
  exact List.forall_mem_nil _

theorem readTally_isCut (t : Tally) {p : List Char} (hp : IsCut p (tallyChars t)) :
    readTally p = .error (.json .truncated) := by
  have hspaces : ∀ c ∈ ([] : List Char), Json.isSpace c := List.forall_mem_nil _
  refine behindSpace_isCut_block (fun r e hr ↦ ?_) (fills_tally t) (allRunOut_tally t) 0 hspaces hp
  rw [if_neg (by decide), if_pos rfl, readTallyMembers, hr]
  rfl

theorem read_isCut (t : Tally) {p : String} (hp : IsCut p.toList (tallyChars t)) :
    read p = .error .truncated := by
  rw [read, readAll, readTally_isCut t hp]
  rfl

/-- **A snapshot that is cut short is never taken for a tally.** Whatever the tally, its snapshot
without its end asks for more text: wherever the cut falls it is neither read as a tally nor refused
for another reason. Behind the whole snapshot white space changes nothing, and anything else makes
it malformed. -/
theorem read_cut_or_continued (t : Tally) :
    (∀ p : String, p.toList <+: (render t).toList → p ≠ render t → read p = .error .truncated) ∧
    read (render t) = .ok (stored t) ∧
    ∀ s : String,
      ((∀ c ∈ s.toList, c ∈ [' ', '\n', '\t', '\r']) → read (render t ++ s) = .ok (stored t)) ∧
      ((∃ c ∈ s.toList, c ∉ [' ', '\n', '\t', '\r']) →
        read (render t ++ s) = .error .malformed) := by
  refine ⟨fun p hp hne ↦ ?_, read_render t, fun s ↦ ?_⟩
  · refine read_isCut t (isCut_iff.mpr ⟨?_, fun h ↦ hne ?_⟩)
    · rwa [render, String.toList_ofList] at hp
    · rw [render, ← h, String.ofList_toList]
  · have hspace : Json.skipSpace s.toList = [] ↔ ∀ c ∈ s.toList, c ∈ [' ', '\n', '\t', '\r'] := by
      rw [Json.skipSpace, List.dropWhile_eq_nil_iff]
      simp [Json.isSpace, or_assoc]
    rw [read, render, String.toList_append, String.toList_ofList, readAll_append]
    constructor
    · intro h
      rw [if_pos (hspace.mpr h)]
      rfl
    · rintro ⟨c, hc, hother⟩
      rw [if_neg fun h ↦ hother (hspace.mp h c hc)]
      rfl

/-- A snapshot that ends inside the escape of a control character, and whole ones with a line feed
and with a comma behind. -/
theorem read_cut_inside_escape :
    ∃ t : Tally, ∃ p : String, p.toList <+: (render t).toList ∧ p ≠ render t ∧
      ['a', '\\', 'u', '0', '0'] <:+ p.toList ∧ read p = .error .truncated ∧
      read (render t ++ "\n") = .ok (stored t) ∧ read (render t ++ ",") = .error .malformed := by
  let t : Tally := ⟨0, 1, 0, 1, #[⟨"a\x1f", "boom"⟩], 50⟩
  let p : String := "\x7b\n  \"passed\": 0,\n  \"failed\": 1,\n  \"skipped\": 0,\n" ++
    "  \"total\": 1,\n  \"failures\": [\n    \x7b\n      \"test\": \"a\\u00"
  have hchars : tallyChars t
      = p.toList ++ '1' :: "f\",\n      \"error\": \"boom\"\n    \x7d\n  ]\n\x7d".toList := by
    decide +kernel
  have hrender := (String.toList_ofList (l := tallyChars t)).trans hchars
  obtain ⟨hinitial, hproper⟩ := isCut_iff.mp ⟨_, _, hrender⟩
  have hne : p ≠ render t := fun h ↦ hproper (congrArg String.toList h)
  obtain ⟨hcut, -, hbehind⟩ := read_cut_or_continued t
  refine ⟨t, p, hinitial, hne, by decide +kernel, hcut p hinitial hne, (hbehind "\n").1 ?_,
    (hbehind ",").2 ⟨',', ?_, ?_⟩⟩
  · simp
  · simp
  · simp

end Snapshot

end Conformance
