import Conformance.Proofs.Json.Scan
import Conformance.Snapshot.Reader
/-!
# What the readers of a snapshot find

Every reader of a snapshot begins by skipping white space, and every value in a snapshot is followed
by something with which no numeral goes on. `ReadsBack read chars a` is the one statement about a
reader that fits all values: with any white space in front and any such text behind, `read` takes
`chars` from the text and finds `a`.

Lists and objects are followed element by element and member by member. An element only has to begin
with a character that is neither white space nor a closing bracket; a member only has to name a
field that the draft does not have yet.
-/

namespace Conformance.Snapshot

open Json (Finds EndsNumeral Rest)

/-- Wherever `chars` stands as a value, `read` takes it from the text and finds `a`. -/
def ReadsBack {α : Type} (read : Reader α) (chars : List Char) (a : α) : Prop :=
  ∀ ws rest, (∀ c ∈ ws, Json.isSpace c) → EndsNumeral rest →
    Finds (read (ws ++ (chars ++ rest))) a rest

theorem behindSpace_of_skipSpace {α : Type} {cs r : List Char} {c : Char}
    (k : (c : Char) → (r : List Char) → Except Stop (α × Rest (c :: r)))
    (h : Json.skipSpace cs = c :: r) :
    (behindSpace k : Except Stop (α × Rest cs))
      = (k c r).map fun (a, rest) ↦ (a, Rest.ofSkipSpace ⟨rest.1, by rw [h]; exact rest.2⟩) := by
  unfold behindSpace
  split
  · rename_i hnil
    exact absurd (hnil.symm.trans h) (List.cons_ne_nil _ _).symm
  · rename_i c' r' hcons
    obtain ⟨rfl, rfl⟩ := List.cons.inj (hcons.symm.trans h)
    rfl

theorem finds_behindSpace {α : Type} {cs : List Char}
    {k : (c : Char) → (r : List Char) → Except Stop (α × Rest (c :: r))} {c : Char}
    {r rest : List Char} {a : α} (hcs : Json.skipSpace cs = c :: r) (h : Finds (k c r) a rest) :
    Finds (behindSpace k : Except Stop (α × Rest cs)) a rest := by
  obtain ⟨hlt, e⟩ := h
  have hle : (c :: r).length ≤ cs.length := hcs ▸ Json.length_skipSpace_le cs
  refine ⟨Nat.lt_of_lt_of_le hlt hle, ?_⟩
  rw [behindSpace_of_skipSpace k hcs, e]
  rfl

/-- What is found in a text is found in it behind one more character. -/
theorem finds_cons {ε α β : Type} {cs rest : List Char} {r : Except ε (α × Rest cs)} {a : α}
    (f : α → β) (c : Char) (h : Finds r a rest) :
    Finds (r.map fun (a, rest) ↦ (f a, rest.cons c)) (f a) rest := by
  obtain ⟨hlt, e⟩ := h
  exact ⟨Nat.lt_succ_of_lt hlt, by rw [e]; rfl⟩

/-! ## Scalars -/

theorem readCount_number {cs r rest : List Char} {c : Char} {n : Nat}
    (hcs : Json.skipSpace cs = c :: r) (hc : Json.isDigit c)
    (h : Finds (Json.number (c :: r)) (.natural n) rest) :
    Finds (readCount cs) (.ofNat n) rest := by
  refine finds_behindSpace hcs ?_
  obtain ⟨hlt, e⟩ := h
  refine ⟨hlt, ?_⟩
  rw [if_pos (.inr hc), e]
  rfl

theorem readText_string {cs r s rest : List Char} (hcs : Json.skipSpace cs = '"' :: r)
    (h : Finds (Json.stringBody r) s rest) : Finds (readText cs) (String.ofList s) rest := by
  refine finds_behindSpace hcs ?_
  obtain ⟨hlt, e⟩ := h
  refine ⟨Nat.lt_succ_of_lt hlt, ?_⟩
  rw [if_pos rfl, e]
  rfl

/-! ## Lists -/

/-- A character with which an element of a list may begin. -/
def BeginsElement (chars : List Char) : Prop :=
  ∃ c r, chars = c :: r ∧ Json.isSpace c = false ∧ c ≠ ']'

/-- How a list goes on is decided by the first character that is not white space. -/
theorem nextElement_of_skipSpace (first : Bool) {cs r : List Char} {c : Char}
    (h : Json.skipSpace cs = c :: r) :
    nextElement first cs =
      if c = ']' then .ok (.closed ⟨r, Json.length_lt_of_skipSpace h⟩)
      else if first then .ok (.element (.whole cs))
      else if c = ',' then
        match Json.skipSpace r with
        | [] => .error (.json .truncated)
        | d :: _ =>
          if d = ']' then .error (.json .malformed)
          else .ok (.element (Rest.toTail ⟨r, Json.length_lt_of_skipSpace h⟩))
      else .error (.json .malformed) := by
  unfold nextElement
  split
  · rename_i hnil
    exact absurd (hnil.symm.trans h) (List.cons_ne_nil _ _).symm
  · rename_i c' r' hcons
    obtain ⟨rfl, rfl⟩ := List.cons.inj (hcons.symm.trans h)
    rfl

theorem nextElement_closed {ws : List Char} (hws : ∀ c ∈ ws, Json.isSpace c) (first : Bool)
    (rest : List Char) :
    ∃ h, nextElement first (ws ++ ']' :: rest) = .ok (.closed ⟨rest, h⟩) := by
  have hskip := Json.skipSpace_append_cons hws (c := ']') (by decide) rest
  exact ⟨_, by rw [nextElement_of_skipSpace first hskip, if_pos rfl]⟩

theorem nextElement_first {ws chars : List Char} (hws : ∀ c ∈ ws, Json.isSpace c)
    (hchars : BeginsElement chars) (rest : List Char) :
    nextElement true (ws ++ (chars ++ rest)) = .ok (.element (.whole _)) := by
  obtain ⟨c, r, rfl, hspace, hclose⟩ := hchars
  have hskip := Json.skipSpace_append_cons hws hspace (r ++ rest)
  rw [List.cons_append, nextElement_of_skipSpace true hskip, if_neg hclose, if_pos rfl]

theorem nextElement_later {ws chars : List Char} (hws : ∀ c ∈ ws, Json.isSpace c)
    (hchars : BeginsElement chars) (rest : List Char) :
    ∃ h, nextElement false (',' :: (ws ++ (chars ++ rest)))
      = .ok (.element ⟨ws ++ (chars ++ rest), h⟩) := by
  obtain ⟨c, r, rfl, hspace, hclose⟩ := hchars
  have hskip : Json.skipSpace (ws ++ (c :: r ++ rest)) = c :: (r ++ rest) :=
    Json.skipSpace_append_cons hws hspace _
  have hcomma := Json.skipSpace_cons (c := ',') (by decide) (ws ++ (c :: r ++ rest))
  refine ⟨Nat.le_succ _, ?_⟩
  rw [nextElement_of_skipSpace false hcomma, if_neg (by decide), if_neg (by decide), if_pos rfl,
    hskip]
  exact if_neg hclose

theorem readElements_closed {α : Type} (read : Reader α) {ws : List Char}
    (hws : ∀ c ∈ ws, Json.isSpace c) (first : Bool) (rest : List Char) :
    Finds (readElements read first (ws ++ ']' :: rest)) [] rest := by
  obtain ⟨h, e⟩ := nextElement_closed hws first rest
  refine ⟨h, ?_⟩
  rw [readElements, e]
  rfl

theorem readElements_element {α : Type} {read : Reader α} {first : Bool}
    {cs r r' rest : List Char} {hle : r.length ≤ cs.length} {a : α} {as : List α}
    (hnext : nextElement first cs = .ok (.element ⟨r, hle⟩)) (ha : Finds (read r) a r')
    (has : Finds (readElements read false r') as rest) :
    Finds (readElements read first cs) (a :: as) rest := by
  obtain ⟨h, e⟩ := ha
  obtain ⟨h', e'⟩ := has
  refine ⟨Nat.lt_of_lt_of_le (Nat.lt_trans h' h) hle, ?_⟩
  rw [readElements, hnext]
  change (read r >>= _) = _
  rw [e]
  change (readElements read false r' >>= _) = _
  rw [e']
  rfl

/-- The elements of a list behind the first, each behind a comma and white space. -/
theorem readElements_later {α : Type} {read : Reader α} {write : α → List Char}
    {ws ws' : List Char} (hws : ∀ c ∈ ws, Json.isSpace c) (hws' : ∀ c ∈ ws', Json.isSpace c)
    {as : List α} (hread : ∀ a ∈ as, ReadsBack read (write a) a)
    (hbegin : ∀ a ∈ as, BeginsElement (write a))
    (hends : EndsNumeral (ws' ++ [']'])) (rest : List Char) :
    Finds (readElements read false
      (as.flatMap (fun a ↦ ',' :: (ws ++ write a)) ++ (ws' ++ ']' :: rest))) as rest := by
  induction as with
  | nil => exact readElements_closed read hws' false rest
  | cons a as ih =>
    have htail := ih (fun b hb ↦ hread b (List.mem_cons_of_mem a hb))
      (fun b hb ↦ hbegin b (List.mem_cons_of_mem a hb))
    -- Behind the element comes a comma, or whatever closes the list.
    have hfollow : EndsNumeral
        (as.flatMap (fun a ↦ ',' :: (ws ++ write a)) ++ (ws' ++ ']' :: rest)) := by
      cases as with
      | nil =>
        cases ws' with
        | nil => exact hends
        | cons c ws' => exact fun d hd ↦ hends d hd
      | cons b as => intro c hc; cases hc; decide
    obtain ⟨hle, hnext⟩ := nextElement_later hws (hbegin a List.mem_cons_self)
      (as.flatMap (fun a ↦ ',' :: (ws ++ write a)) ++ (ws' ++ ']' :: rest))
    have hshape : (a :: as).flatMap (fun a ↦ ',' :: (ws ++ write a)) ++ (ws' ++ ']' :: rest)
        = ',' :: (ws ++ (write a
          ++ (as.flatMap (fun a ↦ ',' :: (ws ++ write a)) ++ (ws' ++ ']' :: rest)))) := by
      simp only [List.flatMap_cons, List.cons_append, List.append_assoc]
    rw [hshape]
    exact readElements_element hnext (hread a List.mem_cons_self ws _ hws hfollow) htail

/-! ## Objects -/

section Objects

variable {φ δ : Type} {m : Members φ δ}

/-- What stands in front of a member: nothing for the first one, a comma for the others. -/
def separator (first : Bool) : List Char := if first then [] else [',']

/-- How an object goes on is decided by the first character that is not white space. -/
theorem nextMember_of_skipSpace (first : Bool) {cs r : List Char} {c : Char}
    (h : Json.skipSpace cs = c :: r) :
    nextMember first cs =
      if c = '}' then .ok (.closed ⟨r, Json.length_lt_of_skipSpace h⟩)
      else if first then
        if c = '"' then readKey r (Json.length_lt_of_skipSpace h) else .error (.json .malformed)
      else if c = ',' then
        match h' : Json.skipSpace r with
        | [] => .error (.json .truncated)
        | d :: r' =>
          if d = '"' then
            readKey r' (Nat.lt_trans (Json.length_lt_of_skipSpace h')
              (Json.length_lt_of_skipSpace h))
          else .error (.json .malformed)
      else .error (.json .malformed) := by
  unfold nextMember
  split
  · rename_i hnil
    exact absurd (hnil.symm.trans h) (List.cons_ne_nil _ _).symm
  · rename_i c' r' hcons
    obtain ⟨rfl, rfl⟩ := List.cons.inj (hcons.symm.trans h)
    rfl

theorem nextMember_closed {ws : List Char} (hws : ∀ c ∈ ws, Json.isSpace c) (first : Bool)
    (rest : List Char) :
    ∃ h, nextMember first (ws ++ '}' :: rest) = .ok (.closed ⟨rest, h⟩) := by
  have hskip := Json.skipSpace_append_cons hws (c := '}') (by decide) rest
  exact ⟨_, by rw [nextMember_of_skipSpace first hskip, if_pos rfl]⟩

theorem readKey_eq {cs r key rest : List Char} (h : r.length < cs.length)
    (hkey : Finds (Json.stringBody r) key rest) :
    ∃ h', (readKey r h : Except Stop (ObjectNext cs)) = .ok (.member key ⟨rest, h'⟩) := by
  obtain ⟨hlt, e⟩ := hkey
  exact ⟨Nat.lt_trans hlt h, by rw [readKey, e]; rfl⟩

theorem nextMember_member {ws r key rest : List Char} (hws : ∀ c ∈ ws, Json.isSpace c)
    (first : Bool) (hkey : Finds (Json.stringBody r) key rest) :
    ∃ h, nextMember first (separator first ++ (ws ++ '"' :: r))
      = .ok (.member key ⟨rest, h⟩) := by
  have hskip := Json.skipSpace_append_cons hws (c := '"') (by decide) r
  cases first with
  | true =>
    have hfirst : Json.skipSpace (separator true ++ (ws ++ '"' :: r)) = '"' :: r := hskip
    rw [nextMember_of_skipSpace true hfirst, if_neg (by decide), if_pos rfl, if_pos rfl]
    exact readKey_eq _ hkey
  | false =>
    have hcomma : Json.skipSpace (separator false ++ (ws ++ '"' :: r))
        = ',' :: (ws ++ '"' :: r) := Json.skipSpace_cons (by decide) _
    rw [nextMember_of_skipSpace false hcomma, if_neg (by decide), if_neg (by decide), if_pos rfl]
    split
    · rename_i hnil
      exact absurd (hnil.symm.trans hskip) (List.cons_ne_nil _ _).symm
    · rename_i d s hcons
      obtain ⟨rfl, rfl⟩ := List.cons.inj (hcons.symm.trans hskip)
      rw [if_pos rfl]
      exact readKey_eq _ hkey

theorem colon_of_skipSpace {cs r : List Char} {c : Char} (h : Json.skipSpace cs = c :: r) :
    colon cs =
      if c = ':' then .ok ⟨r, Json.length_lt_of_skipSpace h⟩ else .error (.json .malformed) := by
  unfold colon
  split
  · rename_i hnil
    exact absurd (hnil.symm.trans h) (List.cons_ne_nil _ _).symm
  · rename_i c' r' hcons
    obtain ⟨rfl, rfl⟩ := List.cons.inj (hcons.symm.trans h)
    rfl

theorem colon_cons (rest : List Char) :
    colon (':' :: rest) = .ok ⟨rest, Nat.lt_succ_self _⟩ := by
  rw [colon_of_skipSpace (Json.skipSpace_cons (by decide) rest), if_pos rfl]

/-- The value of a member with a new field, behind its colon. -/
theorem readMember_field {draft draft' : δ} {key : List Char} {f : φ}
    (hf : m.field? key = some f) (hnew : m.isSet draft f = false) {cs rest : List Char}
    (hvalue : Finds (m.read draft f cs) draft' rest) :
    Finds (readMember m draft key (':' :: cs)) draft' rest := by
  obtain ⟨hlt, e⟩ := hvalue
  refine ⟨Nat.lt_succ_of_lt hlt, ?_⟩
  simp only [readMember, hf, hnew, Bool.false_eq_true, if_false, colon_cons]
  change (m.read draft f cs >>= _) = _
  rw [e]
  rfl

theorem readMembers_closed (draft : δ) {ws : List Char} (hws : ∀ c ∈ ws, Json.isSpace c)
    (first : Bool) (rest : List Char) :
    Finds (readMembers m draft first (ws ++ '}' :: rest)) draft rest := by
  obtain ⟨h, e⟩ := nextMember_closed hws first rest
  refine ⟨h, ?_⟩
  rw [readMembers, e]
  rfl

theorem readMembers_member {draft draft' result : δ} {first : Bool}
    {cs key r r' rest : List Char} {hlt : r.length < cs.length}
    (hnext : nextMember first cs = .ok (.member key ⟨r, hlt⟩))
    (hmember : Finds (readMember m draft key r) draft' r')
    (hmembers : Finds (readMembers m draft' false r') result rest) :
    Finds (readMembers m draft first cs) result rest := by
  obtain ⟨h, e⟩ := hmember
  obtain ⟨h', e'⟩ := hmembers
  refine ⟨Nat.lt_trans (Nat.lt_trans h' h) hlt, ?_⟩
  rw [readMembers, hnext]
  change (readMember m draft key r >>= _) = _
  rw [e]
  change (readMembers m draft' false r' >>= _) = _
  rw [e']
  rfl

end Objects

end Conformance.Snapshot
