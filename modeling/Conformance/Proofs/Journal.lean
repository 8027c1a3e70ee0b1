import Conformance.Harness
/-!
# Journals

A run asks its platform for one operation after the other. A journal lists these deeds, each with
the answer it got, and among them the events that an observer was told. The recorded twin of a
platform keeps a journal beside the state, so what a run does, and in which order, is read off the
same functions on the twin.

`Journals s x y Q` compares an operation `x` with its twin `y` from a state `s` on. Keeping the
journal changes neither answer nor state, nothing that was noted is lost, and what is added meets
`Q`, together with the answer and the state behind. Its rules follow the way a run is put together,
so that one lemma per function says all that the function can do.
-/

namespace Conformance

/-- What a run did: an operation that it asked for, or an event that its observer was told. -/
inductive Deed where
  | now (answer : Instant)
  | pause (nanos : Nat)
  | spawn (program : Path) (arguments : List String) (answer : Except IoError Child)
  | startReader (child : Child) (pipe : OutputPipe) (answer : Bool)
  | poll (child : Child) (answer : Except IoError (Option UInt32))
  | receive (child : Child) (pipe : OutputPipe) (nanos : Nat) (answer : Received)
  | isDrained (child : Child) (pipe : OutputPipe) (answer : Bool)
  | killGroup (child : Child)
  | killChild (child : Child)
  | reap (child : Child)
  | runToEnd (program : Path) (arguments : List String) (answer : Except IoError Completed)
  | isFile (path : Path) (answer : Bool)
  | isPresent (path : Path) (answer : Bool)
  | listing (path : Path) (answer : Option (List (String × Entry)))
  | readText (path : Path) (answer : Except IoError String)
  | writeText (path : Path) (text : String) (answer : Except IoError Unit)
  | print (text : String)
  /-- A corpus was asked for, from whatever provides it. -/
  | provide (root : Path) (answer : Except Fault CorpusStatus)
  | tell (event : RunEvent)

section Recording

variable {σ α : Type}

/-- An operation whose deed is noted at the end of a journal. -/
def noting (deed : α → Deed) (x : StateM σ α) : StateM (σ × List Deed) α := fun (s, journal) ↦
  let (a, s) := x s
  (a, s, journal ++ [deed a])

/-- A platform that keeps a journal. -/
def Platform.recorded (p : Platform σ) : Platform (σ × List Deed) where
  now := noting .now p.now
  pause nanos := noting (fun _ ↦ .pause nanos) (p.pause nanos)
  spawn program arguments := noting (.spawn program arguments) (p.spawn program arguments)
  startReader child pipe := noting (.startReader child pipe) (p.startReader child pipe)
  poll child := noting (.poll child) (p.poll child)
  receive child pipe nanos := noting (.receive child pipe nanos) (p.receive child pipe nanos)
  isDrained child pipe := noting (.isDrained child pipe) (p.isDrained child pipe)
  killGroup child := noting (fun _ ↦ .killGroup child) (p.killGroup child)
  killChild child := noting (fun _ ↦ .killChild child) (p.killChild child)
  reap child := noting (fun _ ↦ .reap child) (p.reap child)
  runToEnd program arguments :=
    noting (.runToEnd program arguments) (p.runToEnd program arguments)
  isFile path := noting (.isFile path) (p.isFile path)
  isPresent path := noting (.isPresent path) (p.isPresent path)
  listing path := noting (.listing path) (p.listing path)
  readText path := noting (.readText path) (p.readText path)
  writeText path text := noting (.writeText path text) (p.writeText path text)
  print text := noting (fun _ ↦ .print text) (p.print text)

/-- An observer whose events are noted, each as the deed that it is `told` by. -/
def observed (told : RunEvent → Deed) (observe : RunEvent → StateM σ Unit) (e : RunEvent) :
    StateM (σ × List Deed) Unit :=
  noting (fun _ ↦ told e) (observe e)

/-- A provider whose answers are noted. -/
def provided (provide : Path → StateM σ (Except Fault CorpusStatus)) (root : Path) :
    StateM (σ × List Deed) (Except Fault CorpusStatus) :=
  noting (.provide root) (provide root)

end Recording

/-! ## What a journal says of an operation -/

section Rules

variable {σ α β : Type}

/-- From the state `s` on, `y` is `x` with a journal kept, and what it adds meets `Q`. -/
def Journals (s : σ) (x : StateM σ α) (y : StateM (σ × List Deed) α)
    (Q : List Deed → α → σ → Prop) : Prop :=
  ∀ journal, ∃ deeds, y (s, journal) = ((x s).1, (x s).2, journal ++ deeds) ∧
    Q deeds (x s).1 (x s).2

namespace Journals

variable {s : σ} {x : StateM σ α} {y : StateM (σ × List Deed) α}
  {Q Q' : List Deed → α → σ → Prop} {f : α → StateM σ β} {g : α → StateM (σ × List Deed) β}
  {R : List Deed → β → σ → Prop}

theorem pure {a : α} (h : Q [] a s) : Journals s (pure a) (pure a) Q := by
  intro journal
  refine ⟨[], ?_, h⟩
  rw [List.append_nil]
  rfl

/-- What is done later is noted later. -/
theorem bind (hx : Journals s x y Q)
    (hf : ∀ deeds a t, Q deeds a t → Journals t (f a) (g a) fun deeds' ↦ R (deeds ++ deeds')) :
    Journals s (x >>= f) (y >>= g) R := by
  intro journal
  obtain ⟨deeds, e, h⟩ := hx journal
  -- The second operation finds the journal that the first one leaves.
  obtain ⟨deeds', e', h'⟩ := hf deeds _ _ h (journal ++ deeds)
  refine ⟨deeds ++ deeds', ?_, h'⟩
  change (let (a, s) := y (s, journal); g a s) = _
  rw [e]
  change g (x s).1 ((x s).2, journal ++ deeds) = _
  rw [e', List.append_assoc]
  rfl

/-- An operation of the platform adds its deed. -/
theorem note {deed : α → Deed} (h : Q [deed (x s).1] (x s).1 (x s).2) :
    Journals s x (noting deed x) Q :=
  fun _ ↦ ⟨[deed (x s).1], rfl, h⟩

theorem note_bind {deed : α → Deed}
    (h : ∀ a t, x s = (a, t) → Journals t (f a) (g a) fun deeds ↦ R (deed a :: deeds)) :
    Journals s (x >>= f) (noting deed x >>= g) R := by
  refine bind (.note (Q := fun deeds a t ↦ deeds = [deed a] ∧ x s = (a, t)) ⟨rfl, rfl⟩) ?_
  rintro _ a t ⟨rfl, e⟩
  exact h a t e

theorem mono (h : Journals s x y Q) (hQ : ∀ deeds a t, Q deeds a t → Q' deeds a t) :
    Journals s x y Q' := by
  intro journal
  obtain ⟨deeds, e, h⟩ := h journal
  exact ⟨deeds, e, hQ _ _ _ h⟩

/-- The answer and the state behind are those of the operation itself. -/
theorem and_eq (h : Journals s x y Q) :
    Journals s x y fun deeds a t ↦ Q deeds a t ∧ x s = (a, t) := by
  intro journal
  obtain ⟨deeds, e, h⟩ := h journal
  exact ⟨deeds, e, h, rfl⟩

end Journals

/-- All that `y` adds to a journal is of one kind, wherever `x` starts. -/
def Consists (P : Deed → Prop) (x : StateM σ α) (y : StateM (σ × List Deed) α) : Prop :=
  ∀ s, Journals s x y fun deeds _ _ ↦ ∀ d ∈ deeds, P d

namespace Consists

variable {P : Deed → Prop} {x : StateM σ α} {y : StateM (σ × List Deed) α}
  {f : α → StateM σ β} {g : α → StateM (σ × List Deed) β}

theorem pure (a : α) : Consists P (Pure.pure a : StateM σ α) (Pure.pure a) :=
  fun _ ↦ .pure (List.forall_mem_nil _)

theorem note {deed : α → Deed} (h : ∀ a, P (deed a)) : Consists P x (noting deed x) :=
  fun _ ↦ .note (List.forall_mem_singleton.mpr (h _))

theorem bind (hx : Consists P x y) (hf : ∀ a, Consists P (f a) (g a)) :
    Consists P (x >>= f) (y >>= g) := by
  intro s
  refine (hx s).bind ?_
  intro deeds a t hdeeds
  refine (hf a t).mono ?_
  intro deeds' b u hdeeds'
  exact List.forall_mem_append.mpr ⟨hdeeds, hdeeds'⟩

end Consists

end Rules

end Conformance
