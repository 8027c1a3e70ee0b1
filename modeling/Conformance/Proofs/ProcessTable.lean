import Conformance.Platform
/-!
# Processes and the numbers they hold

A process has a number, and it belongs to a group whose number is that of the process that first led
it. A number is taken as long as a process bears it or a group of that number has a member. A process
that has ended bears its number until it is collected. Afterwards the number is free, and the system
may give it to an unrelated process that leads a new group of the same number.

A test starts one child in a group of its own, and all that the child forks belongs to the test too.
Every other process is a *stranger*. While the executor is about something else, processes end, fork,
leave their groups, are collected and appear, one *move* after the other.

## The invariant

The processes that hold a number are all of the test or all strangers. A fork hands a group down to a
process of the same side, and a number comes to the other side only while nobody holds it; so no move
mixes them. The child itself stays in the table, since only the executor collects it.
-/

namespace Conformance

namespace ProcessTable

/-! ## Tables -/

/-- Where a process comes from, as a test sees it. -/
inductive Origin where
  /-- The executor started it for the test. -/
  | child
  /-- The child forked it, or another descendant did. -/
  | descendant
  /-- The test did not start it. -/
  | stranger
  deriving DecidableEq, Repr

/-- The origin of what a process forks. -/
def Origin.offspring : Origin → Origin
  | .child | .descendant => .descendant
  | .stranger => .stranger

/-- A process that is not collected yet. -/
structure Process where
  pid : Nat
  /-- The number of its group. -/
  group : Nat
  origin : Origin
  /-- The raw wait status, once it has ended. -/
  status : Option UInt32
  deriving DecidableEq, Repr

namespace Process

/-- The test started the process. -/
def IsOwn (p : Process) : Prop := p.origin ≠ .stranger

/-- The process keeps a number taken. -/
def Holds (p : Process) (n : Nat) : Prop := p.pid = n ∨ p.group = n

/-- The process is the child that the executor knows by a handle. -/
def Is (p : Process) (child : Child) : Prop := p.pid = child.pid ∧ p.origin = .child

instance (p : Process) : Decidable p.IsOwn := inferInstanceAs (Decidable (_ ≠ _))

instance (p : Process) (n : Nat) : Decidable (p.Holds n) := inferInstanceAs (Decidable (_ ∨ _))

instance (p : Process) (child : Child) : Decidable (p.Is child) :=
  inferInstanceAs (Decidable (_ ∧ _))

theorem Is.isOwn {p : Process} {child : Child} (h : p.Is child) : p.IsOwn := by
  rw [IsOwn, h.2]
  decide

theorem Is.holds {p : Process} {child : Child} (h : p.Is child) : p.Holds child.pid := .inl h.1

/-- What a process forks is on its own side. -/
theorem isOwn_offspring_iff {p : Process} : p.origin.offspring ≠ .stranger ↔ p.IsOwn := by
  rw [IsOwn]
  generalize p.origin = origin
  cases origin <;> decide

end Process

/-- Some process of the table keeps the number taken. -/
def IsTaken (t : List Process) (n : Nat) : Prop := ∃ p ∈ t, p.Holds n

instance (t : List Process) (n : Nat) : Decidable (IsTaken t n) :=
  inferInstanceAs (Decidable (∃ p ∈ t, p.Holds n))

/-- The table with a new process, unless its number is taken. -/
def add (t : List Process) (p : Process) : List Process :=
  if IsTaken t p.pid then t else t ++ [p]

/-- The table in which those processes that were chosen have ended, if they had not before. -/
def finish (t : List Process) (isChosen : Process → Bool) (status : UInt32) : List Process :=
  t.map fun p ↦ if isChosen p ∧ p.status = none then { p with status := some status } else p

/-! ## Moves -/

/-- What the system and its processes do by themselves. -/
inductive Move where
  /-- A process ends, by itself or by a signal. -/
  | exit (pid : Nat) (status : UInt32)
  /-- A process forks one with a free number, which joins its group. -/
  | fork (parent pid : Nat)
  /-- A process leaves its group and leads one of its own. -/
  | leave (pid : Nat)
  /-- A process that has ended is collected. The child is left to the executor. -/
  | collect (pid : Nat)
  /-- An unrelated process with a free number appears and leads a new group. -/
  | appear (pid : Nat)
  deriving DecidableEq, Repr

/-- The table behind a move. A move that is impossible changes nothing. -/
def Move.apply (t : List Process) : Move → List Process
  | .exit pid status => finish t (·.pid = pid) status
  | .fork parent pid =>
    match t.find? fun p ↦ p.pid = parent ∧ p.status = none with
    | some p => add t ⟨pid, p.group, p.origin.offspring, none⟩
    | none => t
  | .leave pid =>
    t.map fun p ↦ if p.pid = pid ∧ p.status = none then { p with group := p.pid } else p
  | .collect pid => t.filter fun p ↦ ¬ (p.pid = pid ∧ p.origin ≠ .child ∧ p.status ≠ none)
  | .appear pid => add t ⟨pid, pid, .stranger, none⟩

/-! ## Sides -/

/-- The processes that hold a number are all of the test or all strangers. -/
def Unmixed (n : Nat) (t : List Process) : Prop :=
  ∀ p ∈ t, ∀ q ∈ t, p.Holds n → q.Holds n → (p.IsOwn ↔ q.IsOwn)

section Sides

variable {n : Nat} {t u : List Process} {p : Process}

/-- A number that only processes hold for which others of their side held it before stays
unmixed. -/
theorem Unmixed.of_forall_exists (h : Unmixed n t)
    (hu : ∀ q ∈ u, q.Holds n → ∃ p ∈ t, p.Holds n ∧ (p.IsOwn ↔ q.IsOwn)) : Unmixed n u := by
  intro q hq r hr hqn hrn
  obtain ⟨p, hp, hpn, hpq⟩ := hu q hq hqn
  obtain ⟨s, hs, hsn, hsr⟩ := hu r hr hrn
  exact hpq.symm.trans ((h p hp s hs hpn hsn).trans hsr)

/-- Behind a process whose number was free, nobody else holds the number. -/
theorem unmixed_append_of_not_isTaken (h : ¬ IsTaken t n) : Unmixed n (t ++ [p]) := by
  have heq : ∀ q ∈ t ++ [p], q.Holds n → q = p := by
    intro q hq hn
    rcases List.mem_append.mp hq with hq | hq
    · exact absurd ⟨q, hq, hn⟩ h
    · exact List.mem_singleton.mp hq
  intro q hq r hr hqn hrn
  rw [heq q hq hqn, heq r hr hrn]

/-- A new process leads its group or joins one of its own side. -/
theorem Unmixed.add (h : Unmixed n t)
    (hp : p.group = p.pid ∨ ∃ q ∈ t, q.group = p.group ∧ (q.IsOwn ↔ p.IsOwn)) :
    Unmixed n (add t p) := by
  rw [ProcessTable.add]
  split
  · exact h
  · rename_i hfree
    by_cases hn : p.pid = n
    · exact unmixed_append_of_not_isTaken (hn ▸ hfree)
    · refine h.of_forall_exists fun q hq hqn ↦ ?_
      rcases List.mem_append.mp hq with hq | hq
      · exact ⟨q, hq, hqn, Iff.rfl⟩
      · cases List.mem_singleton.mp hq
        have hgroup : p.group = n := hqn.resolve_left hn
        rcases hp with hlead | ⟨r, hr, hjoined, hside⟩
        · exact absurd (hlead.symm.trans hgroup) hn
        · exact ⟨r, hr, .inr (hjoined.trans hgroup), hside⟩

theorem Unmixed.filter (h : Unmixed n t) (keep : Process → Bool) : Unmixed n (t.filter keep) :=
  h.of_forall_exists fun q hq hn ↦ ⟨q, (List.mem_filter.mp hq).1, hn, Iff.rfl⟩

/-- A change of each process by itself that gives it no number and no other side. -/
theorem Unmixed.map (h : Unmixed n t) {f : Process → Process}
    (hf : ∀ p, ((f p).Holds n → p.Holds n) ∧ (p.IsOwn ↔ (f p).IsOwn)) : Unmixed n (t.map f) := by
  refine h.of_forall_exists fun q hq hn ↦ ?_
  obtain ⟨p, hp, rfl⟩ := List.mem_map.mp hq
  exact ⟨p, hp, (hf p).1 hn, (hf p).2⟩

theorem Unmixed.finish (h : Unmixed n t) (isChosen : Process → Bool) (status : UInt32) :
    Unmixed n (finish t isChosen status) := by
  refine h.map fun p ↦ ?_
  split
  · exact ⟨id, Iff.rfl⟩
  · exact ⟨id, Iff.rfl⟩

/-- No move mixes the sides. -/
theorem Unmixed.apply (h : Unmixed n t) (m : Move) : Unmixed n (m.apply t) := by
  cases m with
  | exit pid status => exact h.finish _ status
  | fork parent pid =>
    rw [Move.apply]
    split
    · rename_i p hfind
      refine h.add (.inr ⟨p, List.mem_of_find?_eq_some hfind, rfl, ?_⟩)
      exact Process.isOwn_offspring_iff.symm
    · exact h
  | leave pid =>
    refine h.map fun p ↦ ?_
    split
    · exact ⟨fun hn ↦ .inl (hn.elim id id), Iff.rfl⟩
    · exact ⟨id, Iff.rfl⟩
  | collect pid => exact h.filter _
  | appear pid => exact h.add (.inl rfl)

theorem Unmixed.foldl (h : Unmixed n t) (moves : List Move) :
    Unmixed n (moves.foldl Move.apply t) :=
  List.foldlRecOn moves Move.apply h fun _ h m _ ↦ h.apply m

end Sides

/-! ## The child -/

/-- The child is in the table, whether it has ended or not. -/
def Present (child : Child) (t : List Process) : Prop := ∃ p ∈ t, p.Is child

section Present

variable {child : Child} {t : List Process}

theorem Present.add (h : Present child t) (p : Process) : Present child (add t p) := by
  rw [ProcessTable.add]
  split
  · exact h
  · obtain ⟨q, hq, hchild⟩ := h
    exact ⟨q, List.mem_append_left _ hq, hchild⟩

theorem Present.map (h : Present child t) {f : Process → Process}
    (hf : ∀ p, p.Is child → (f p).Is child) : Present child (t.map f) := by
  obtain ⟨p, hp, hchild⟩ := h
  exact ⟨f p, List.mem_map_of_mem hp, hf p hchild⟩

theorem Present.finish (h : Present child t) (isChosen : Process → Bool) (status : UInt32) :
    Present child (finish t isChosen status) := by
  refine h.map fun p hp ↦ ?_
  split
  · exact hp
  · exact hp

/-- No move takes the child out of the table. -/
theorem Present.apply (h : Present child t) (m : Move) : Present child (m.apply t) := by
  cases m with
  | exit pid status => exact h.finish _ status
  | fork parent pid =>
    rw [Move.apply]
    split
    · exact h.add _
    · exact h
  | leave pid =>
    refine h.map fun p hp ↦ ?_
    split
    · exact hp
    · exact hp
  | collect pid =>
    obtain ⟨p, hp, hchild⟩ := h
    refine ⟨p, List.mem_filter.mpr ⟨hp, ?_⟩, hchild⟩
    simp [hchild.2]
  | appear pid => exact h.add _

theorem Present.foldl (h : Present child t) (moves : List Move) :
    Present child (moves.foldl Move.apply t) :=
  List.foldlRecOn moves Move.apply h fun _ h m _ ↦ h.apply m

end Present

end ProcessTable

end Conformance
