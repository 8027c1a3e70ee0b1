import Conformance.Proofs.Executor.Deadline
import Conformance.Proofs.ProcessTable
/-!
# What the kill of a group hits

Once a test is over, the executor kills the group of its child, and it does so whether or not a poll
has found the child ended before. Such a poll reaps the child. From then on its number is only taken
as long as the group has other members, and between the poll and the kill lie the waits for both
pipes, which may last until the deadline.

The executor is followed here on a *scheduled* platform. Its state is a process table, and a schedule
says what happens in the table before each request is carried out, how much time that takes, and what
the rest of the world answers. A schedule is any list of such steps, so a statement about all of them
is one about every interleaving.

## The result

As long as the child is not reaped, or its group has a member that belongs to the test, the kill hits
processes of the test and no other. Once neither is so, everything it hits is a stranger. There is
nothing that keeps the executor from killing then: whatever test it runs, some schedule makes it hit
a stranger.
-/

namespace Conformance

namespace Executor

open ProcessTable

/-! ## A platform that follows a schedule -/

/-- What happens before a request, and what the rest of the world says to it. -/
structure Step where
  /-- What the processes do. -/
  moves : List Move
  /-- The time in nanoseconds that it takes. -/
  elapsed : Nat
  /-- The number for a child, if one is started. -/
  pid : Nat
  /-- Why the system refuses the request, if it does. -/
  refusal : Option IoError
  /-- Whether there is a thread for a reader, if one is started. -/
  hasThread : Bool
  /-- What comes from a reader, if one is waited for. -/
  received : Received
  /-- Whether a reader has ended, if that is asked. -/
  isDrained : Bool
  deriving DecidableEq, Repr

/-- Nothing happens, a reader starts or has delivered nothing, and readers have ended. -/
def Step.idle : Step := ⟨[], 0, 0, none, true, .nothing, true⟩

/-- A kill that was sent to a group. -/
structure Kill where
  group : Nat
  /-- The processes at that time. -/
  table : List Process
  /-- The child that led the group was reaped before. -/
  isReaped : Bool
  deriving DecidableEq, Repr

/-- The processes that a kill is delivered to. -/
def Kill.hit (k : Kill) : List Process := k.table.filter (·.group = k.group)

/-- The kill comes while the group still belongs to the test: the child that leads it is not reaped,
or a process of the test is a member. -/
def Kill.InPlace (k : Kill) : Prop :=
  k.isReaped = false ∨ ∃ p ∈ k.table, p.group = k.group ∧ p.IsOwn

/-- The state of the scheduled platform. -/
structure World where
  /-- What the clock shows, in nanoseconds. -/
  clock : Nat
  table : List Process
  /-- The raw wait status of the child, once it is reaped. -/
  reaped : Option UInt32
  /-- The kills that were sent to groups so far. -/
  kills : List Kill
  /-- What is still to happen. Behind its end nothing does. -/
  schedule : List Step
  deriving DecidableEq, Repr

namespace World

/-- The step before the next request. -/
def step (w : World) : Step := w.schedule.headD .idle

/-- The world behind that step. -/
def next (w : World) : World :=
  { w with
    clock := w.clock + w.step.elapsed
    table := w.step.moves.foldl Move.apply w.table
    schedule := w.schedule.tail }

/-- Starts a child with a free number that leads its own group. To its test all other processes are
strangers. -/
def start (w : World) (step : Step) : Except IoError Child × World :=
  match step.refusal with
  | some e => (.error e, w)
  | none =>
    if IsTaken w.table step.pid then
      (.error (.other "Resource temporarily unavailable (os error 11)"), w)
    else
      (.ok ⟨step.pid⟩,
        { w with
          table := w.table.map (fun p ↦ { p with origin := .stranger })
            ++ [⟨step.pid, step.pid, .child, none⟩]
          reaped := none })

/-- Reaps the child if it has ended. -/
def collect (child : Child) (w : World) : World :=
  match (w.table.find? fun p ↦ p.Is child).bind Process.status with
  | some status => { w with table := w.table.filter fun p ↦ ¬ p.Is child, reaped := some status }
  | none => w

/-- Asks for the status of the child. A status that was seen before is given again. -/
def poll (child : Child) (w : World) (step : Step) : Except IoError (Option UInt32) × World :=
  match w.reaped, step.refusal with
  | some status, _ => (.ok (some status), w)
  | none, some e => (.error e, w)
  | none, none => (.ok (w.collect child).reaped, w.collect child)

/-- The raw wait status of a process that was killed. -/
def killed : UInt32 := 9

/-- The kill that the group of a child would be sent now. -/
def killOf (child : Child) (w : World) : Kill := ⟨child.pid, w.table, w.reaped.isSome⟩

/-- Kills the group of a child. -/
def killGroup (child : Child) (w : World) : World :=
  { w with
    table := finish w.table (·.group = child.pid) killed
    kills := w.kills ++ [w.killOf child] }

/-- Kills a child that is not reaped. -/
def killChild (child : Child) (w : World) : World :=
  if w.reaped = none then { w with table := finish w.table (·.pid = child.pid) killed } else w

end World

/-- Lets the next step happen before a request is carried out. -/
def request {α : Type} (f : World → Step → α × World) : StateM World α := fun w ↦ f w.next w.step

/-- The platform that follows the schedule of its world. It has no files. -/
def scheduled : Platform World where
  now := request fun w _ ↦ (⟨w.clock⟩, w)
  pause nanos := request fun w _ ↦ ((), { w with clock := w.clock + nanos })
  spawn _ _ := request World.start
  startReader _ _ := request fun w step ↦ (step.hasThread, w)
  poll child := request (World.poll child)
  receive _ _ _ := request fun w step ↦ (step.received, w)
  isDrained _ _ := request fun w step ↦ (step.isDrained, w)
  killGroup child := request fun w _ ↦ ((), w.killGroup child)
  killChild child := request fun w _ ↦ ((), w.killChild child)
  reap child := request fun w _ ↦ ((), w.collect child)
  runToEnd _ _ := pure (.error .noEntry)
  isFile _ := pure false
  isPresent _ := pure false
  listing _ := pure none
  readText _ := pure (.error .noEntry)
  writeText _ _ := pure (.error .noEntry)
  print _ := pure ()

/-! ## The invariant -/

/-- The number of the child is not held by both sides, and the child holds it until it is reaped. -/
structure Guards (child : Child) (w : World) : Prop where
  unmixed : Unmixed child.pid w.table
  present : w.reaped = none → Present child w.table

section Invariant

variable {child : Child} {w : World}

theorem Guards.next (h : Guards child w) : Guards child w.next where
  unmixed := h.unmixed.foldl w.step.moves
  present hnone := (h.present hnone).foldl w.step.moves

theorem Guards.collect (h : Guards child w) : Guards child (w.collect child) := by
  rw [World.collect]
  split
  · exact ⟨h.unmixed.filter _, nofun⟩
  · exact h

@[simp] theorem kills_collect : (w.collect child).kills = w.kills := by
  rw [World.collect]
  split <;> rfl

theorem Guards.killGroup (h : Guards child w) : Guards child (w.killGroup child) where
  unmixed := h.unmixed.finish _ World.killed
  present hnone := (h.present hnone).finish _ World.killed

theorem Guards.killChild (h : Guards child w) : Guards child (w.killChild child) := by
  rw [World.killChild]
  split
  · exact ⟨h.unmixed.finish _ World.killed, fun hnone ↦ (h.present hnone).finish _ World.killed⟩
  · exact h

@[simp] theorem kills_killChild : (w.killChild child).kills = w.kills := by
  rw [World.killChild]
  split <;> rfl

@[simp] theorem kills_start (step : Step) : (w.start step).2.kills = w.kills := by
  rw [World.start]
  split
  · rfl
  · split <;> rfl

/-- A child that was started is guarded: its number was free, so it is the only one to hold it. -/
theorem Guards.of_spawn {v : World} {program : Path} {arguments : List String}
    (h : scheduled.spawn program arguments w = (.ok child, v)) : Guards child v := by
  change w.next.start w.step = _ at h
  rw [World.start] at h
  split at h
  · cases h
  · split at h
    · cases h
    · rename_i hfree
      cases h
      refine ⟨unmixed_append_of_not_isTaken ?_, fun _ ↦ ?_⟩
      · rintro ⟨q, hq, hn⟩
        obtain ⟨p, hp, rfl⟩ := List.mem_map.mp hq
        exact hfree ⟨p, hp, hn⟩
      · exact ⟨_, List.mem_append_right _ (List.mem_singleton_self _), rfl, rfl⟩

/-! ## Requests that keep it -/

/-- Whatever happens meanwhile, the child stays guarded, and no group is killed. -/
def Keeps {α : Type} (child : Child) (x : StateM World α) : Prop :=
  ∀ w, Guards child w → Guards child (x w).2 ∧ (x w).2.kills = w.kills

namespace Keeps

variable {α β : Type} {x : StateM World α}

theorem pure (a : α) : Keeps child (pure a : StateM World α) := fun _ h ↦ ⟨h, rfl⟩

theorem bind {f : α → StateM World β} (hx : Keeps child x) (hf : ∀ a, Keeps child (f a)) :
    Keeps child (x >>= f) := by
  intro w h
  obtain ⟨hguards, hkills⟩ := hx w h
  obtain ⟨hguards', hkills'⟩ := hf (x w).1 (x w).2 hguards
  exact ⟨hguards', hkills'.trans hkills⟩

theorem request {f : World → Step → α × World}
    (hf : ∀ w step, Guards child w → Guards child (f w step).2 ∧ (f w step).2.kills = w.kills) :
    Keeps child (request f) := fun w h ↦ hf w.next w.step h.next

theorem now : Keeps child scheduled.now := request fun _ _ h ↦ ⟨h, rfl⟩

theorem pause (nanos : Nat) : Keeps child (scheduled.pause nanos) :=
  request fun _ _ h ↦ ⟨⟨h.unmixed, h.present⟩, rfl⟩

theorem startReader (pipe : OutputPipe) : Keeps child (scheduled.startReader child pipe) :=
  request fun _ _ h ↦ ⟨h, rfl⟩

theorem receive (pipe : OutputPipe) (nanos : Nat) :
    Keeps child (scheduled.receive child pipe nanos) := request fun _ _ h ↦ ⟨h, rfl⟩

theorem isDrained (pipe : OutputPipe) : Keeps child (scheduled.isDrained child pipe) :=
  request fun _ _ h ↦ ⟨h, rfl⟩

theorem poll : Keeps child (scheduled.poll child) := by
  refine request fun w step h ↦ ?_
  rw [World.poll]
  split
  · exact ⟨h, rfl⟩
  · exact ⟨h, rfl⟩
  · exact ⟨h.collect, kills_collect⟩

theorem killChild : Keeps child (scheduled.killChild child) :=
  request fun _ _ h ↦ ⟨h.killChild, kills_killChild⟩

theorem reap : Keeps child (scheduled.reap child) :=
  request fun _ _ h ↦ ⟨h.collect, kills_collect⟩

/-! ### Waiting and joining -/

theorem startReaders : Keeps child (startReaders scheduled child) := by
  refine (startReader .stdout).bind fun hasThread ↦ ?_
  split
  · refine (startReader .stderr).bind fun hasThread ↦ ?_
    split <;> exact pure _
  · exact pure _

theorem awaitExit (deadline : Instant) (polls : Nat) :
    Keeps child (awaitExit scheduled child deadline polls) := by
  induction polls with
  | zero => exact pure _
  | succ polls ih =>
    refine poll.bind ?_
    rintro (e | _ | status)
    · exact pure _
    · refine now.bind fun t ↦ ?_
      split
      · exact pure _
      · exact (pause _).bind fun _ ↦ ih
    · exact pure _

theorem awaitText (pipe : OutputPipe) (deadline : Instant) :
    Keeps child (awaitText scheduled child pipe deadline) := by
  refine now.bind fun t ↦ (receive pipe _).bind ?_
  rintro (s | e | _ | _) <;> exact pure _

theorem await (deadline : Instant) (polls : Nat) :
    Keeps child (await scheduled child deadline polls) := by
  refine (awaitExit deadline polls).bind ?_
  rintro (e | _ | status)
  · exact pure _
  · exact pure _
  refine (awaitText .stdout deadline).bind ?_
  rintro (e | _ | stdout)
  · exact pure _
  · exact pure _
  refine (awaitText .stderr deadline).bind ?_
  rintro (e | _ | stderr) <;> exact pure _

theorem joinUntil (pipe : OutputPipe) (deadline : Instant) (checks : Nat) :
    Keeps child (joinUntil scheduled child pipe deadline checks) := by
  induction checks with
  | zero => exact pure _
  | succ checks ih =>
    refine (isDrained pipe).bind fun isDrained ↦ ?_
    split
    · exact pure _
    · refine now.bind fun t ↦ ?_
      split
      · exact pure _
      · exact (pause _).bind fun _ ↦ ih

theorem join (pipe : OutputPipe) : Keeps child (join scheduled child pipe) := by
  refine now.bind fun start ↦ ?_
  split
  · exact pure _
  · exact (joinUntil pipe _ _).bind fun _ ↦ pure _

theorem joinReaders : Keeps child (joinReaders scheduled child) := by
  refine (join .stdout).bind ?_
  rintro (e | _)
  · exact pure _
  · exact join .stderr

end Keeps

/-! ## The kill -/

/-- Ending a child sends a single kill, as soon as the step before it has happened. -/
theorem Guards.kills_terminate (h : Guards child w) :
    Guards child (terminate scheduled child w).2 ∧
      (terminate scheduled child w).2.kills = w.kills ++ [w.next.killOf child] := by
  -- What comes behind the kill of the group leaves the list of kills as it is.
  have hrest : Keeps child (do scheduled.killChild child; scheduled.reap child) :=
    Keeps.killChild.bind fun _ ↦ Keeps.reap
  exact hrest _ h.next.killGroup

/-- A guarded child is on the side of everybody who holds its number. -/
theorem Guards.hit_isOwn_iff (h : Guards child w) :
    (∀ p ∈ (w.killOf child).hit, p.IsOwn) ↔
      (w.killOf child).InPlace ∨ (w.killOf child).hit = [] := by
  have hmem : ∀ p, p ∈ (w.killOf child).hit ↔ p ∈ w.table ∧ p.group = child.pid := by
    intro p
    rw [Kill.hit, List.mem_filter, decide_eq_true_iff]
    rfl
  constructor
  · intro hown
    by_cases hnil : (w.killOf child).hit = []
    · exact .inr hnil
    · obtain ⟨p, hp⟩ := List.exists_mem_of_ne_nil _ hnil
      obtain ⟨htable, hgroup⟩ := (hmem p).mp hp
      exact .inl (.inr ⟨p, htable, hgroup, hown p hp⟩)
  -- Whoever is in the group holds the number of the child, beside the child or a member of the test.
  · rintro ((hwaiting | ⟨q, hq, hgroup, hown⟩) | hnil) p hp
    · obtain ⟨htable, hgroup⟩ := (hmem p).mp hp
      have hnone : w.reaped = none :=
        Option.isNone_iff_eq_none.mp (Option.isSome_eq_false_iff.mp hwaiting)
      obtain ⟨q, hq, hchild⟩ := h.present hnone
      exact (h.unmixed q hq p htable hchild.holds (.inr hgroup)).mp hchild.isOwn
    · obtain ⟨htable, hgroup'⟩ := (hmem p).mp hp
      exact (h.unmixed q hq p htable (.inr hgroup) (.inr hgroup')).mp hown
    · rw [hnil] at hp
      exact absurd hp List.not_mem_nil

end Invariant

/-! ## Runs -/

section Run

variable {x : Executor} {case : TestCase} {child : Child} {w v : World}

/-- A child that is watched is waited for, and however the wait ends, its group is killed. -/
theorem Guards.kills_run (h : Guards child v)
    (hspawn : scheduled.spawn x.target [case.path.text] w = (.ok child, v))
    (hreach : (scheduled.now v).1.Reaches x.timeout)
    (hreaders : HasReaders scheduled child (scheduled.now v).2) :
    Guards child (x.waitFrom scheduled child v).2 ∧
      (x.run scheduled case w).2.kills =
        v.kills ++ [(x.waitFrom scheduled child v).2.next.killOf child] := by
  obtain ⟨hguards, hnow⟩ := Keeps.now v h
  obtain ⟨hguards, hstart⟩ := Keeps.startReaders _ hguards
  obtain ⟨hwaited, hwait⟩ := Keeps.await ((scheduled.now v).1.later x.timeout)
    (pollsWithin x.timeout.toNanos) _ hguards
  rw [← waitFrom] at hwaited hwait
  obtain ⟨hguards, hkill⟩ := hwaited.kills_terminate
  rw [← whenReaped] at hguards hkill
  obtain ⟨-, hjoin⟩ := Keeps.joinReaders _ hguards
  -- The state is taken from the pair as it stands, since comparing states would run the joins.
  obtain ⟨-, hend⟩ := Prod.mk.inj ((Prod.eta _).trans (run_of_watched hspawn hreach hreaders))
  exact ⟨hwaited, by rw [hend, hjoin, hkill, hwait, hstart, hnow]⟩

/-- A run sends one kill if its child was started and is watched, and none otherwise. -/
theorem exists_kills_run (x : Executor) (case : TestCase) (w : World) :
    ∃ sent : Option Kill, (x.run scheduled case w).2.kills = w.kills ++ sent.toList ∧
      (sent.isSome ↔ (∃ child, (scheduled.spawn x.target [case.path.text] w).1 = .ok child) ∧
        x.IsWatched scheduled case w) ∧
      ∀ k ∈ sent, ∃ child u, (scheduled.spawn x.target [case.path.text] w).1 = .ok child ∧
        Guards child u ∧ k = u.killOf child := by
  have hkills : (scheduled.spawn x.target [case.path.text] w).2.kills = w.kills :=
    kills_start (w := w.next) w.step
  -- Where no kill is sent, no statement about the kill is left to prove.
  have hnone (hkeep : (x.run scheduled case w).2.kills = w.kills)
      (hno : ¬ ((∃ child, (scheduled.spawn x.target [case.path.text] w).1 = .ok child) ∧
        x.IsWatched scheduled case w)) :
      ∃ sent : Option Kill, (x.run scheduled case w).2.kills = w.kills ++ sent.toList ∧
        (sent.isSome ↔ (∃ child, (scheduled.spawn x.target [case.path.text] w).1 = .ok child) ∧
          x.IsWatched scheduled case w) ∧
        ∀ k ∈ sent, ∃ child u, (scheduled.spawn x.target [case.path.text] w).1 = .ok child ∧
          Guards child u ∧ k = u.killOf child :=
    ⟨none, hkeep.trans (List.append_nil _).symm, iff_of_false Bool.false_ne_true hno,
      fun k hk ↦ absurd hk (Option.not_mem_none k)⟩
  rcases hspawn : scheduled.spawn x.target [case.path.text] w with ⟨e | child, v⟩
  · rw [hspawn] at hkills hnone
    refine hnone ?_ ?_
    · rw [run_of_refused hspawn]
      exact hkills
    · rintro ⟨⟨child, ⟨⟩⟩, -⟩
  have h := Guards.of_spawn hspawn
  rw [hspawn] at hkills hnone
  rw [isWatched_iff hspawn] at hnone ⊢
  dsimp only at hkills hnone ⊢
  obtain ⟨hguards, hnow⟩ := Keeps.now v h
  by_cases hreach : (scheduled.now v).1.Reaches x.timeout
  · by_cases hreaders : HasReaders scheduled child (scheduled.now v).2
    · obtain ⟨hwaited, hrun⟩ := h.kills_run hspawn hreach hreaders
      refine ⟨some ((x.waitFrom scheduled child v).2.next.killOf child), ?_,
        iff_of_true rfl ⟨⟨child, rfl⟩, hreach, hreaders⟩, ?_⟩
      · rw [hrun, hkills]
        rfl
      · rintro k ⟨⟩
        exact ⟨child, _, rfl, hwaited.next, rfl⟩
    · refine hnone ?_ fun hwatched ↦ hreaders hwatched.2.2
      rw [run_of_unread hspawn hreach hreaders]
      exact (Keeps.startReaders _ hguards).2.trans (hnow.trans hkills)
  · refine hnone ?_ fun hwatched ↦ hreach hwatched.2.1
    rw [run_of_endless hspawn hreach]
    exact hnow.trans hkills

/-! ## Too late -/

/-- The child ends at once. The first poll reaps it, and both pipes are read to their ends. Then an
unrelated process comes by its number. -/
def recycling : World where
  clock := 0
  table := []
  reaped := none
  kills := []
  schedule :=
    [{ Step.idle with pid := 2 }, .idle, .idle, .idle, { Step.idle with moves := [.exit 2 0] },
      .idle, { Step.idle with received := .text "" }, .idle, { Step.idle with received := .text "" },
      { Step.idle with moves := [.appear 2] }]

/-- Nothing in a run keeps the kill from coming too late. -/
theorem kills_run_recycling (x : Executor) (case : TestCase)
    (h : x.timeout.secs.toNat < Instant.endOfClock) :
    (x.run scheduled case recycling).2.kills = [⟨2, [⟨2, 2, .stranger, none⟩], true⟩] := by
  have hreach : (⟨0⟩ : Instant).Reaches x.timeout := by
    have hnanos := x.timeout.nanos_lt
    rw [Instant.Reaches, Duration.toNanos]
    dsimp only [nanosPerSec] at hnanos ⊢
    omega
  have hspawn : scheduled.spawn x.target [case.path.text] recycling = (.ok ⟨2⟩, { recycling with
      table := [⟨2, 2, .child, none⟩], schedule := recycling.schedule.tail }) := rfl
  have hawait (deadline : Instant) (polls : Nat) :
      (await scheduled ⟨2⟩ deadline (polls + 1) { recycling with
        table := [⟨2, 2, .child, none⟩], schedule := recycling.schedule.drop 4 }).2 =
      { recycling with reaped := some 0, schedule := recycling.schedule.drop 9 } := rfl
  -- The limit is any number, so the first poll must be split off before the wait can be computed.
  have hpolls : pollsWithin x.timeout.toNanos = _ + 1 := rfl
  have hwaited : (x.waitFrom scheduled ⟨2⟩ { recycling with
        table := [⟨2, 2, .child, none⟩], schedule := recycling.schedule.tail }).2 =
      { recycling with reaped := some 0, schedule := recycling.schedule.drop 9 } := by
    rw [waitFrom, hpolls]
    exact hawait _ _
  obtain ⟨-, hkills⟩ := (Guards.of_spawn hspawn).kills_run hspawn hreach ⟨rfl, rfl⟩
  rw [hwaited] at hkills
  exact hkills

/-- **What the kill of a group hits.** Whatever happens between the requests of a run, it kills one
group if its child is started and waited for, and otherwise none. It is the group of the child, and
the kill hits no stranger if and only if it is in place or finds nobody. Such a kill can be out of
place: if any deadline lies on the clock at all, there is a run whose kill hits a stranger. -/
theorem kill_hits_own_iff (x : Executor) (case : TestCase) :
    (∀ w, ∃ sent : Option Kill, (x.run scheduled case w).2.kills = w.kills ++ sent.toList ∧
      (sent.isSome ↔ (∃ child, (scheduled.spawn x.target [case.path.text] w).1 = .ok child) ∧
        x.IsWatched scheduled case w) ∧
      ∀ k ∈ sent, (scheduled.spawn x.target [case.path.text] w).1 = .ok ⟨k.group⟩ ∧
        ((∀ p ∈ k.hit, p.IsOwn) ↔ k.InPlace ∨ k.hit = [])) ∧
    ((∃ w k, (x.run scheduled case w).2.kills = w.kills ++ [k] ∧ ¬ ∀ p ∈ k.hit, p.IsOwn) ↔
      x.timeout.secs.toNat < Instant.endOfClock) := by
  constructor
  · intro w
    obtain ⟨sent, hkills, hsent, hall⟩ := exists_kills_run x case w
    refine ⟨sent, hkills, hsent, fun k hk ↦ ?_⟩
    obtain ⟨child, u, hspawn, hguards, rfl⟩ := hall k hk
    exact ⟨hspawn, hguards.hit_isOwn_iff⟩
  · constructor
    · rintro ⟨w, k, hkills, -⟩
      obtain ⟨sent, hkills', hsent, -⟩ := exists_kills_run x case w
      have hlist : sent.toList = [k] := List.append_cancel_left (hkills'.symm.trans hkills)
      rw [Option.toList_eq_singleton_iff.mp hlist] at hsent
      obtain ⟨⟨child, hspawn⟩, hwatched⟩ := hsent.mp rfl
      exact Nat.lt_of_not_le fun hlong ↦
        not_hasDeadline_of_le hspawn hlong hwatched.hasDeadline
    · intro h
      exact ⟨recycling, _, kills_run_recycling x case h, by decide⟩

end Run

/-- The child forks, ends and is reaped, and what it forked keeps the pipes open until the limit. As
long as the group is not empty, nobody else comes by its number. -/
def lingering : World where
  clock := 0
  table := []
  reaped := none
  kills := []
  schedule :=
    [{ Step.idle with pid := 2 }, .idle, .idle, .idle,
      { Step.idle with moves := [.fork 2 3, .exit 2 0] }, .idle,
      { Step.idle with elapsed := 2 * nanosPerSec }, { Step.idle with moves := [.appear 2] }]

/-- A kill behind the reaping of the child that hits what the child left behind. -/
theorem kill_hits_own_lingering :
    (run ⟨⟨"t"⟩, .ofSecs 1, ""⟩ scheduled ⟨"a", ⟨"a"⟩⟩ lingering).2.kills =
        [⟨2, [⟨3, 2, .descendant, none⟩], true⟩] ∧
      ∀ p ∈ Kill.hit ⟨2, [⟨3, 2, .descendant, none⟩], true⟩, p.IsOwn := by
  have hrun : (run ⟨⟨"t"⟩, .ofSecs 1, ""⟩ scheduled ⟨"a", ⟨"a"⟩⟩ lingering).2.kills =
      [⟨2, [⟨3, 2, .descendant, none⟩], true⟩] := by decide +kernel
  refine ⟨hrun, ?_⟩
  obtain ⟨sent, hkills, -, hall⟩ :=
    (kill_hits_own_iff ⟨⟨"t"⟩, .ofSecs 1, ""⟩ ⟨"a", ⟨"a"⟩⟩).1 lingering
  rw [hrun] at hkills
  have hsent := Option.toList_eq_singleton_iff.mp hkills.symm
  exact (hall _ hsent).2.mpr (.inl (.inr ⟨_, List.mem_singleton_self _, rfl, by decide⟩))

/-- A kill behind the reaping of the child that hits a stranger which came by its number. -/
theorem kill_hits_stranger :
    ∃ k, (run ⟨⟨"t"⟩, .ofSecs 1, ""⟩ scheduled ⟨"a", ⟨"a"⟩⟩ recycling).2.kills = [k] ∧
      k.isReaped = true ∧ ¬ k.InPlace ∧ ∃ p ∈ k.hit, p.origin = .stranger ∧ p.status = none := by
  refine ⟨_, kills_run_recycling _ _ (by decide), rfl, ?_, ?_⟩
  · rw [Kill.InPlace]
    decide
  · exact ⟨_, List.mem_singleton_self _, rfl, rfl⟩

end Executor

end Conformance
