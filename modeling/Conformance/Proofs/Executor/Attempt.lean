import Conformance.Proofs.Journal
/-!
# The journal of a single test

Whatever is observed of a test, its journal has one of four forms: the target did not start; the
deadline lies past the end of the clock; a reader did not start; or the child was waited for and then
cleaned up, its group killed before it was reaped and both its readers given their time, as far as
the clock reaches. `Attempt` lists them, each with what the test comes to then.
-/

namespace Conformance

namespace Deed

/-- What the wait for a child consists of. -/
inductive WaitsFor (child : Child) : Deed → Prop
  | now (t : Instant) : WaitsFor child (.now t)
  | pause (nanos : Nat) : WaitsFor child (.pause nanos)
  | poll (answer : Except IoError (Option UInt32)) : WaitsFor child (.poll child answer)
  | receive (pipe : OutputPipe) (nanos : Nat) (answer : Received) :
    WaitsFor child (.receive child pipe nanos answer)

/-- What the wait for the readers of a child consists of. -/
inductive Joins (child : Child) : Deed → Prop
  | now (t : Instant) : Joins child (.now t)
  | pause (nanos : Nat) : Joins child (.pause nanos)
  | isDrained (pipe : OutputPipe) (answer : Bool) : Joins child (.isDrained child pipe answer)

end Deed

namespace Executor

variable {σ : Type} {p : Platform σ} {child : Child}

/-! ## Starting the readers -/

/-- The start of both readers, that of the standard output first. -/
inductive StartsReaders (child : Child) : List Deed → Except Crash Unit → Prop
  | none : StartsReaders child [.startReader child .stdout false] (.error .readerRefused)
  | one : StartsReaders child [.startReader child .stdout true, .startReader child .stderr false]
    (.error .readerRefused)
  | both : StartsReaders child [.startReader child .stdout true, .startReader child .stderr true]
    (.ok ())

/-! ## Joining the readers -/

/-- Checks of a reader, at most so many, until it has ended or the deadline is reached. -/
inductive Checks (child : Child) (pipe : OutputPipe) (deadline : Instant) : Nat → List Deed → Prop
  | spent : Checks child pipe deadline 0 []
  | drained (checks : Nat) : Checks child pipe deadline (checks + 1) [.isDrained child pipe true]
  | late (checks : Nat) (now : Instant) (h : deadline.nanos ≤ now.nanos) :
    Checks child pipe deadline (checks + 1) [.isDrained child pipe false, .now now]
  | early {checks : Nat} {deeds : List Deed} (now : Instant) (h : now.nanos < deadline.nanos)
    (hrest : Checks child pipe deadline checks deeds) :
    Checks child pipe deadline (checks + 1)
      (.isDrained child pipe false :: .now now :: .pause pollInterval :: deeds)

/-- The join of a reader, and what it comes to. Its grace begins with a look at the clock, and the
reader is checked as often as fits into it, unless the clock ends before. -/
inductive JoinsReader (child : Child) (pipe : OutputPipe) : List Deed → Except Crash Unit → Prop
  | endless (start : Instant) (h : start.add? readerGrace = none) :
    JoinsReader child pipe [.now start] (.error .deadlineOverflow)
  | joined (start deadline : Instant) (h : start.add? readerGrace = some deadline)
    {deeds : List Deed} (hchecks : Checks child pipe deadline (pollsWithin readerGrace.toNanos) deeds) :
    JoinsReader child pipe (.now start :: deeds) (.ok ())

/-- The joins of both readers, that of the standard output first, and what they come to. -/
inductive JoinsReaders (child : Child) : List Deed → Except Crash Unit → Prop
  | first {out : List Deed} {e : Crash} (hout : JoinsReader child .stdout out (.error e)) :
    JoinsReaders child out (.error e)
  | both {out err : List Deed} {result : Except Crash Unit}
    (hout : JoinsReader child .stdout out (.ok ())) (herr : JoinsReader child .stderr err result) :
    JoinsReaders child (out ++ err) result

theorem Checks.joins {pipe : OutputPipe} {deadline : Instant} {checks : Nat} {deeds : List Deed}
    (h : Checks child pipe deadline checks deeds) : ∀ d ∈ deeds, d.Joins child := by
  induction h with
  | spent => exact List.forall_mem_nil _
  | drained checks => exact List.forall_mem_singleton.mpr (.isDrained pipe true)
  | late checks now h =>
    exact List.forall_mem_cons.mpr ⟨.isDrained pipe false, List.forall_mem_singleton.mpr (.now now)⟩
  | early now h hrest ih =>
    simp only [List.forall_mem_cons]
    exact ⟨.isDrained pipe false, .now now, .pause pollInterval, ih⟩

theorem JoinsReader.joins {pipe : OutputPipe} {deeds : List Deed} {result : Except Crash Unit}
    (h : JoinsReader child pipe deeds result) : ∀ d ∈ deeds, d.Joins child := by
  cases h with
  | endless start h => exact List.forall_mem_singleton.mpr (.now start)
  | joined start deadline h hchecks =>
    exact List.forall_mem_cons.mpr ⟨.now start, hchecks.joins⟩

theorem JoinsReaders.joins {deeds : List Deed} {result : Except Crash Unit}
    (h : JoinsReaders child deeds result) : ∀ d ∈ deeds, d.Joins child := by
  cases h with
  | first hout => exact hout.joins
  | both hout herr => exact List.forall_mem_append.mpr ⟨hout.joins, herr.joins⟩

-- The rules for journals look for `noting` in what the operations of a recorded platform unfold to.
attribute [local irreducible] noting

/-! ## Watching -/

theorem journals_startReaders (s : σ) :
    Journals s (startReaders p child) (startReaders p.recorded child) fun deeds result _ ↦
      StartsReaders child deeds result := by
  refine .note_bind ?_
  rintro (_ | _) t _
  · exact .pure .none
  refine .note_bind ?_
  rintro (_ | _) u _
  · exact .pure .one
  · exact .pure .both

theorem consists_awaitExit (deadline : Instant) (polls : Nat) :
    Consists (Deed.WaitsFor child) (awaitExit p child deadline polls)
      (awaitExit p.recorded child deadline polls) := by
  induction polls with
  | zero => exact .pure _
  | succ polls ih =>
    refine .bind (.note .poll) ?_
    rintro (e | status | _)
    · exact .pure _
    · refine .bind (.note .now) ?_
      intro now
      split
      · exact .pure _
      · exact .bind (.note fun _ ↦ Deed.WaitsFor.pause _) fun _ ↦ ih
    · exact .pure _

theorem consists_awaitText (pipe : OutputPipe) (deadline : Instant) :
    Consists (Deed.WaitsFor child) (awaitText p child pipe deadline)
      (awaitText p.recorded child pipe deadline) := by
  refine .bind (.note .now) ?_
  intro now
  refine .bind (.note (.receive pipe _)) ?_
  rintro (s | e | _ | _) <;> exact .pure _

theorem consists_await (deadline : Instant) (polls : Nat) :
    Consists (Deed.WaitsFor child) (await p child deadline polls)
      (await p.recorded child deadline polls) := by
  refine .bind (consists_awaitExit deadline polls) ?_
  rintro (e | _ | status)
  · exact .pure _
  · exact .pure _
  refine .bind (consists_awaitText .stdout deadline) ?_
  rintro (e | _ | stdout)
  · exact .pure _
  · exact .pure _
  refine .bind (consists_awaitText .stderr deadline) ?_
  rintro (e | _ | stderr) <;> exact .pure _

/-! ## Cleaning up -/

theorem journals_joinUntil (pipe : OutputPipe) (deadline : Instant) (checks : Nat) (s : σ) :
    Journals s (joinUntil p child pipe deadline checks)
      (joinUntil p.recorded child pipe deadline checks) fun deeds _ _ ↦
        Checks child pipe deadline checks deeds := by
  induction checks generalizing s with
  | zero => exact .pure .spent
  | succ checks ih =>
    refine .note_bind ?_
    rintro (_ | _) t _
    · refine .note_bind ?_
      intro now u _
      split
      · rename_i h
        exact .pure (.late checks now h)
      · rename_i h
        refine .note_bind fun _ v _ ↦ (ih v).mono ?_
        intro deeds _ _ hrest
        exact .early now (Nat.lt_of_not_le h) hrest
    · exact .pure (.drained checks)

theorem journals_terminate (s : σ) :
    Journals s (terminate p child) (terminate p.recorded child) fun deeds _ _ ↦
      deeds = [.killGroup child, .killChild child, .reap child] :=
  .note_bind fun _ _ _ ↦ .note_bind fun _ _ _ ↦ .note rfl

theorem journals_join (pipe : OutputPipe) (s : σ) :
    Journals s (join p child pipe) (join p.recorded child pipe) fun deeds result _ ↦
      JoinsReader child pipe deeds result := by
  refine .note_bind ?_
  intro start t _
  split
  · rename_i h
    exact .pure (.endless start h)
  · rename_i deadline h
    refine (journals_joinUntil pipe deadline _ t).bind ?_
    intro deeds _ u hchecks
    refine .pure ?_
    rw [List.append_nil]
    exact .joined start deadline h hchecks

theorem journals_joinReaders (s : σ) :
    Journals s (joinReaders p child) (joinReaders p.recorded child) fun deeds result _ ↦
      JoinsReaders child deeds result := by
  refine (journals_join .stdout s).bind ?_
  rintro out (e | _) t hout
  · refine .pure ?_
    rw [List.append_nil]
    exact .first hout
  · exact (journals_join .stderr t).mono fun err result _ herr ↦ .both hout herr

/-! ## Running -/

/-- The journals that running a test can have, each with what came of the test. -/
inductive Attempt (x : Executor) (case : TestCase) : List Deed → Except Crash Outcome → Prop
  /-- The target did not start. -/
  | refused (e : IoError) :
    Attempt x case [.spawn x.target [case.path.text] (.error e)] (.ok (.fail case.id e.message))
  /-- There is no deadline. The child is left as it is. -/
  | endless (child : Child) (start : Instant) (h : start.add? x.timeout = none) :
    Attempt x case [.spawn x.target [case.path.text] (.ok child), .now start]
      (.error .deadlineOverflow)
  /-- A reader did not start. The child is left as it is, too. -/
  | unread (child : Child) (start deadline : Instant) (h : start.add? x.timeout = some deadline)
    {starts : List Deed} {e : Crash} (hstarts : StartsReaders child starts (.error e)) :
    Attempt x case (.spawn x.target [case.path.text] (.ok child) :: .now start :: starts) (.error e)
  /-- The child was waited for and cleaned up, and its readers were joined as far as the clock
  reaches. -/
  | cleaned (child : Child) (start deadline : Instant) (h : start.add? x.timeout = some deadline)
    (waits joins : List Deed) (hwaits : ∀ d ∈ waits, d.WaitsFor child)
    (completion : Except WaitError Completion) (joined : Except Crash Unit)
    (hjoins : JoinsReaders child joins joined) :
    Attempt x case
      (.spawn x.target [case.path.text] (.ok child) :: .now start ::
        .startReader child .stdout true :: .startReader child .stderr true ::
        (waits ++ .killGroup child :: .killChild child :: .reap child :: joins))
      (joined.bind fun () ↦ x.outcomeOf case.id completion)

/-- The journal of a test begins with what the platform answers in the state `s`: whether the target
starts, and if it does, what the clock shows then. -/
def Begins (x : Executor) (p : Platform σ) (case : TestCase) (s : σ) (deeds : List Deed) : Prop :=
  ∃ rest, deeds = .spawn x.target [case.path.text] (p.spawn x.target [case.path.text] s).1 :: rest ∧
    ∀ child t, p.spawn x.target [case.path.text] s = (.ok child, t) →
      ∃ rest', rest = .now (p.now t).1 :: rest'

theorem journals_attempt (x : Executor) (case : TestCase) (s : σ) :
    Journals s (x.run p case) (x.run p.recorded case) fun deeds result _ ↦
      Attempt x case deeds result ∧ x.Begins p case s deeds := by
  refine .note_bind ?_
  rintro (e | child) t hspawn
  · refine .pure ⟨.refused e, [], by rw [hspawn], fun child u h ↦ ?_⟩
    cases hspawn.symm.trans h
  refine .note_bind ?_
  intro start t' hnow
  have hbegins (deeds : List Deed) :
      x.Begins p case s (.spawn x.target [case.path.text] (.ok child) :: .now start :: deeds) := by
    refine ⟨.now start :: deeds, by rw [hspawn], fun child' u h ↦ ⟨deeds, ?_⟩⟩
    cases hspawn.symm.trans h
    rw [hnow]
  split
  · rename_i h
    exact .pure ⟨.endless child start h, hbegins _⟩
  rename_i deadline h
  refine (journals_startReaders t').bind ?_
  rintro starts (e | _) u hstarts
  · refine .pure ⟨?_, hbegins _⟩
    rw [List.append_nil]
    exact .unread child start deadline h hstarts
  cases hstarts
  refine (consists_await deadline _ _).bind ?_
  intro waits completion v hwaits
  refine (journals_terminate v).bind ?_
  rintro _ _ w rfl
  refine (journals_joinReaders w).bind ?_
  rintro joins joined z hjoins
  have hcleaned : Attempt x case _ _ :=
    .cleaned child start deadline h waits joins hwaits completion joined hjoins
  -- What the joins come to is passed on, whichever it is.
  cases joined
  all_goals
    refine .pure ⟨?_, hbegins _⟩
    rw [List.append_nil]
    exact hcleaned

theorem journals_run (x : Executor) (case : TestCase) (s : σ) :
    Journals s (x.run p case) (x.run p.recorded case) fun deeds result _ ↦
      Attempt x case deeds result :=
  (journals_attempt x case s).mono fun _ _ _ h ↦ h.1

/-! ## What came of a test -/

/-- The outcome of a test names the test, however the wait for it ended. -/
theorem test_outcomeOf {x : Executor} {test : String} {completion : Except WaitError Completion}
    {o : Outcome} (h : x.outcomeOf test completion = .ok o) : o.test = test := by
  rcases completion with (e | _) | run | _
  · cases h; rfl
  · cases h
  · cases h; rfl
  · cases h; rfl

theorem Attempt.test_eq {x : Executor} {case : TestCase} {deeds : List Deed} {o : Outcome}
    (h : Attempt x case deeds (.ok o)) : o.test = case.id := by
  generalize hr : Except.ok o = result at h
  cases h with
  | refused e => cases hr; rfl
  | endless child start h => cases hr
  | unread child start deadline h hstarts => cases hr
  | cleaned child start deadline h waits joins hwaits completion joined hjoins =>
    cases joined with
    | error e => cases hr
    | ok => exact test_outcomeOf hr.symm

end Executor

end Conformance
