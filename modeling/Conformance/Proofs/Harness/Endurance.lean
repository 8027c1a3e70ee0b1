import Conformance.Proofs.Executor.Decision
import Conformance.Proofs.Harness.Lifecycle
import Conformance.Proofs.Harness.Pipeline
/-!
# A run outlasts its tests

A test may hang in three places: its child never ends, a pipe stays open behind the child, or a
reader is held by a process that has left the group. Each has its own wait, and each wait is over
after a time that does not depend on what it waits for. The polls of a child fit into the time up to
the deadline, the wait for a pipe asks for what is left of this time, and the checks of a reader fit
into its grace.

So every test that is over before the clock ends gives an outcome, and the test behind it has its
turn. That a platform comes back from everything else it is asked for, the reap of a killed child among
it, is taken for granted.
-/

namespace Conformance

namespace Executor

variable {σ : Type} {p : Platform σ} {time : σ → Nat}

/-! ## The wait for a pipe -/

/-- A wait from the state `u` to the state `t`, for which the time up to the deadline was asked for
at the reading `now`. -/
structure WaitsUntil (time : σ → Nat) (deadline now : Instant) (u t : σ) : Prop where
  /-- What is asked for reaches the deadline, and not beyond. -/
  reaches : now.nanos + now.remaining deadline = max now.nanos deadline.nanos
  goes_on : time u ≤ time t
  ends : time t ≤ time u + now.remaining deadline
  /-- Behind the deadline there is no wait. -/
  late (h : deadline.nanos ≤ now.nanos) : now.remaining deadline = 0 ∧ time t = time u

theorem waitsUntil_receive (hreceives : p.ReceivesInTime time) (child : Child) (pipe : OutputPipe)
    (deadline now : Instant) (u : σ) :
    WaitsUntil time deadline now u (p.receive child pipe (now.remaining deadline) u).2 := by
  obtain ⟨hleast, hmost⟩ := hreceives child pipe (now.remaining deadline) u
  refine ⟨?_, hleast, hmost, fun hlate ↦ ?_⟩
  · rw [Instant.remaining]
    omega
  · have hnone : now.remaining deadline = 0 := Nat.sub_eq_zero_of_le hlate
    exact ⟨hnone, Nat.le_antisymm (by omega) hleast⟩

/-- Asking for the text of a pipe takes the wait for its reader, and nothing more. -/
theorem snd_awaitText (child : Child) (pipe : OutputPipe) (deadline : Instant) (s : σ) :
    (awaitText p child pipe deadline s).2 = (consult p child deadline pipe s).2 := by
  rw [awaitText_eq]
  rcases consult p child deadline pipe s with ⟨_ | _ | _ | _, _⟩ <;> rfl

/-! ## The join of a reader -/

/-- The checks of a reader fit into its grace, which begins with a reading of the clock. -/
theorem exists_loops_grace (laws : p.ClockLaws time) (hchecks : p.ChecksGoOn time) (child : Child)
    (pipe : OutputPipe) (grace : Nat) (s : σ) :
    ∃ n ≤ pollsWithin grace, ∃ found t,
      Loops p (drainCheck p child pipe) ⟨(p.now s).1.nanos + grace⟩ n (p.now s).2 found t ∧
      ∀ checks, n ≤ checks →
        joinUntil p child pipe ⟨(p.now s).1.nanos + grace⟩ checks (p.now s).2 = ((), t) := by
  obtain ⟨n, hn, found, t, hends⟩ :=
    exists_loops_drain laws hchecks child pipe ⟨(p.now s).1.nanos + grace⟩ (p.now s).2
  have hreads := (laws.reads s).2
  have hleft : (p.now s).1.nanos + grace - time (p.now s).2 ≤ grace := by omega
  exact ⟨n, Nat.le_trans hn (pollsWithin_mono hleft), found, t, hends⟩

end Executor

/-! ## The turn of every test -/

namespace Harness

open Executor

variable {σ : Type} {p : Platform σ} {time : σ → Nat} {observe : RunEvent → StateM σ Unit}

/-- A run over tests whose deadlines lie on the clock comes to its last test, unless more outcomes
were reported than a counter counts. -/
theorem exists_inTurn (laws : p.ClockLaws time) (h : Harness) (cases : List TestCase) (s : σ)
    (htime : h.executor.AllInTime p observe cases.length 1 s cases) :
    ∃ tests t, h.executor.InTurn p observe cases.length 1 s tests t ∧
      ((∃ tally, h.runCases p observe cases s = (.ok tally, t) ∧ tests.map (·.1) = cases) ∨
        tests.map (·.1) <+: cases ∧ UInt64.size ≤ tests.length) := by
  have hjournals : Journals s (h.runCases p observe cases)
      (h.runCases p.recorded (observed .tell observe) cases) _ :=
    journals_runFrom cases.length 1 (.empty h.sampleLimit) cases s
  obtain ⟨deeds, -, tests, htesting⟩ := hjournals []
  rcases hrun : h.runCases p observe cases s with ⟨e | tally, t⟩
  · rw [hrun] at htesting
    obtain ⟨rest, hcases, hturn, hcount⟩ := htime.interrupted laws htesting
    have hlong := Tally.size_le_length_of_ofOutcomes hcount
    rw [List.length_map] at hlong
    exact ⟨tests, t, hturn, .inr ⟨⟨rest, hcases.symm⟩, hlong⟩⟩
  · rw [hrun] at htesting
    obtain ⟨hcases, hturn, -, -⟩ := htesting.complete
    exact ⟨tests, t, hturn, .inl ⟨tally, rfl, hcases⟩⟩

/-- **Waits end.** On a clock that goes on, whatever a child and its readers do: the polls of the
child are at most one for each interval that begins in the time that is left, and one more; a wait
for a pipe asks for the time up to the deadline, none at all behind it, and takes no longer if it
keeps to what it is asked for; and the checks of a reader are at most one for each interval that
begins in its grace, and one more, if looking at it does not turn the clock back. A bound on the
loops that leaves room for these changes nothing, and a reader is joined whenever the end of its
grace lies on the clock. So the tests of a run, hanging or not, have their turns up to the last one,
if they are over before the clock ends and a counter can count them. -/
theorem waits_end (laws : p.ClockLaws time) :
    (∀ child deadline s, ∃ n ≤ pollsWithin (deadline.nanos - time s), ∃ found t,
      Loops p (exitCheck p child) deadline n s found t ∧
      ∀ polls, n ≤ polls → awaitExit p child deadline polls s = (exitAnswer found, t)) ∧
    (p.ReceivesInTime time → ∀ child pipe deadline s, ∃ received t,
      p.receive child pipe ((p.now s).1.remaining deadline) (p.now s).2 = (received, t) ∧
      (awaitText p child pipe deadline s).2 = t ∧
      WaitsUntil time deadline (p.now s).1 (p.now s).2 t) ∧
    (p.ChecksGoOn time → ∀ child pipe grace s, ∃ n ≤ pollsWithin grace, ∃ found t,
      Loops p (drainCheck p child pipe) ⟨(p.now s).1.nanos + grace⟩ n (p.now s).2 found t ∧
      (∀ checks, n ≤ checks →
        joinUntil p child pipe ⟨(p.now s).1.nanos + grace⟩ checks (p.now s).2 = ((), t)) ∧
      (grace = readerGrace.toNanos → join p child pipe s =
        if (p.now s).1.Reaches readerGrace then (.ok (), t)
        else (.error .deadlineOverflow, (p.now s).2))) ∧
    ∀ (h : Harness) (observe : RunEvent → StateM σ Unit) cases s,
      h.executor.AllInTime p observe cases.length 1 s cases →
      ∃ tests t, h.executor.InTurn p observe cases.length 1 s tests t ∧
        ((∃ tally, h.runCases p observe cases s = (.ok tally, t) ∧ tests.map (·.1) = cases) ∨
          tests.map (·.1) <+: cases ∧ UInt64.size ≤ tests.length) := by
  refine ⟨exists_loops_exit laws, fun hreceives child pipe deadline s ↦ ?_,
    fun hchecks child pipe grace s ↦ ?_, fun h observe cases s ↦ exists_inTurn laws h cases s⟩
  · rw [snd_awaitText]
    exact ⟨_, _, rfl, rfl, waitsUntil_receive hreceives child pipe deadline _ _⟩
  · obtain ⟨n, hn, found, t, hloops, hends⟩ := exists_loops_grace laws hchecks child pipe grace s
    refine ⟨n, hn, found, t, hloops, hends, ?_⟩
    rintro rfl
    split
    · rename_i hreach
      rw [join_of_reaches hreach, Instant.later, hends _ hn]
    · rename_i hreach
      exact join_of_not_reaches hreach

/-! ## A standstill -/

/-- A stopwatch on which the child of the test `a` never ends. Every other child has ended at once,
but its pipes stay open. -/
def standstill : Platform Nat :=
  { stopwatch with
    spawn := fun _ arguments ↦ pure (.ok ⟨if arguments = ["a"] then 1 else 2⟩)
    poll := fun child ↦ pure (.ok (if child.pid = 1 then none else some 0))
    receive := fun _ _ nanos s ↦ (.nothing, s + nanos)
    isDrained := fun _ _ ↦ pure false }

theorem standstill_clockLaws : standstill.ClockLaws id :=
  clockLaws_of_stopwatch rfl rfl (fun _ _ ↦ rfl) rfl

theorem standstill_checksGoOn : standstill.ChecksGoOn id := fun _ _ s ↦ Nat.le_refl s

theorem standstill_receivesInTime : standstill.ReceivesInTime id :=
  fun _ _ nanos s ↦ ⟨Nat.le_add_right s nanos, Nat.le_refl (s + nanos)⟩

/-- Two tests that hang, each in its way, with a limit of 20 milliseconds. Three polls are enough
for the one, and behind the limit the other does not wait. Both come to an end and are counted. -/
theorem waits_end_standstill :
    let h : Harness := ⟨⟨⟨"t"⟩, .ofMillis 20, ""⟩, ⟨"test", "js", ""⟩, none, 2⟩
    let cases : List TestCase := [⟨"a", ⟨"a"⟩⟩, ⟨"b", ⟨"b"⟩⟩]
    standstill.ClockLaws id ∧ standstill.ReceivesInTime id ∧ standstill.ChecksGoOn id ∧
      h.executor.AllInTime standstill (fun _ ↦ pure ()) 2 1 0 cases ∧
      (∃ n ≤ 3, ∃ found t,
        Loops standstill (exitCheck standstill ⟨1⟩) ⟨20000000⟩ n 0 found t) ∧
      (awaitText standstill ⟨2⟩ .stdout ⟨20000000⟩ 30000000).2 = 30000000 ∧
      (∃ n ≤ 51, ∃ found t,
        Loops standstill (drainCheck standstill ⟨2⟩ .stdout) ⟨500000000⟩ n 0 found t) ∧
      ∃ tests tally t, h.runCases standstill (fun _ ↦ pure ()) cases 0 = (.ok tally, t) ∧
        h.executor.InTurn standstill (fun _ ↦ pure ()) 2 1 0 tests t ∧
        tests.map (·.1) = cases ∧ tally.failed = 2 := by
  intro h cases
  have htime : h.executor.AllInTime standstill (fun _ ↦ pure ()) cases.length 1 0 cases := by
    have ha : h.executor.run standstill ⟨"a", ⟨"a"⟩⟩ 0 =
        (.ok (.timeout "a" (.ofMillis 20)), 1020000000) :=
      Prod.ext (eq_ok_of_toOption (by decide +kernel)) (by decide +kernel)
    refine ⟨by decide +kernel, fun o t ht ↦ ?_⟩
    cases ha.symm.trans ht
    exact ⟨by decide +kernel, fun _ _ _ ↦ trivial⟩
  obtain ⟨hexit, htext, hjoin, hrun⟩ := waits_end standstill_clockLaws
  refine ⟨standstill_clockLaws, standstill_receivesInTime, standstill_checksGoOn, htime, ?_, ?_, ?_,
    ?_⟩
  · obtain ⟨n, hn, found, t, hloops, -⟩ := hexit ⟨1⟩ ⟨20000000⟩ 0
    exact ⟨n, Nat.le_trans hn (by decide +kernel), found, t, hloops⟩
  · obtain ⟨_, _, -, rfl, hwait⟩ :=
      htext standstill_receivesInTime ⟨2⟩ .stdout ⟨20000000⟩ 30000000
    exact (hwait.late (by decide)).2
  · obtain ⟨n, hn, found, t, hloops, -⟩ := hjoin standstill_checksGoOn ⟨2⟩ .stdout 500000000 0
    exact ⟨n, Nat.le_trans hn (by decide +kernel), found, t, hloops⟩
  · obtain ⟨tests, t, hturn, ⟨tally, htally, htests⟩ | ⟨hinitial, hlong⟩⟩ := hrun h _ cases 0 htime
    · have hfailed : (h.runCases standstill (fun _ ↦ pure ()) cases 0).1.toOption.map (·.failed)
          = some 2 := by decide +kernel
      rw [htally] at hfailed
      exact ⟨tests, tally, t, htally, hturn, htests, Option.some.inj hfailed⟩
    · have hlength : (tests.map (·.1)).length ≤ 2 := hinitial.length_le
      rw [List.length_map] at hlength
      exact absurd (Nat.le_trans hlong hlength) (by decide)

end Harness

end Conformance
