import Conformance.Executor
import Conformance.Proofs.Clock
/-!
# Loops of polls

The executor waits in two loops, one for the end of a child and one for the end of a reader. Both
check, look at the clock if the check found nothing, and pause before the next check unless the
deadline is reached. `Loops` is this loop for any check, and without a bound: nothing in it counts.

## Why the loops end

The measure is the number of polls that fit into the time up to the deadline, by the clock of the
platform. The only path that repeats goes through a reading before the deadline and a pause of a
whole interval, and there the measure gets less. Behind the deadline no time is left, and one check
fits into none.

The loops of the executor carry a bound on their checks. A bound that is not less than the checks of
the loop changes nothing, so what a bounded loop gives is read off the loop without a bound.
-/

namespace Conformance

namespace Executor

variable {σ α β : Type} {p : Platform σ} {check : StateM σ (Option α)} {deadline : Instant}

/-- What a sequence of operations gives is what the second gives in the state behind the first. -/
theorem bind_apply (x : StateM σ α) (f : α → StateM σ β) (s : σ) :
    (x >>= f) s = f (x s).1 (x s).2 := rfl

/-! ## The time that is left -/

theorem pollsWithin_mono {nanos nanos' : Nat} (h : nanos' ≤ nanos) :
    pollsWithin nanos' ≤ pollsWithin nanos :=
  Nat.succ_le_succ (Nat.div_le_div_right (Nat.add_le_add_right h _))

/-- Once an interval has passed, fewer polls fit into the time that is left. -/
theorem pollsWithin_lt {nanos nanos' : Nat} (hpos : 0 < nanos) (h : nanos' ≤ nanos - pollInterval) :
    pollsWithin nanos' < pollsWithin nanos := by
  have hinterval : pollInterval = 10000000 := rfl
  rw [pollsWithin, pollsWithin, hinterval]
  omega

/-! ## The loop without a bound -/

/-- So many checks, from the state `s` to the state behind the loop, with what the last check found.
It has found nothing if the deadline was reached. -/
inductive Loops (p : Platform σ) (check : StateM σ (Option α)) (deadline : Instant) :
    Nat → σ → Option α → σ → Prop
  | settled {s t : σ} {a : α} (h : check s = (some a, t)) : Loops p check deadline 1 s (some a) t
  | late {s t : σ} (h : check s = (none, t)) (hlate : deadline.nanos ≤ (p.now t).1.nanos) :
    Loops p check deadline 1 s none (p.now t).2
  | early {s t u : σ} {n : Nat} {found : Option α} (h : check s = (none, t))
    (hearly : (p.now t).1.nanos < deadline.nanos)
    (hrest : Loops p check deadline n (p.pause pollInterval (p.now t).2).2 found u) :
    Loops p check deadline (n + 1) s found u

/-- **The loop ends.** It makes no more checks than fit into the time that is left, whatever the
checks find. -/
theorem exists_loops {time : σ → Nat} (laws : p.ClockLaws time)
    (hcheck : ∀ s, time s ≤ time (check s).2) (deadline : Instant) (s : σ) :
    ∃ n ≤ pollsWithin (deadline.nanos - time s), ∃ found t,
      Loops p check deadline n s found t := by
  induction hleft : pollsWithin (deadline.nanos - time s) using Nat.strongRecOn generalizing s with
  | ind left ih =>
    subst hleft
    have hpos : 1 ≤ pollsWithin (deadline.nanos - time s) := Nat.succ_pos _
    have ht := hcheck s
    rcases hfound : check s with ⟨_ | a, t⟩
    · rw [hfound] at ht
      have hnow := laws.reads t
      by_cases hlate : deadline.nanos ≤ (p.now t).1.nanos
      · exact ⟨1, hpos, none, _, .late hfound hlate⟩
      · have hpause := laws.pauses pollInterval (p.now t).2
        dsimp only at ht
        -- The reading comes before the deadline, and so did the state before the check.
        have hless : pollsWithin (deadline.nanos - time (p.pause pollInterval (p.now t).2).2)
            < pollsWithin (deadline.nanos - time s) := pollsWithin_lt (by omega) (by omega)
        obtain ⟨n, hn, found, u, hrest⟩ := ih _ hless _ rfl
        have hearly : (p.now t).1.nanos < deadline.nanos := Nat.lt_of_not_le hlate
        exact ⟨n + 1, Nat.lt_of_le_of_lt hn hless, found, u, .early hfound hearly hrest⟩
    · exact ⟨1, hpos, some a, t, .settled hfound⟩

/-! ## Bounded loops -/

/-- A loop of this check with a bound on the checks, which answers what `answer` makes of the last
one. -/
def IsBounded (p : Platform σ) (check : StateM σ (Option α)) (deadline : Instant)
    (answer : Option α → β) (loop : Nat → StateM σ β) : Prop :=
  ∀ checks s, loop (checks + 1) s =
    match check s with
    | (some a, t) => (answer (some a), t)
    | (none, t) =>
      if deadline.nanos ≤ (p.now t).1.nanos then (answer none, (p.now t).2)
      else loop checks (p.pause pollInterval (p.now t).2).2

/-- A bound that leaves room for all checks changes nothing. -/
theorem IsBounded.eq_of_loops {answer : Option α → β} {loop : Nat → StateM σ β}
    (hloop : IsBounded p check deadline answer loop) {n checks : Nat} {s t : σ} {found : Option α}
    (h : Loops p check deadline n s found t) (hn : n ≤ checks) :
    loop checks s = (answer found, t) := by
  induction h generalizing checks with
  | settled h =>
    obtain ⟨checks, rfl⟩ := Nat.exists_eq_add_of_le' hn
    rw [hloop, h]
  | late h hlate =>
    obtain ⟨checks, rfl⟩ := Nat.exists_eq_add_of_le' hn
    rw [hloop, h]
    exact if_pos hlate
  | @early s t u n found h hearly hrest ih =>
    obtain ⟨checks, rfl⟩ := Nat.exists_eq_add_of_le' (Nat.le_of_add_left_le hn)
    rw [hloop, h]
    dsimp only
    rw [if_neg (Nat.not_le_of_lt hearly)]
    exact ih (Nat.le_of_succ_le_succ hn)

/-- The loop without a bound ends, and leaves its answer to any bound that has room for it. -/
theorem IsBounded.exists_loops {time : σ → Nat} (laws : p.ClockLaws time)
    (hcheck : ∀ s, time s ≤ time (check s).2) {answer : Option α → β} {loop : Nat → StateM σ β}
    (hloop : IsBounded p check deadline answer loop) (s : σ) :
    ∃ n ≤ pollsWithin (deadline.nanos - time s), ∃ found t,
      Loops p check deadline n s found t ∧
      ∀ checks, n ≤ checks → loop checks s = (answer found, t) := by
  obtain ⟨n, hn, found, t, hloops⟩ := Executor.exists_loops laws hcheck deadline s
  exact ⟨n, hn, found, t, hloops, fun _ ↦ hloop.eq_of_loops hloops⟩

/-! ## Waiting for a child -/

section Exit

variable {child : Child}

/-- A poll as a check. It finds something once the child has ended, or the poll fails. -/
def exitCheck (p : Platform σ) (child : Child) : StateM σ (Option (Except IoError UInt32)) := do
  match ← p.poll child with
  | .error e => return some (.error e)
  | .ok status => return status.map .ok

/-- What the wait for a child answers to the last poll. -/
def exitAnswer : Option (Except IoError UInt32) → Except WaitError (Option UInt32)
  | none => .ok none
  | some (.error e) => .error (.io e)
  | some (.ok status) => .ok (some status)

theorem awaitExit_succ (deadline : Instant) (polls : Nat) (s : σ) :
    awaitExit p child deadline (polls + 1) s =
      match p.poll child s with
      | (.error e, t) => (.error (.io e), t)
      | (.ok (some status), t) => (.ok (some status), t)
      | (.ok none, t) =>
        if deadline.nanos ≤ (p.now t).1.nanos then (.ok none, (p.now t).2)
        else awaitExit p child deadline polls (p.pause pollInterval (p.now t).2).2 := by
  rw [awaitExit, bind_apply]
  rcases p.poll child s with ⟨e | _ | status, t⟩
  · rfl
  · dsimp only
    rw [bind_apply]
    split <;> rfl
  · rfl

theorem snd_exitCheck (s : σ) : (exitCheck p child s).2 = (p.poll child s).2 := by
  rw [exitCheck, bind_apply]
  rcases p.poll child s with ⟨_ | _, _⟩ <;> rfl

theorem isBounded_awaitExit (p : Platform σ) (child : Child) (deadline : Instant) :
    IsBounded p (exitCheck p child) deadline exitAnswer (awaitExit p child deadline) := by
  intro polls s
  rw [awaitExit_succ, exitCheck, bind_apply]
  rcases p.poll child s with ⟨_ | _ | _, _⟩ <;> rfl

theorem exitAnswer_ne_stalled (found : Option (Except IoError UInt32)) :
    exitAnswer found ≠ .error .stalled := by
  rcases found with _ | _ | _ <;> nofun

theorem exists_loops_exit {time : σ → Nat} (laws : p.ClockLaws time) (child : Child)
    (deadline : Instant) (s : σ) :
    ∃ n ≤ pollsWithin (deadline.nanos - time s), ∃ found t,
      Loops p (exitCheck p child) deadline n s found t ∧
      ∀ polls, n ≤ polls → awaitExit p child deadline polls s = (exitAnswer found, t) := by
  refine (isBounded_awaitExit p child deadline).exists_loops laws (fun s ↦ ?_) s
  rw [snd_exitCheck]
  exact laws.polls child s

end Exit

/-! ## Joining a reader -/

section Join

variable {child : Child} {pipe : OutputPipe}

/-- A look at a reader as a check. It finds something once the reader has ended. -/
def drainCheck (p : Platform σ) (child : Child) (pipe : OutputPipe) : StateM σ (Option Unit) := do
  return if ← p.isDrained child pipe then some () else none

theorem joinUntil_succ (deadline : Instant) (checks : Nat) (s : σ) :
    joinUntil p child pipe deadline (checks + 1) s =
      match p.isDrained child pipe s with
      | (true, t) => ((), t)
      | (false, t) =>
        if deadline.nanos ≤ (p.now t).1.nanos then ((), (p.now t).2)
        else joinUntil p child pipe deadline checks (p.pause pollInterval (p.now t).2).2 := by
  rw [joinUntil, bind_apply]
  rcases p.isDrained child pipe s with ⟨_ | _, t⟩
  · dsimp only
    rw [if_neg Bool.false_ne_true, bind_apply]
    split <;> rfl
  · rfl

theorem isBounded_joinUntil (p : Platform σ) (child : Child) (pipe : OutputPipe)
    (deadline : Instant) :
    IsBounded p (drainCheck p child pipe) deadline (fun _ ↦ ()) (joinUntil p child pipe deadline) := by
  intro checks s
  rw [joinUntil_succ, drainCheck, bind_apply]
  rcases p.isDrained child pipe s with ⟨_ | _, _⟩ <;> rfl

theorem exists_loops_drain {time : σ → Nat} (laws : p.ClockLaws time) (hchecks : p.ChecksGoOn time)
    (child : Child) (pipe : OutputPipe) (deadline : Instant) (s : σ) :
    ∃ n ≤ pollsWithin (deadline.nanos - time s), ∃ found t,
      Loops p (drainCheck p child pipe) deadline n s found t ∧
      ∀ checks, n ≤ checks → joinUntil p child pipe deadline checks s = ((), t) :=
  (isBounded_joinUntil p child pipe deadline).exists_loops laws (hchecks child pipe) s

end Join

end Executor

end Conformance
