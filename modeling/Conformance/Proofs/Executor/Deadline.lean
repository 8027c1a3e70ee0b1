import Conformance.CommandLine
import Conformance.Proofs.Executor.Attempt
import Conformance.Proofs.Executor.Polling
import Conformance.Proofs.Success
/-!
# Tests and the end of the clock

Every test gives an outcome, but for what the executor does not get over. The deadline of a test is
the time at which its child was started and the time limit together, and the clock may end before
it; a reader of the child may not start; and the clock may end within the grace that a reader is
given behind the kill. Each is a crash, and the first two come with the child already started, so
that nobody kills or reaps it. `HasDeadline`, `IsWatched` and `InTime` say how far a test gets.

The only other crash that waiting knows is a clock that stands still. On a clock that goes on, the
polls that fit into the time limit are enough to reach the deadline.
-/

namespace Conformance

namespace Instant

variable {t : Instant} {d : Duration}

/-- The clock does not end within a duration from an instant on. -/
def Reaches (t : Instant) (d : Duration) : Prop :=
  (t.nanos + d.toNanos) / nanosPerSec < endOfClock

instance : Decidable (t.Reaches d) := inferInstanceAs (Decidable (_ < _))

/-- The instant a duration later, wherever the clock ends. -/
def later (t : Instant) (d : Duration) : Instant := ⟨t.nanos + d.toNanos⟩

theorem add?_of_reaches (h : t.Reaches d) : t.add? d = some (t.later d) := if_pos h

theorem add?_of_not_reaches (h : ¬ t.Reaches d) : t.add? d = none := if_neg h

theorem reaches_of_add? {deadline : Instant} (h : t.add? d = some deadline) :
    t.Reaches d ∧ deadline = t.later d := by
  by_cases hreach : t.Reaches d
  · rw [add?_of_reaches hreach] at h
    exact ⟨hreach, (Option.some.inj h).symm⟩
  · rw [add?_of_not_reaches hreach] at h
    cases h

/-- No instant reaches a duration that is as long as the clock itself. -/
theorem not_reaches_of_le (h : endOfClock ≤ d.secs.toNat) : ¬ t.Reaches d := by
  have hle : d.secs.toNat * nanosPerSec ≤ t.nanos + d.toNanos := by
    rw [Duration.toNanos]
    omega
  exact Nat.not_lt_of_le (Nat.le_trans h ((Nat.le_div_iff_mul_le (by decide)).mpr hle))

end Instant

namespace Executor

variable {σ : Type} {p : Platform σ} {time : σ → Nat} {child : Child} {x : Executor}

/-! ## The readers -/

/-- The system has a thread for each reader of a child. -/
def HasReaders (p : Platform σ) (child : Child) (s : σ) : Prop :=
  (p.startReader child .stdout s).1 = true ∧
    (p.startReader child .stderr (p.startReader child .stdout s).2).1 = true

/-- Behind the state `s` the clock reaches the end of the grace of each reader. -/
def GrantsGrace (p : Platform σ) (child : Child) (s : σ) : Prop :=
  (p.now s).1.Reaches readerGrace ∧
    (p.now (join p child .stdout s).2).1.Reaches readerGrace

instance (s : σ) : Decidable (HasReaders p child s) := inferInstanceAs (Decidable (_ ∧ _))

instance (s : σ) : Decidable (GrantsGrace p child s) := inferInstanceAs (Decidable (_ ∧ _))

theorem startReaders_eq (s : σ) :
    startReaders p child s =
      match p.startReader child .stdout s with
      | (false, t) => (.error .readerRefused, t)
      | (true, t) =>
        match p.startReader child .stderr t with
        | (false, u) => (.error .readerRefused, u)
        | (true, u) => (.ok (), u) := by
  rw [startReaders, bind_apply]
  rcases p.startReader child .stdout s with ⟨_ | _, t⟩
  · rfl
  dsimp only
  rw [if_pos rfl, bind_apply]
  rcases p.startReader child .stderr t with ⟨_ | _, u⟩ <;> rfl

theorem startReaders_of_hasReaders {s : σ} (h : HasReaders p child s) :
    (startReaders p child s).1 = .ok () := by
  obtain ⟨hout, herr⟩ := h
  rw [startReaders_eq]
  generalize p.startReader child .stdout s = out at hout herr ⊢
  obtain ⟨_, t⟩ := out
  cases hout
  dsimp only at herr ⊢
  generalize p.startReader child .stderr t = err at herr ⊢
  obtain ⟨_, u⟩ := err
  cases herr
  rfl

theorem startReaders_of_not_hasReaders {s : σ} (h : ¬ HasReaders p child s) :
    (startReaders p child s).1 = .error .readerRefused := by
  rw [HasReaders] at h
  rw [startReaders_eq]
  generalize p.startReader child .stdout s = out at h ⊢
  obtain ⟨_ | _, t⟩ := out
  · rfl
  dsimp only at h ⊢
  generalize p.startReader child .stderr t = err at h ⊢
  obtain ⟨_ | _, u⟩ := err
  · rfl
  · exact absurd ⟨rfl, rfl⟩ h

/-- Starting the readers does not turn the clock back. -/
theorem le_time_startReaders (laws : p.ClockLaws time) (child : Child) (s : σ) :
    time s ≤ time (startReaders p child s).2 := by
  have hout := laws.starts child .stdout s
  rw [startReaders_eq]
  generalize p.startReader child .stdout s = out at hout ⊢
  obtain ⟨_ | _, t⟩ := out
  · exact hout
  have herr := laws.starts child .stderr t
  dsimp only at hout ⊢
  generalize p.startReader child .stderr t = err at herr ⊢
  obtain ⟨_ | _, u⟩ := err <;> exact Nat.le_trans hout herr

theorem join_of_reaches {pipe : OutputPipe} {s : σ} (h : (p.now s).1.Reaches readerGrace) :
    join p child pipe s = (.ok (), (joinUntil p child pipe ((p.now s).1.later readerGrace)
      (pollsWithin readerGrace.toNanos) (p.now s).2).2) := by
  rw [join, bind_apply, Instant.add?_of_reaches h]
  -- With the number of checks in sight the loop would be run by computation.
  generalize pollsWithin readerGrace.toNanos = checks
  rfl

theorem join_of_not_reaches {pipe : OutputPipe} {s : σ} (h : ¬ (p.now s).1.Reaches readerGrace) :
    join p child pipe s = (.error .deadlineOverflow, (p.now s).2) := by
  rw [join, bind_apply, Instant.add?_of_not_reaches h]
  rfl

theorem joinReaders_of_grantsGrace {s : σ} (h : GrantsGrace p child s) :
    (joinReaders p child s).1 = .ok () := by
  have hout : (join p child .stdout s).1 = .ok () := by rw [join_of_reaches h.1]
  rw [joinReaders, bind_apply, hout]
  exact congrArg Prod.fst (join_of_reaches h.2)

theorem joinReaders_of_not_grantsGrace {s : σ} (h : ¬ GrantsGrace p child s) :
    (joinReaders p child s).1 = .error .deadlineOverflow := by
  rw [joinReaders, bind_apply]
  by_cases hout : (p.now s).1.Reaches readerGrace
  · have herr := fun hreach ↦ h ⟨hout, hreach⟩
    have hjoin : (join p child .stdout s).1 = .ok () := by rw [join_of_reaches hout]
    rw [hjoin]
    exact congrArg Prod.fst (join_of_not_reaches herr)
  · rw [join_of_not_reaches hout]
    rfl

/-! ## Waiting on a clock that goes on -/

theorem awaitExit_ne_stalled (laws : p.ClockLaws time) {deadline : Instant} {nanos : Nat} {s : σ}
    (h : deadline.nanos ≤ time s + nanos) :
    (awaitExit p child deadline (pollsWithin nanos) s).1 ≠ .error .stalled := by
  obtain ⟨n, hn, found, t, -, hexit⟩ := exists_loops_exit laws child deadline s
  have hleft : deadline.nanos - time s ≤ nanos := by omega
  rw [hexit _ (Nat.le_trans hn (pollsWithin_mono hleft))]
  exact exitAnswer_ne_stalled found

theorem await_ne_stalled (laws : p.ClockLaws time) {deadline : Instant} {nanos : Nat} {s : σ}
    (h : deadline.nanos ≤ time s + nanos) :
    (await p child deadline (pollsWithin nanos) s).1 ≠ .error .stalled := by
  have hexit : (awaitExit p child deadline (pollsWithin nanos) s).1 ≠ .error .stalled :=
    awaitExit_ne_stalled laws h
  -- A pipe that gives no text ends the wait, but never as stalled.
  have htext : ∀ pipe t, (awaitText p child pipe deadline t).1 ≠ .error .stalled := by
    intro pipe t
    rw [awaitText, bind_apply, bind_apply]
    rcases p.receive child pipe ((p.now t).1.remaining deadline) (p.now t).2 with
      ⟨s | e | _ | _, u⟩ <;> nofun
  rw [await, bind_apply]
  generalize awaitExit p child deadline (pollsWithin nanos) s = waited at hexit ⊢
  rcases waited with ⟨e | _ | status, t⟩
  · rintro ⟨⟩
    exact hexit rfl
  · nofun
  dsimp only
  rw [bind_apply]
  have hout := htext .stdout t
  generalize awaitText p child .stdout deadline t = received at hout ⊢
  rcases received with ⟨e | _ | stdout, u⟩
  · rintro ⟨⟩
    exact hout rfl
  · nofun
  dsimp only
  rw [bind_apply]
  have herr := htext .stderr u
  generalize awaitText p child .stderr deadline u = received at herr ⊢
  rcases received with ⟨e | _ | stderr, v⟩
  · rintro ⟨⟩
    exact herr rfl
  · nofun
  · nofun

/-! ## How far a test gets -/

section Reach

variable (x : Executor) (p : Platform σ) (case : TestCase) (s : σ)

/-- The deadline of a test that starts in the state `s` lies on the clock. A test whose target does
not start has no deadline to reach. -/
def HasDeadline : Prop :=
  ∀ child t, p.spawn x.target [case.path.text] s = (.ok child, t) →
    (p.now t).1.Reaches x.timeout

/-- The child of a test that starts in the state `s` is waited for: its deadline lies on the clock,
and both its readers start. -/
def IsWatched : Prop :=
  ∀ child t, p.spawn x.target [case.path.text] s = (.ok child, t) →
    (p.now t).1.Reaches x.timeout ∧ HasReaders p child (p.now t).2

/-- The wait for a child that is in place in the state `t`, and the state behind it. -/
def waitFrom (child : Child) (t : σ) : Except WaitError Completion × σ :=
  await p child ((p.now t).1.later x.timeout) (pollsWithin x.timeout.toNanos)
    (startReaders p child (p.now t).2).2

/-- The state in which the child is reaped. -/
def whenReaped (child : Child) (t : σ) : σ := (terminate p child (x.waitFrom p child t).2).2

/-- A test that starts in the state `s` is over before the clock ends: its child is waited for, and
behind the kill the clock reaches the end of the grace of each reader. -/
def InTime : Prop :=
  ∀ child t, p.spawn x.target [case.path.text] s = (.ok child, t) →
    ((p.now t).1.Reaches x.timeout ∧ HasReaders p child (p.now t).2) ∧
      GrantsGrace p child (x.whenReaped p child t)

end Reach

section Reach

variable {case : TestCase} {s t : σ}

theorem InTime.isWatched (h : x.InTime p case s) : x.IsWatched p case s :=
  fun child t hspawn ↦ (h child t hspawn).1

theorem IsWatched.hasDeadline (h : x.IsWatched p case s) : x.HasDeadline p case s :=
  fun child t hspawn ↦ (h child t hspawn).1

theorem inTime_of_refused {e : IoError}
    (hspawn : p.spawn x.target [case.path.text] s = (.error e, t)) : x.InTime p case s := by
  intro child u h
  cases hspawn.symm.trans h

theorem hasDeadline_iff (hspawn : p.spawn x.target [case.path.text] s = (.ok child, t)) :
    x.HasDeadline p case s ↔ (p.now t).1.Reaches x.timeout := by
  refine ⟨fun h ↦ h child t hspawn, fun h child' t' hspawn' ↦ ?_⟩
  cases hspawn.symm.trans hspawn'
  exact h

theorem isWatched_iff (hspawn : p.spawn x.target [case.path.text] s = (.ok child, t)) :
    x.IsWatched p case s ↔
      (p.now t).1.Reaches x.timeout ∧ HasReaders p child (p.now t).2 := by
  refine ⟨fun h ↦ h child t hspawn, fun h child' t' hspawn' ↦ ?_⟩
  cases hspawn.symm.trans hspawn'
  exact h

theorem inTime_iff (hspawn : p.spawn x.target [case.path.text] s = (.ok child, t)) :
    x.InTime p case s ↔ ((p.now t).1.Reaches x.timeout ∧ HasReaders p child (p.now t).2) ∧
      GrantsGrace p child (x.whenReaped p child t) := by
  refine ⟨fun h ↦ h child t hspawn, fun h child' t' hspawn' ↦ ?_⟩
  cases hspawn.symm.trans hspawn'
  exact h

instance : Decidable (x.InTime p case s) :=
  match hspawn : p.spawn x.target [case.path.text] s with
  | (.error _, _) => .isTrue (inTime_of_refused hspawn)
  | (.ok _, _) => decidable_of_iff' _ (inTime_iff hspawn)

/-- A limit as long as the clock itself leaves no deadline to any test whose target starts. -/
theorem not_hasDeadline_of_le (hstart : (p.spawn x.target [case.path.text] s).1 = .ok child)
    (hlong : Instant.endOfClock ≤ x.timeout.secs.toNat) : ¬ x.HasDeadline p case s :=
  fun h ↦ Instant.not_reaches_of_le hlong (h child _ (Prod.ext hstart rfl))

/-! ## What running a test comes to -/

/-- An outcome that is given once something else went well. -/
theorem answer_apply (first : StateM σ (Except Crash Unit)) (answer : Except Crash Outcome) (s : σ) :
    (do match ← first with
        | .error e => return .error e
        | .ok () => return answer : StateM σ (Except Crash Outcome)) s =
      ((first s).1.bind fun () ↦ answer, (first s).2) := by
  rw [bind_apply]
  rcases first s with ⟨_ | _, t⟩ <;> rfl

theorem run_of_refused {e : IoError}
    (hspawn : p.spawn x.target [case.path.text] s = (.error e, t)) :
    x.run p case s = (.ok (.fail case.id e.message), t) := by
  rw [run, bind_apply, hspawn]
  rfl

/-- Without a deadline the run of a test crashes as soon as the clock was read. -/
theorem run_of_endless (hspawn : p.spawn x.target [case.path.text] s = (.ok child, t))
    (h : ¬ (p.now t).1.Reaches x.timeout) :
    x.run p case s = (.error .deadlineOverflow, (p.now t).2) := by
  rw [run, bind_apply, hspawn]
  dsimp only
  rw [bind_apply, Instant.add?_of_not_reaches h]
  rfl

/-- A reader that does not start leaves the child as it is. -/
theorem run_of_unread (hspawn : p.spawn x.target [case.path.text] s = (.ok child, t))
    (hreach : (p.now t).1.Reaches x.timeout) (h : ¬ HasReaders p child (p.now t).2) :
    x.run p case s = (.error .readerRefused, (startReaders p child (p.now t).2).2) := by
  rw [run, bind_apply, hspawn]
  dsimp only
  rw [bind_apply, Instant.add?_of_reaches hreach]
  dsimp only
  rw [bind_apply, startReaders_of_not_hasReaders h]
  rfl

/-- A child that is watched is waited for, its group is killed and it is reaped, and then its readers
are joined. -/
theorem run_of_watched (hspawn : p.spawn x.target [case.path.text] s = (.ok child, t))
    (hreach : (p.now t).1.Reaches x.timeout) (h : HasReaders p child (p.now t).2) :
    x.run p case s =
      ((joinReaders p child (x.whenReaped p child t)).1.bind
          fun () ↦ x.outcomeOf case.id (x.waitFrom p child t).1,
        (joinReaders p child (x.whenReaped p child t)).2) := by
  rw [run, bind_apply, hspawn]
  dsimp only
  rw [bind_apply, Instant.add?_of_reaches hreach]
  dsimp only
  rw [bind_apply, startReaders_of_hasReaders h]
  dsimp only
  rw [bind_apply, bind_apply, ← waitFrom, ← whenReaped]
  exact answer_apply (joinReaders p child) _ _

/-- On a clock that goes on a wait never stalls. -/
theorem waitFrom_ne_stalled (laws : p.ClockLaws time) (x : Executor) (child : Child) (t : σ) :
    (x.waitFrom p child t).1 ≠ .error .stalled := by
  refine await_ne_stalled laws ?_
  -- The clock has gone on since the deadline was set, so the limit still reaches it.
  have hread := (laws.reads t).2
  have hstart := le_time_startReaders laws child (p.now t).2
  exact Nat.add_le_add_right (Nat.le_trans hread hstart) _

theorem exists_run_of_inTime (laws : p.ClockLaws time) (h : x.InTime p case s) :
    ∃ o, (x.run p case s).1 = .ok o := by
  rcases hspawn : p.spawn x.target [case.path.text] s with ⟨e | child, t⟩
  · rw [run_of_refused hspawn]
    exact ⟨_, rfl⟩
  · obtain ⟨⟨hreach, hreaders⟩, hgrace⟩ := (inTime_iff hspawn).mp h
    have hstalled := waitFrom_ne_stalled laws x child t
    rw [run_of_watched hspawn hreach hreaders, joinReaders_of_grantsGrace hgrace]
    generalize (x.waitFrom p child t).1 = waited at hstalled ⊢
    obtain (e | _) | run | _ := waited
    · exact ⟨_, rfl⟩
    · exact absurd rfl hstalled
    · exact ⟨_, rfl⟩
    · exact ⟨_, rfl⟩

/-- How far a test gets decides what running it comes to. -/
theorem run_cases (laws : p.ClockLaws time) (x : Executor) (case : TestCase) (s : σ) :
    (x.InTime p case s ∧ ∃ o, (x.run p case s).1 = .ok o) ∨
    (¬ x.HasDeadline p case s ∧ (x.run p case s).1 = .error .deadlineOverflow) ∨
    (x.HasDeadline p case s ∧ ¬ x.IsWatched p case s ∧
      (x.run p case s).1 = .error .readerRefused) ∨
    (x.IsWatched p case s ∧ ¬ x.InTime p case s ∧
      (x.run p case s).1 = .error .deadlineOverflow) := by
  by_cases h : x.InTime p case s
  · exact .inl ⟨h, exists_run_of_inTime laws h⟩
  refine .inr ?_
  rcases hspawn : p.spawn x.target [case.path.text] s with ⟨e | child, t⟩
  · exact absurd (inTime_of_refused hspawn) h
  rw [hasDeadline_iff hspawn, isWatched_iff hspawn]
  by_cases hreach : (p.now t).1.Reaches x.timeout
  · by_cases hreaders : HasReaders p child (p.now t).2
    · have hgrace : ¬ GrantsGrace p child (x.whenReaped p child t) :=
        fun hgrace ↦ h ((inTime_iff hspawn).mpr ⟨⟨hreach, hreaders⟩, hgrace⟩)
      refine .inr (.inr ⟨⟨hreach, hreaders⟩, h, ?_⟩)
      rw [run_of_watched hspawn hreach hreaders, joinReaders_of_not_grantsGrace hgrace]
      rfl
    · exact .inr (.inl ⟨hreach, fun h ↦ hreaders h.2, by rw [run_of_unread hspawn hreach hreaders]⟩)
  · exact .inl ⟨hreach, by rw [run_of_endless hspawn hreach]⟩

/-- Only a test that is in time gives an outcome. -/
theorem inTime_of_run (laws : p.ClockLaws time) {o : Outcome} (h : (x.run p case s).1 = .ok o) :
    x.InTime p case s := by
  rcases run_cases laws x case s with ⟨htime, -⟩ | ⟨-, hcrash⟩ | ⟨-, -, hcrash⟩ | ⟨-, -, hcrash⟩
  · exact htime
  all_goals cases h.symm.trans hcrash

theorem run_readerRefused_iff (laws : p.ClockLaws time) :
    (x.run p case s).1 = .error .readerRefused ↔
      x.HasDeadline p case s ∧ ¬ x.IsWatched p case s := by
  rcases run_cases laws x case s with ⟨h, o, ho⟩ | ⟨h, hcrash⟩ | ⟨h, hno, hcrash⟩ | ⟨h, -, hcrash⟩
  · rw [ho]
    exact iff_of_false nofun fun hrest ↦ hrest.2 h.isWatched
  · rw [hcrash]
    exact iff_of_false nofun fun hrest ↦ h hrest.1
  · exact iff_of_true hcrash ⟨h, hno⟩
  · rw [hcrash]
    exact iff_of_false nofun fun hrest ↦ hrest.2 h

/-- A deadline past the end of the clock is that of the test, or that of a reader behind the kill. -/
theorem run_deadlineOverflow_iff (laws : p.ClockLaws time) :
    (x.run p case s).1 = .error .deadlineOverflow ↔
      ¬ x.HasDeadline p case s ∨ x.IsWatched p case s ∧ ¬ x.InTime p case s := by
  rcases run_cases laws x case s with ⟨h, o, ho⟩ | ⟨h, hcrash⟩ | ⟨h, hno, hcrash⟩ | ⟨h, hno, hcrash⟩
  · rw [ho]
    refine iff_of_false nofun ?_
    rintro (hdeadline | ⟨-, hlate⟩)
    · exact hdeadline h.isWatched.hasDeadline
    · exact hlate h
  · exact iff_of_true hcrash (.inl h)
  · rw [hcrash]
    refine iff_of_false nofun ?_
    rintro (hdeadline | ⟨hwatched, -⟩)
    · exact hdeadline h
    · exact hno hwatched
  · exact iff_of_true hcrash (.inr ⟨h, hno⟩)

/-! ## Children that are left behind -/

/-- Every child that a journal starts is killed with its group, and reaped. -/
def CleansUp (deeds : List Deed) : Prop :=
  ∀ program arguments child, .spawn program arguments (.ok child) ∈ deeds →
    .killGroup child ∈ deeds ∧ .reap child ∈ deeds

theorem not_cleansUp_of_no_kill {program : Path} {arguments : List String} {deeds : List Deed}
    (h : .killGroup child ∉ deeds) :
    ¬ CleansUp (.spawn program arguments (.ok child) :: deeds) := by
  intro hclean
  obtain ⟨hkill, -⟩ := hclean _ _ child List.mem_cons_self
  rcases List.mem_cons.mp hkill with heq | hmem
  · cases heq
  · exact h hmem

theorem Begins.spawn_eq {answer : Except IoError Child} {rest : List Deed}
    (h : x.Begins p case s (.spawn x.target [case.path.text] answer :: rest)) :
    (p.spawn x.target [case.path.text] s).1 = answer := by
  obtain ⟨_, hdeeds, -⟩ := h
  exact (Deed.spawn.inj (List.cons.inj hdeeds).1).2.2.symm

theorem Begins.now_eq {start : Instant} {rest : List Deed}
    (h : x.Begins p case s (.spawn x.target [case.path.text] (.ok child) :: .now start :: rest)) :
    (p.now (p.spawn x.target [case.path.text] s).2).1 = start := by
  have hspawn := h.spawn_eq
  obtain ⟨_, hdeeds, hnow⟩ := h
  obtain ⟨_, hrest⟩ := hnow child _ (Prod.ext hspawn rfl)
  rw [hrest] at hdeeds
  exact (Deed.now.inj (List.cons.inj (List.cons.inj hdeeds).2).1).symm

/-- Joining the readers comes to an end, or goes past the end of the clock. -/
theorem JoinsReaders.result {deeds : List Deed} {result : Except Crash Unit}
    (h : JoinsReaders child deeds result) :
    result = .ok () ∨ result = .error .deadlineOverflow := by
  cases h with
  | first hout =>
    cases hout
    exact .inr rfl
  | both hout herr =>
    cases herr with
    | endless start h => exact .inr rfl
    | joined start deadline h hchecks => exact .inl rfl

/-- Once the readers have started, nothing says that they did not. -/
theorem JoinsReaders.bind_ne_readerRefused {deeds : List Deed} {joined : Except Crash Unit}
    (h : JoinsReaders child deeds joined) (test : String)
    (completion : Except WaitError Completion) :
    (joined.bind fun () ↦ x.outcomeOf test completion) ≠ .error .readerRefused := by
  rcases h.result with rfl | rfl
  · rcases completion with (e | _) | run | _ <;> nofun
  · nofun

theorem cleansUp_cleaned {program : Path} {arguments : List String} {start : Instant}
    {waits joins : List Deed} {joined : Except Crash Unit} (hwaits : ∀ d ∈ waits, d.WaitsFor child)
    (hjoins : JoinsReaders child joins joined) :
    CleansUp (.spawn program arguments (.ok child) :: .now start ::
      .startReader child .stdout true :: .startReader child .stderr true ::
      (waits ++ .killGroup child :: .killChild child :: .reap child :: joins)) := by
  rintro program arguments child' hmem
  rcases List.mem_cons.mp hmem with heq | hmem
  · cases heq
    simp
  · -- Waiting and cleaning up start no program.
    simp only [List.mem_cons, List.mem_append, reduceCtorEq, false_or] at hmem
    rcases hmem with hmem | hmem
    · cases hwaits _ hmem
    · cases hjoins.joins _ hmem

/-- The journal of a test cleans up exactly if its child was waited for. -/
theorem Attempt.cleansUp_iff (laws : p.ClockLaws time) {deeds : List Deed}
    (h : Attempt x case deeds (x.run p case s).1) (hbegins : x.Begins p case s deeds) :
    CleansUp deeds ↔ x.IsWatched p case s := by
  have hcases := run_cases laws x case s
  generalize (x.run p case s).1 = result at h hcases
  cases h with
  | refused e =>
    refine iff_of_true ?_ (inTime_of_refused (Prod.ext hbegins.spawn_eq rfl)).isWatched
    intro program arguments child hmem
    cases List.mem_singleton.mp hmem
  | endless child start h =>
    refine iff_of_false (not_cleansUp_of_no_kill (by simp)) fun hwatched ↦ ?_
    have hreach := hwatched.hasDeadline child _ (Prod.ext hbegins.spawn_eq rfl)
    rw [hbegins.now_eq] at hreach
    cases h.symm.trans (Instant.add?_of_reaches hreach)
  | unread child start deadline h hstarts =>
    refine iff_of_false (not_cleansUp_of_no_kill ?_) ?_
    · cases hstarts <;> simp
    · rcases hcases with ⟨-, o, ho⟩ | ⟨-, hcrash⟩ | ⟨-, hwatched, -⟩ | ⟨-, -, hcrash⟩
      · cases ho
      · cases hstarts <;> cases hcrash
      · exact hwatched
      · cases hstarts <;> cases hcrash
  | cleaned child start deadline h waits joins hwaits completion joined hjoins =>
    refine iff_of_true (cleansUp_cleaned hwaits hjoins) ?_
    rcases hcases with ⟨hin, -⟩ | ⟨hno, -⟩ | ⟨-, -, hcrash⟩ | ⟨hwatched, -⟩
    · exact hin.isWatched
    · refine absurd ?_ hno
      rw [hasDeadline_iff (Prod.ext hbegins.spawn_eq rfl), hbegins.now_eq]
      exact (Instant.reaches_of_add? h).1
    · exact absurd hcrash (hjoins.bind_ne_readerRefused case.id completion)
    · exact hwatched

/-- **Tests and the end of the clock.** On a clock that goes on, running a test gives an outcome,
and the outcome names the test, exactly if the test is over before the clock ends; and its child is
killed and reaped exactly if it was waited for. A reader that does not start is one crash, and a
deadline past the end of the clock is the other: that of the test itself, as for every test whose
target starts if the limit is as long as the clock, or that of a reader behind the kill. -/
theorem run_answers_iff (laws : p.ClockLaws time) (x : Executor) (case : TestCase) (s : σ) :
    ∃ deeds, x.run p.recorded case (s, []) = ((x.run p case s).1, (x.run p case s).2, deeds) ∧
      ((∃ o, (x.run p case s).1 = .ok o ∧ o.test = case.id) ↔ x.InTime p case s) ∧
      (CleansUp deeds ↔ x.IsWatched p case s) ∧
      ((x.run p case s).1 = .error .readerRefused ↔
        x.HasDeadline p case s ∧ ¬ x.IsWatched p case s) ∧
      ((x.run p case s).1 = .error .deadlineOverflow ↔
        ¬ x.HasDeadline p case s ∨ x.IsWatched p case s ∧ ¬ x.InTime p case s) ∧
      ∀ child, (p.spawn x.target [case.path.text] s).1 = .ok child →
        Instant.endOfClock ≤ x.timeout.secs.toNat → ¬ x.HasDeadline p case s := by
  obtain ⟨deeds, hrun, hattempt, hbegins⟩ := journals_attempt (p := p) x case s []
  refine ⟨deeds, hrun, ?_, hattempt.cleansUp_iff laws hbegins, ?_⟩
  · refine ⟨fun ⟨o, ho, _⟩ ↦ inTime_of_run laws ho, fun h ↦ ?_⟩
    obtain ⟨o, ho⟩ := exists_run_of_inTime laws h
    rw [ho] at hattempt
    exact ⟨o, ho, hattempt.test_eq⟩
  exact ⟨run_readerRefused_iff laws, run_deadlineOverflow_iff laws,
    fun child hstart hlong ↦ not_hasDeadline_of_le hstart hlong⟩

end Reach

/-! ## A stopwatch -/

/-- A platform that is nothing but a clock, in nanoseconds. Every program starts, and none ends. -/
def stopwatch : Platform Nat where
  now := fun s ↦ (⟨s⟩, s)
  pause nanos := fun s ↦ ((), s + nanos)
  spawn _ _ := pure (.ok ⟨1⟩)
  startReader _ _ := pure true
  poll _ := pure (.ok none)
  receive _ _ _ := pure .nothing
  isDrained _ _ := pure true
  killGroup _ := pure ()
  killChild _ := pure ()
  reap _ := pure ()
  runToEnd _ _ := pure (.error .noEntry)
  isFile _ := pure true
  isPresent _ := pure true
  listing _ := pure (some [])
  readText _ := pure (.error .noEntry)
  writeText _ _ := pure (.ok ())
  print _ := pure ()

/-- A platform keeps the laws of the clock if it is a stopwatch as far as they go. -/
theorem clockLaws_of_stopwatch {p : Platform Nat} (hnow : p.now = stopwatch.now)
    (hstart : p.startReader = stopwatch.startReader) (hpoll : ∀ child s, (p.poll child s).2 = s)
    (hpause : p.pause = stopwatch.pause) : p.ClockLaws id where
  reads s := by
    rw [hnow]
    exact ⟨Nat.le_refl s, Nat.le_refl s⟩
  starts child pipe s := by
    rw [hstart]
    exact Nat.le_refl s
  polls child s := Nat.le_of_eq (hpoll child s).symm
  pauses nanos s := by
    rw [hpause]
    exact Nat.le_refl (s + nanos)

theorem stopwatch_clockLaws : stopwatch.ClockLaws id :=
  clockLaws_of_stopwatch rfl rfl (fun _ _ ↦ rfl) rfl

/-- A test with a limit of one second that never ends. -/
theorem run_answers_endless_test :
    stopwatch.ClockLaws id ∧ ∃ deeds,
      (run ⟨⟨"t"⟩, .ofSecs 1, ""⟩ stopwatch.recorded ⟨"a", ⟨"a"⟩⟩ (0, [])).2.2 = deeds ∧
      CleansUp deeds ∧
      ∃ o, (run ⟨⟨"t"⟩, .ofSecs 1, ""⟩ stopwatch ⟨"a", ⟨"a"⟩⟩ 0).1 = .ok o ∧ o.test = "a" := by
  -- The polls up to the limit are carried out here.
  have htime : InTime ⟨⟨"t"⟩, .ofSecs 1, ""⟩ stopwatch ⟨"a", ⟨"a"⟩⟩ 0 := by decide +kernel
  obtain ⟨deeds, hrun, hanswer, hclean, -, -⟩ :=
    run_answers_iff stopwatch_clockLaws ⟨⟨"t"⟩, .ofSecs 1, ""⟩ ⟨"a", ⟨"a"⟩⟩ 0
  exact ⟨stopwatch_clockLaws, deeds, by rw [hrun], hclean.mpr htime.isWatched, hanswer.mpr htime⟩

/-- The longest limit that a configuration and the command line accept leaves no deadline: the run
of a test crashes, and its child stays. -/
theorem run_longest_timeout_crashes :
    ∃ c args, Config.ofText "timeout_secs: 18446744073709551615\n" = .ok c ∧
      CommandLine.read ["--target", "t", "--timeout", "18446744073709551615"] = .ok args ∧
      args.timeout = some c.timeoutSecs ∧
      (Harness.ofConfig args.target c none).executor.run stopwatch.recorded ⟨"a", ⟨"a"⟩⟩ (0, [])
        = (.error .deadlineOverflow, 0,
            [.spawn ⟨"t"⟩ ["a"] (.ok ⟨1⟩), .now ⟨0⟩]) := by
  refine ⟨{ Config.standard with timeoutSecs := 18446744073709551615 },
    ⟨⟨"t"⟩, ⟨"test262"⟩, none, ⟨"test262-results.json"⟩, none, none,
      some 18446744073709551615, false, false⟩, ?_, ?_, rfl, ?_⟩
  · exact eq_ok_of_toOption (by decide +kernel)
  · exact eq_ok_of_toOption (by decide +kernel)
  · exact run_of_endless (p := stopwatch.recorded) rfl (by decide +kernel)

end Executor

end Conformance
