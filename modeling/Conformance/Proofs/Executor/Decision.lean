import Conformance.Proofs.Executor.Deadline
import Conformance.Proofs.Readers
/-!
# What a wait comes to

A wait polls a child until it has ended, and then asks for the texts of its pipes, that of the
standard output first. What is observed on the way decides what it comes to: the answer of every
poll, the reading of the clock behind a poll that found the child running, and what the readers
deliver and when.

The answers and readings are those of the polls that would follow each other if the child ran on for
ever. The first poll that does not find it running, or that is followed by a late reading, ends the
polling, so `RunsOn` says how far it goes.
-/

namespace Conformance

/-- The error that the answer of a reader stands for. -/
def Received.failure? : Received → Option IoError
  | .failed e => some e
  | .vanished => some (.other "output reader exited without a result")
  | .text _ | .nothing => none

namespace Executor

variable {σ : Type} {p : Platform σ} {child : Child} {deadline : Instant}

/-! ## The polls of a child that runs on -/

/-- The state in which the `n`-th poll is made, counted from zero, if the child runs on so long. -/
def beforePoll (p : Platform σ) (child : Child) : Nat → σ → σ
  | 0, s => s
  | n + 1, s => beforePoll p child n (p.pause pollInterval (p.now (p.poll child s).2).2).2

/-- The state behind the `n`-th poll. -/
def behindPoll (p : Platform σ) (child : Child) (n : Nat) (s : σ) : σ :=
  (p.poll child (beforePoll p child n s)).2

/-- The answer of the `n`-th poll. -/
def answerAt (p : Platform σ) (child : Child) (n : Nat) (s : σ) :
    Except IoError (Option UInt32) :=
  (p.poll child (beforePoll p child n s)).1

/-- What the clock shows behind the `n`-th poll. -/
def readingAt (p : Platform σ) (child : Child) (n : Nat) (s : σ) : Instant :=
  (p.now (behindPoll p child n s)).1

/-- The first `n` polls find the child running, and the reading behind each of them comes before the
deadline. -/
def RunsOn (p : Platform σ) (child : Child) (deadline : Instant) (n : Nat) (s : σ) : Prop :=
  ∀ k < n, answerAt p child k s = .ok none ∧ (readingAt p child k s).nanos < deadline.nanos

theorem RunsOn.mono {m n : Nat} {s : σ} (h : RunsOn p child deadline n s) (hle : m ≤ n) :
    RunsOn p child deadline m s :=
  fun k hk ↦ h k (Nat.lt_of_lt_of_le hk hle)

/-- The first poll that ends the polling, if there is one among the first `n`. -/
theorem runsOn_or_exists (p : Platform σ) (child : Child) (deadline : Instant) (n : Nat) (s : σ) :
    RunsOn p child deadline n s ∨ ∃ k < n, RunsOn p child deadline k s ∧
      (answerAt p child k s = .ok none → deadline.nanos ≤ (readingAt p child k s).nanos) := by
  induction n with
  | zero => exact .inl nofun
  | succ n ih =>
    rcases ih with h | ⟨k, hk, h⟩
    · by_cases hn : answerAt p child n s = .ok none ∧
          (readingAt p child n s).nanos < deadline.nanos
      · refine .inl fun k hk ↦ ?_
        rcases Nat.lt_succ_iff_lt_or_eq.mp hk with hk | rfl
        · exact h k hk
        · exact hn
      · refine .inr ⟨n, Nat.lt_succ_self n, h, fun hnone ↦ ?_⟩
        exact Nat.le_of_not_lt fun hearly ↦ hn ⟨hnone, hearly⟩
    · exact .inr ⟨k, Nat.lt_succ_of_lt hk, h⟩

/-! ## Polling -/

theorem runsOn_succ {n : Nat} {s : σ} (h : RunsOn p child deadline (n + 1) s) :
    p.poll child s = (.ok none, behindPoll p child 0 s) ∧
      ¬ deadline.nanos ≤ (p.now (behindPoll p child 0 s)).1.nanos ∧
      RunsOn p child deadline n (p.pause pollInterval (p.now (p.poll child s).2).2).2 := by
  obtain ⟨hnone, hearly⟩ := h 0 (Nat.succ_pos n)
  exact ⟨Prod.ext hnone rfl, Nat.not_le_of_lt hearly, fun k hk ↦ h (k + 1) (Nat.succ_lt_succ hk)⟩

/-- As long as the child runs on, polling goes on. -/
theorem awaitExit_of_runsOn {n polls : Nat} {s : σ} (h : RunsOn p child deadline n s) :
    awaitExit p child deadline (polls + n) s
      = awaitExit p child deadline polls (beforePoll p child n s) := by
  induction n generalizing s with
  | zero => rfl
  | succ n ih =>
    obtain ⟨hpoll, hearly, hrest⟩ := runsOn_succ h
    rw [← Nat.add_assoc, awaitExit_succ, hpoll]
    dsimp only
    rw [if_neg hearly]
    exact ih hrest

theorem awaitExit_of_stalled {polls : Nat} {s : σ} (h : RunsOn p child deadline polls s) :
    (awaitExit p child deadline polls s).1 = .error .stalled := by
  rw [← Nat.zero_add polls, awaitExit_of_runsOn h, awaitExit]
  rfl

section Ends

variable {n polls : Nat} {s : σ}

/-- The answer of the poll behind those that find the child running decides how it goes on. -/
theorem awaitExit_eq (hn : n < polls) (h : RunsOn p child deadline n s) :
    ∃ rest, awaitExit p child deadline polls s =
      match answerAt p child n s with
      | .error e => (.error (.io e), behindPoll p child n s)
      | .ok (some status) => (.ok (some status), behindPoll p child n s)
      | .ok none =>
        if deadline.nanos ≤ (readingAt p child n s).nanos
        then (.ok none, (p.now (behindPoll p child n s)).2)
        else awaitExit p child deadline rest
          (p.pause pollInterval (p.now (behindPoll p child n s)).2).2 := by
  obtain ⟨rest, rfl⟩ := Nat.exists_eq_add_of_lt hn
  have hpolls : n + rest + 1 = rest + 1 + n := by omega
  refine ⟨rest, ?_⟩
  rw [hpolls, awaitExit_of_runsOn h, awaitExit_succ, readingAt, answerAt, behindPoll]
  rcases p.poll child (beforePoll p child n s) with ⟨e | _ | status, t⟩
  · rfl
  · rfl
  · rfl

theorem awaitExit_of_status {status : UInt32} (hn : n < polls) (h : RunsOn p child deadline n s)
    (hstatus : answerAt p child n s = .ok (some status)) :
    awaitExit p child deadline polls s = (.ok (some status), behindPoll p child n s) := by
  obtain ⟨rest, hrest⟩ := awaitExit_eq hn h
  rw [hrest, hstatus]

theorem awaitExit_of_error {e : IoError} (hn : n < polls) (h : RunsOn p child deadline n s)
    (herror : answerAt p child n s = .error e) :
    awaitExit p child deadline polls s = (.error (.io e), behindPoll p child n s) := by
  obtain ⟨rest, hrest⟩ := awaitExit_eq hn h
  rw [hrest, herror]

theorem awaitExit_of_late (hn : n < polls) (h : RunsOn p child deadline n s)
    (hnone : answerAt p child n s = .ok none)
    (hlate : deadline.nanos ≤ (readingAt p child n s).nanos) :
    awaitExit p child deadline polls s = (.ok none, (p.now (behindPoll p child n s)).2) := by
  obtain ⟨rest, hrest⟩ := awaitExit_eq hn h
  rw [hrest, hnone]
  exact if_pos hlate

end Ends

/-! ## Asking the readers -/

/-- What asking for the text of a pipe gives. -/
def consult (p : Platform σ) (child : Child) (deadline : Instant) (pipe : OutputPipe) (s : σ) :
    Received × σ :=
  p.receive child pipe ((p.now s).1.remaining deadline) (p.now s).2

/-- Both readers give their texts, from the state `s` on. -/
def GivesTexts (p : Platform σ) (child : Child) (deadline : Instant) (s : σ)
    (stdout stderr : String) (t : σ) : Prop :=
  ∃ u, consult p child deadline .stdout s = (.text stdout, u) ∧
    consult p child deadline .stderr u = (.text stderr, t)

/-- A reader that is asked gives nothing. The second one is asked if the first has given its text.
-/
def GivesNothing (p : Platform σ) (child : Child) (deadline : Instant) (s t : σ) : Prop :=
  consult p child deadline .stdout s = (.nothing, t) ∨
    ∃ stdout u, consult p child deadline .stdout s = (.text stdout, u) ∧
      consult p child deadline .stderr u = (.nothing, t)

/-- A reader that is asked fails. The second one is asked if the first has given its text. -/
def GivesError (p : Platform σ) (child : Child) (deadline : Instant) (s : σ) (e : IoError) : Prop :=
  (consult p child deadline .stdout s).1.failure? = some e ∨
    ∃ stdout u, consult p child deadline .stdout s = (.text stdout, u) ∧
      (consult p child deadline .stderr u).1.failure? = some e

/-- What becomes of an answer of a reader. -/
theorem awaitText_eq (pipe : OutputPipe) (s : σ) :
    awaitText p child pipe deadline s =
      match consult p child deadline pipe s with
      | (.text text, t) => (.ok (some text), t)
      | (.failed e, t) => (.error (.io e), t)
      | (.vanished, t) => (.error (.io (.other "output reader exited without a result")), t)
      | (.nothing, t) => (.ok none, t) := by
  rw [awaitText, bind_apply, bind_apply, consult]
  rcases p.receive child pipe ((p.now s).1.remaining deadline) (p.now s).2 with
    ⟨text | e | _ | _, t⟩ <;> rfl

theorem awaitText_of_failure {pipe : OutputPipe} {s : σ} {e : IoError}
    (h : (consult p child deadline pipe s).1.failure? = some e) :
    (awaitText p child pipe deadline s).1 = .error (.io e) := by
  rw [awaitText_eq]
  generalize consult p child deadline pipe s = answer at h ⊢
  rcases answer with ⟨text | e | _ | _, t⟩
  · cases h
  · cases h
    rfl
  · cases h
    rfl
  · cases h

theorem gives_cases (p : Platform σ) (child : Child) (deadline : Instant) (s : σ) :
    (∃ stdout stderr t, GivesTexts p child deadline s stdout stderr t) ∨
      (∃ t, GivesNothing p child deadline s t) ∨ ∃ e, GivesError p child deadline s e := by
  rcases hout : consult p child deadline .stdout s with ⟨stdout | e | _ | _, u⟩
  · rcases herr : consult p child deadline .stderr u with ⟨stderr | e | _ | _, t⟩
    · exact .inl ⟨stdout, stderr, t, u, hout, herr⟩
    · exact .inr (.inr ⟨e, .inr ⟨stdout, u, hout, by rw [herr]; rfl⟩⟩)
    · exact .inr (.inr ⟨_, .inr ⟨stdout, u, hout, by rw [herr]; rfl⟩⟩)
    · exact .inr (.inl ⟨t, .inr ⟨stdout, u, hout, herr⟩⟩)
  · exact .inr (.inr ⟨e, .inl (by rw [hout]; rfl)⟩)
  · exact .inr (.inr ⟨_, .inl (by rw [hout]; rfl)⟩)
  · exact .inr (.inl ⟨u, .inl hout⟩)

/-! ## Waiting -/

section Waits

variable {polls : Nat} {s t u : σ} {status : UInt32}

theorem await_eq (h : awaitExit p child deadline polls s = (.ok (some status), t)) :
    await p child deadline polls s =
      match awaitText p child .stdout deadline t with
      | (.error e, u) => (.error e, u)
      | (.ok none, u) => (.ok .timedOut, u)
      | (.ok (some stdout), u) =>
        match awaitText p child .stderr deadline u with
        | (.error e, v) => (.error e, v)
        | (.ok none, v) => (.ok .timedOut, v)
        | (.ok (some stderr), v) => (.ok (.exited ⟨.ofRaw status, stdout, stderr⟩), v) := by
  rw [await, bind_apply, h]
  dsimp only
  rw [bind_apply]
  rcases awaitText p child .stdout deadline t with ⟨e | _ | stdout, u⟩
  · rfl
  · rfl
  dsimp only
  rw [bind_apply]
  rcases awaitText p child .stderr deadline u with ⟨e | _ | stderr, v⟩ <;> rfl

theorem await_of_error {e : WaitError} (h : awaitExit p child deadline polls s = (.error e, t)) :
    await p child deadline polls s = (.error e, t) := by
  rw [await, bind_apply, h]
  rfl

theorem await_of_stalled (h : RunsOn p child deadline polls s) :
    (await p child deadline polls s).1 = .error .stalled := by
  rw [await_of_error (Prod.ext (awaitExit_of_stalled h) rfl)]

theorem await_of_late (h : awaitExit p child deadline polls s = (.ok none, t)) :
    await p child deadline polls s = (.ok .timedOut, t) := by
  rw [await, bind_apply, h]
  rfl

theorem await_of_givesTexts (h : awaitExit p child deadline polls s = (.ok (some status), t))
    {stdout stderr : String} (hgives : GivesTexts p child deadline t stdout stderr u) :
    await p child deadline polls s = (.ok (.exited ⟨.ofRaw status, stdout, stderr⟩), u) := by
  obtain ⟨v, hout, herr⟩ := hgives
  rw [await_eq h, awaitText_eq, hout]
  dsimp only
  rw [awaitText_eq, herr]

theorem await_of_givesNothing (h : awaitExit p child deadline polls s = (.ok (some status), t))
    (hgives : GivesNothing p child deadline t u) :
    await p child deadline polls s = (.ok .timedOut, u) := by
  rcases hgives with hout | ⟨stdout, v, hout, herr⟩
  · rw [await_eq h, awaitText_eq, hout]
  · rw [await_eq h, awaitText_eq, hout]
    dsimp only
    rw [awaitText_eq, herr]

theorem await_of_givesError (h : awaitExit p child deadline polls s = (.ok (some status), t))
    {e : IoError} (hgives : GivesError p child deadline t e) :
    (await p child deadline polls s).1 = .error (.io e) := by
  rw [await_eq h]
  rcases hgives with hout | ⟨stdout, v, hout, herr⟩
  · have hfails := awaitText_of_failure hout
    generalize awaitText p child .stdout deadline t = answer at hfails ⊢
    obtain ⟨answer, v⟩ := answer
    cases hfails
    rfl
  · have hfails := awaitText_of_failure herr
    rw [awaitText_eq, hout]
    dsimp only
    generalize awaitText p child .stderr deadline v = answer at hfails ⊢
    obtain ⟨answer, w⟩ := answer
    cases hfails
    rfl

end Waits

/-! ## The courses of a wait -/

/-- How a wait of so many polls can go from the state `s` on, with its result and the state behind
it. -/
inductive Course (p : Platform σ) (child : Child) (deadline : Instant) (polls : Nat) (s : σ) :
    Except WaitError Completion → σ → Prop
  | stalls (t : σ) (h : RunsOn p child deadline polls s) :
      Course p child deadline polls s (.error .stalled) t
  | pollFails (n : Nat) (e : IoError) (t : σ) (hn : n < polls) (h : RunsOn p child deadline n s)
      (herror : answerAt p child n s = .error e) :
      Course p child deadline polls s (.error (.io e)) t
  | late (n : Nat) (hn : n < polls) (h : RunsOn p child deadline n s)
      (hnone : answerAt p child n s = .ok none)
      (hlate : deadline.nanos ≤ (readingAt p child n s).nanos) :
      Course p child deadline polls s (.ok .timedOut) (p.now (behindPoll p child n s)).2
  | exits (n : Nat) (status : UInt32) (stdout stderr : String) (t : σ) (hn : n < polls)
      (h : RunsOn p child deadline n s) (hstatus : answerAt p child n s = .ok (some status))
      (hgives : GivesTexts p child deadline (behindPoll p child n s) stdout stderr t) :
      Course p child deadline polls s (.ok (.exited ⟨.ofRaw status, stdout, stderr⟩)) t
  | silent (n : Nat) (status : UInt32) (t : σ) (hn : n < polls)
      (h : RunsOn p child deadline n s) (hstatus : answerAt p child n s = .ok (some status))
      (hgives : GivesNothing p child deadline (behindPoll p child n s) t) :
      Course p child deadline polls s (.ok .timedOut) t
  | readerFails (n : Nat) (status : UInt32) (e : IoError) (t : σ) (hn : n < polls)
      (h : RunsOn p child deadline n s) (hstatus : answerAt p child n s = .ok (some status))
      (hgives : GivesError p child deadline (behindPoll p child n s) e) :
      Course p child deadline polls s (.error (.io e)) t

theorem course_await (p : Platform σ) (child : Child) (deadline : Instant) (polls : Nat) (s : σ) :
    Course p child deadline polls s (await p child deadline polls s).1
      (await p child deadline polls s).2 := by
  rcases runsOn_or_exists p child deadline polls s with h | ⟨n, hn, h, hends⟩
  · rw [await_of_stalled h]
    exact .stalls _ h
  rcases hanswer : answerAt p child n s with e | _ | status
  · rw [await_of_error (awaitExit_of_error hn h hanswer)]
    exact .pollFails n e _ hn h hanswer
  · have hlate := hends hanswer
    rw [await_of_late (awaitExit_of_late hn h hanswer hlate)]
    exact .late n hn h hanswer hlate
  have hexit := awaitExit_of_status hn h hanswer
  rcases gives_cases p child deadline (behindPoll p child n s) with
    ⟨stdout, stderr, t, hgives⟩ | ⟨t, hgives⟩ | ⟨e, hgives⟩
  · rw [await_of_givesTexts hexit hgives]
    exact .exits n status stdout stderr t hn h hanswer hgives
  · rw [await_of_givesNothing hexit hgives]
    exact .silent n status t hn h hanswer hgives
  · rw [await_of_givesError hexit hgives]
    exact .readerFails n status e _ hn h hanswer hgives

/-! ## Readers and the deadline -/

section Laws

variable {time : σ → Nat} {feed : OutputPipe → Feed} (laws : p.WaitLaws child time feed)
include laws

/-- A reader that is asked gives nothing only if it has delivered nothing by the deadline, nor by
the time at which it is asked. -/
theorem of_consult_nothing {pipe : OutputPipe} {s t : σ}
    (h : consult p child deadline pipe s = (.nothing, t)) :
    ∃ up, max (time s) deadline.nanos ≤ up ∧ up ≤ time t ∧
      ∀ delivered answer, (feed pipe).delivery = some (delivered, answer) → up < delivered := by
  obtain ⟨up, hwait, hle, hbefore⟩ := laws.gives_up h
  have hreads := laws.reads s
  rw [Instant.remaining] at hwait
  exact ⟨up, by omega, hle, hbefore⟩

/-- Asking a reader does not turn the clock back. -/
theorem le_time_of_consult {pipe : OutputPipe} {s t : σ} {answer : Received}
    (h : consult p child deadline pipe s = (answer, t)) : time s ≤ time t := by
  by_cases hanswer : answer = .nothing
  · subst hanswer
    obtain ⟨up, hup, hle, -⟩ := of_consult_nothing laws h
    omega
  · obtain ⟨hle, -⟩ := laws.receives h hanswer
    have hreads := laws.reads s
    omega

theorem spells_of_consult {pipe : OutputPipe} {s t : σ} {text : String}
    (h : consult p child deadline pipe s = (.text text, t)) :
    ∃ met ≤ time t, (feed pipe).Spells met text := by
  obtain ⟨-, met, hle, hdelivery⟩ := laws.receives h nofun
  exact ⟨met, hle, Feed.delivery_eq_text_iff.mp hdelivery⟩

/-- A reader that meets the end of its file by the deadline, or by the time at which it is asked,
gives its text. -/
theorem consult_of_spells {pipe : OutputPipe} {s : σ} {text : String}
    (h : ∃ met ≤ max (time s) deadline.nanos, (feed pipe).Spells met text) :
    ∃ t, consult p child deadline pipe s = (.text text, t) := by
  obtain ⟨met, hmet, hspells⟩ := h
  have hdelivery := Feed.delivery_eq_text_iff.mpr hspells
  rcases hconsult : consult p child deadline pipe s with ⟨answer, t⟩
  by_cases hanswer : answer = .nothing
  · subst hanswer
    obtain ⟨up, hup, -, hbefore⟩ := of_consult_nothing laws hconsult
    have hlt := hbefore met _ hdelivery
    omega
  · obtain ⟨-, delivered, -, heq⟩ := laws.receives hconsult hanswer
    rw [hdelivery] at heq
    cases heq
    exact ⟨t, rfl⟩

theorem givesTexts_of_spells {s : σ} {stdout stderr : String}
    (hout : ∃ met ≤ max (time s) deadline.nanos, (feed .stdout).Spells met stdout)
    (herr : ∃ met ≤ max (time s) deadline.nanos, (feed .stderr).Spells met stderr) :
    ∃ t, GivesTexts p child deadline s stdout stderr t := by
  obtain ⟨u, hu⟩ := consult_of_spells laws hout
  have hle := le_time_of_consult laws hu
  obtain ⟨met, hmet, hspells⟩ := herr
  have hlater : met ≤ max (time u) deadline.nanos := by omega
  obtain ⟨t, ht⟩ := consult_of_spells laws ⟨met, hlater, hspells⟩
  exact ⟨t, u, hu, ht⟩

theorem spells_of_givesTexts {s t : σ} {stdout stderr : String}
    (h : GivesTexts p child deadline s stdout stderr t) :
    (∃ met ≤ time t, (feed .stdout).Spells met stdout) ∧
      ∃ met ≤ time t, (feed .stderr).Spells met stderr := by
  obtain ⟨u, hout, herr⟩ := h
  obtain ⟨met, hmet, hspells⟩ := spells_of_consult laws hout
  have hle := le_time_of_consult laws herr
  exact ⟨⟨met, Nat.le_trans hmet hle, hspells⟩, spells_of_consult laws herr⟩

theorem deadline_le_of_givesNothing {s t : σ} (h : GivesNothing p child deadline s t) :
    deadline.nanos ≤ time t := by
  rcases h with hout | ⟨stdout, u, -, herr⟩
  · obtain ⟨up, hup, hle, -⟩ := of_consult_nothing laws hout
    omega
  · obtain ⟨up, hup, hle, -⟩ := of_consult_nothing laws herr
    omega

end Laws

/-! ## The decision -/

/-- What a wait of so many polls from the state `s` on has decided, with its result and the state
behind it. -/
structure Decided (p : Platform σ) (child : Child) (time : σ → Nat) (feed : OutputPipe → Feed)
    (deadline : Instant) (polls : Nat) (s : σ) (result : Except WaitError Completion) (t : σ) :
    Prop where
  /-- A wait times out only once the clock has reached the deadline. -/
  timedOut (h : result = .ok .timedOut) : deadline.nanos ≤ time t
  /-- A run that exited has the status of the first poll that gave one, and its texts are whole. -/
  exited {run : Finished} (h : result = .ok (.exited run)) :
    ∃ n < polls, ∃ status, RunsOn p child deadline n s ∧
      answerAt p child n s = .ok (some status) ∧ run.exit = .ofRaw status ∧
      (∃ met ≤ time t, (feed .stdout).Spells met run.stdout) ∧
      ∃ met ≤ time t, (feed .stderr).Spells met run.stderr
  /-- A status before any late reading, and two texts by the deadline or by that status, are enough
  for an exit. -/
  finishes {n : Nat} {status : UInt32} {stdout stderr : String}
    (hn : n < polls) (h : RunsOn p child deadline n s)
    (hstatus : answerAt p child n s = .ok (some status))
    (hout : ∃ met ≤ max (time (behindPoll p child n s)) deadline.nanos,
      (feed .stdout).Spells met stdout)
    (herr : ∃ met ≤ max (time (behindPoll p child n s)) deadline.nanos,
      (feed .stderr).Spells met stderr) :
    result = .ok (.exited ⟨.ofRaw status, stdout, stderr⟩)
  /-- An error is that of a poll before any status or late reading, or of a reader that is asked. -/
  fails_iff (e : IoError) : result = .error (.io e) ↔
    ∃ n < polls, RunsOn p child deadline n s ∧ (answerAt p child n s = .error e ∨
      ∃ status, answerAt p child n s = .ok (some status) ∧
        GivesError p child deadline (behindPoll p child n s) e)
  /-- A wait stalls if its polls are used up before the deadline. -/
  stalls_iff : result = .error .stalled ↔ RunsOn p child deadline polls s

theorem decided_await {time : σ → Nat} {feed : OutputPipe → Feed}
    (laws : p.WaitLaws child time feed) (deadline : Instant) (polls : Nat) (s : σ) :
    Decided p child time feed deadline polls s (await p child deadline polls s).1
      (await p child deadline polls s).2 := by
  have course := course_await p child deadline polls s
  constructor
  case timedOut =>
    intro h
    rw [h] at course
    generalize (await p child deadline polls s).2 = t at course ⊢
    cases course with
    | late n hn hruns hnone hlate => exact Nat.le_trans hlate (laws.reads _).2
    | silent n status t hn hruns hstatus hgives => exact deadline_le_of_givesNothing laws hgives
  case exited =>
    intro run h
    rw [h] at course
    generalize (await p child deadline polls s).2 = t at course ⊢
    cases course with
    | exits n status stdout stderr t hn hruns hstatus hgives =>
      exact ⟨n, hn, status, hruns, hstatus, rfl, spells_of_givesTexts laws hgives⟩
  case finishes =>
    intro n status stdout stderr hn hruns hstatus hout herr
    obtain ⟨t, hgives⟩ := givesTexts_of_spells laws hout herr
    rw [await_of_givesTexts (awaitExit_of_status hn hruns hstatus) hgives]
  case fails_iff =>
    intro e
    constructor
    · intro h
      rw [h] at course
      cases course with
      | pollFails n e t hn hruns herror => exact ⟨n, hn, hruns, .inl herror⟩
      | readerFails n status e t hn hruns hstatus hgives =>
        exact ⟨n, hn, hruns, .inr ⟨status, hstatus, hgives⟩⟩
    · rintro ⟨n, hn, hruns, herror | ⟨status, hstatus, hgives⟩⟩
      · rw [await_of_error (awaitExit_of_error hn hruns herror)]
      · exact await_of_givesError (awaitExit_of_status hn hruns hstatus) hgives
  case stalls_iff =>
    constructor
    · intro h
      rw [h] at course
      cases course with
      | stalls t hruns => exact hruns
    · exact await_of_stalled

/-! ## Tests that are waited for -/

/-- Running a test from the state `s₀` on comes to a wait for its child from the state `s` on, with
this deadline and so many polls. -/
def ComesToWait (x : Executor) (p : Platform σ) (case : TestCase) (s₀ : σ) (child : Child)
    (deadline : Instant) (polls : Nat) (s : σ) : Prop :=
  ∃ s₁, p.spawn x.target [case.path.text] s₀ = (.ok child, s₁) ∧
    (p.now s₁).1.add? x.timeout = some deadline ∧
    startReaders p child (p.now s₁).2 = (.ok (), s) ∧ polls = pollsWithin x.timeout.toNanos

theorem ComesToWait.run_eq {x : Executor} {case : TestCase} {polls : Nat} {s₀ s : σ}
    (h : x.ComesToWait p case s₀ child deadline polls s) :
    (x.run p case s₀).1 =
      (joinReaders p child (terminate p child (await p child deadline polls s).2).2).1.bind
        fun () ↦ x.outcomeOf case.id (await p child deadline polls s).1 := by
  obtain ⟨s₁, hspawn, hdeadline, hstart, rfl⟩ := h
  obtain ⟨hreach, rfl⟩ := Instant.reaches_of_add? hdeadline
  have hreaders : HasReaders p child (p.now s₁).2 := by
    refine Decidable.of_not_not fun hno ↦ ?_
    cases (congrArg Prod.fst hstart).symm.trans (startReaders_of_not_hasReaders hno)
  have hwait : x.waitFrom p child s₁ =
      await p child ((p.now s₁).1.later x.timeout) (pollsWithin x.timeout.toNanos) s := by
    rw [waitFrom, hstart]
  rw [run_of_watched hspawn hreach hreaders, whenReaped, hwait]

/-- On a clock that goes on, the polls of a test are enough to reach its deadline. -/
theorem ComesToWait.lt_polls {time : σ → Nat} {x : Executor} {case : TestCase} {polls n : Nat}
    {s₀ s : σ} (h : x.ComesToWait p case s₀ child deadline polls s) (laws : p.ClockLaws time)
    (hruns : RunsOn p child deadline n s) : n < polls := by
  obtain ⟨s₁, -, hdeadline, hreaders, rfl⟩ := h
  have hstart : time (p.now s₁).2 ≤ time s := by
    have hle := le_time_startReaders laws child (p.now s₁).2
    rwa [hreaders] at hle
  have hreach : deadline.nanos ≤ time s + x.timeout.toNanos := by
    rw [(Instant.reaches_of_add? hdeadline).2]
    exact Nat.add_le_add_right (Nat.le_trans (laws.reads s₁).2 hstart) _
  refine Nat.lt_of_not_le fun hle ↦ ?_
  exact await_ne_stalled laws hreach (await_of_stalled (hruns.mono hle))

/-- **The decision of a wait.** Over every course of events, a wait times out only past its
deadline; it exits with the status of the first poll that gave one and with whole texts; it does so
whenever that status comes before any late reading and the texts by then or by the deadline; and it
fails exactly with the error of a poll or of a reader that is asked. The outcome of the test is then
a timeout, the judgement on the run, or a failure with the text of the error, unless the clock ends
while the readers are joined. Its polls last as long as the clock goes on. -/
theorem await_decides {time : σ → Nat} {feed : OutputPipe → Feed}
    (laws : p.WaitLaws child time feed) (deadline : Instant) (polls : Nat) (s : σ) :
    ∃ result t, await p child deadline polls s = (result, t) ∧
      Decided p child time feed deadline polls s result t ∧
      ∀ (x : Executor) (case : TestCase) (s₀ : σ),
        x.ComesToWait p case s₀ child deadline polls s →
          (GrantsGrace p child (terminate p child t).2 →
            (result = .ok .timedOut → (x.run p case s₀).1 = .ok (.timeout case.id x.timeout)) ∧
            (∀ run, result = .ok (.exited run) →
              (x.run p case s₀).1 = .ok ⟨case.id, (run.judge x.notExecutedMarker).1,
                (run.judge x.notExecutedMarker).2⟩) ∧
            (∀ e, result = .error (.io e) →
              (x.run p case s₀).1 = .ok (.fail case.id e.message))) ∧
          (¬ GrantsGrace p child (terminate p child t).2 →
            (x.run p case s₀).1 = .error .deadlineOverflow) ∧
          (p.ClockLaws time →
            result ≠ .error .stalled ∧ ∀ n, RunsOn p child deadline n s → n < polls) := by
  have decided := decided_await laws deadline polls s
  refine ⟨(await p child deadline polls s).1, (await p child deadline polls s).2, rfl, decided,
    fun x case s₀ hwait ↦ ?_⟩
  rw [hwait.run_eq]
  refine ⟨fun hgrace ↦ ?_, fun hgrace ↦ ?_, fun clock ↦ ?_⟩
  · rw [joinReaders_of_grantsGrace hgrace]
    refine ⟨fun h ↦ ?_, fun run h ↦ ?_, fun e h ↦ ?_⟩
    · rw [h]
      rfl
    · rw [h]
      rfl
    · rw [h]
      rfl
  · rw [joinReaders_of_not_grantsGrace hgrace]
    rfl
  · have hlast : ¬ RunsOn p child deadline polls s :=
      fun hruns ↦ Nat.lt_irrefl polls (hwait.lt_polls clock hruns)
    exact ⟨fun h ↦ hlast (decided.stalls_iff.mp h), fun n hruns ↦ hwait.lt_polls clock hruns⟩

/-! ## A scene -/

/-- A platform on which a child ends at a set time, and its readers meet what the feeds say. The
rest is a stopwatch. -/
def scene (ends : Nat) (status : UInt32) (feed : OutputPipe → Feed) : Platform Nat :=
  { stopwatch with
    poll := fun _ s ↦ (.ok (if ends ≤ s then some status else none), s)
    receive := fun _ pipe nanos s ↦
      match (feed pipe).delivery with
      | none => (.nothing, s + nanos)
      | some (delivered, answer) =>
        if delivered ≤ s + nanos then (answer, max s delivered) else (.nothing, s + nanos) }

theorem scene_waitLaws (ends : Nat) (status : UInt32) (feed : OutputPipe → Feed) (child : Child) :
    (scene ends status feed).WaitLaws child id feed where
  reads s := ⟨Nat.le_refl s, Nat.le_refl s⟩
  receives {pipe nanos s t answer} h hanswer := by
    rw [scene] at h
    dsimp only at h
    split at h
    · cases h
      exact absurd rfl hanswer
    · rename_i delivered received hdelivery
      split at h
      · cases h
        exact ⟨Nat.le_max_left s delivered, delivered, Nat.le_max_right s delivered, hdelivery⟩
      · cases h
        exact absurd rfl hanswer
  gives_up {pipe nanos s t} h := by
    rw [scene] at h
    dsimp only at h
    split at h
    · rename_i hdelivery
      cases h
      refine ⟨s + nanos, Nat.le_refl _, Nat.le_refl _, fun delivered answer hsome ↦ ?_⟩
      rw [hdelivery] at hsome
      cases hsome
    · rename_i delivered received hdelivery
      split at h
      · cases h
        exact absurd hdelivery Feed.deliveryAfter_ne_nothing
      · rename_i hlt
        cases h
        refine ⟨s + nanos, Nat.le_refl _, Nat.le_refl _, fun delivered' answer hsome ↦ ?_⟩
        rw [hdelivery] at hsome
        cases hsome
        exact Nat.lt_of_not_le hlt

theorem scene_clockLaws (ends : Nat) (status : UInt32) (feed : OutputPipe → Feed) :
    (scene ends status feed).ClockLaws id :=
  clockLaws_of_stopwatch rfl rfl (fun _ _ ↦ rfl) rfl

/-- What the readers meet in a scene: two pieces of output, and the ends of both files after 18
milliseconds. -/
def twoPieces : OutputPipe → Feed
  | .stdout => [(5000000, .bytes [111]), (16000000, .bytes [107]), (18000000, .endOfFile)]
  | .stderr => [(18000000, .endOfFile)]

/-- A child that ends after 17 milliseconds is seen to have ended after 20, past its limit of 15. It
exits all the same, since both texts are there by then. -/
theorem await_decides_late_exit :
    (scene 17000000 0 twoPieces).WaitLaws ⟨1⟩ id twoPieces ∧
      (scene 17000000 0 twoPieces).ClockLaws id ∧
      (await (scene 17000000 0 twoPieces) ⟨1⟩ ⟨15000000⟩ 3 0).1
        = .ok (.exited ⟨.ofRaw 0, "ok", ""⟩) ∧
      (run ⟨⟨"t"⟩, .ofMillis 15, ""⟩ (scene 17000000 0 twoPieces) ⟨"a", ⟨"a"⟩⟩ 0).1
        = .ok (.pass "a") := by
  have laws := scene_waitLaws 17000000 0 twoPieces ⟨1⟩
  obtain ⟨result, t, hawait, decided, hrun⟩ := await_decides laws ⟨15000000⟩ 3 0
  have hruns : RunsOn (scene 17000000 0 twoPieces) ⟨1⟩ ⟨15000000⟩ 2 0 := by
    intro k hk
    match k, hk with
    | 0, _ => exact ⟨rfl, by decide⟩
    | 1, _ => exact ⟨rfl, by decide⟩
  have hout : (twoPieces .stdout).Spells 18000000 "ok" :=
    ⟨[(5000000, [111]), (16000000, [107])], [], rfl, by decide +kernel⟩
  have herr : (twoPieces .stderr).Spells 18000000 "" := ⟨[], [], rfl, by decide +kernel⟩
  have hresult : result = .ok (.exited ⟨.ofRaw 0, "ok", ""⟩) :=
    decided.finishes (by decide) hruns rfl ⟨18000000, by decide, hout⟩ ⟨18000000, by decide, herr⟩
  obtain ⟨hgranted, -, -⟩ := hrun ⟨⟨"t"⟩, .ofMillis 15, ""⟩ ⟨"a", ⟨"a"⟩⟩ 0
    ⟨0, rfl, by decide +kernel, rfl, by decide +kernel⟩
  have hgrace : GrantsGrace (scene 17000000 0 twoPieces) ⟨1⟩
      (terminate (scene 17000000 0 twoPieces) ⟨1⟩ t).2 := by
    obtain rfl : (await (scene 17000000 0 twoPieces) ⟨1⟩ ⟨15000000⟩ 3 0).2 = t :=
      congrArg Prod.snd hawait
    exact ⟨by decide +kernel, by decide +kernel⟩
  obtain ⟨-, hexited, -⟩ := hgranted hgrace
  refine ⟨laws, scene_clockLaws 17000000 0 twoPieces, by rw [hawait, hresult], ?_⟩
  rw [hexited _ hresult]
  exact congrArg Except.ok (by decide +kernel)

end Executor

end Conformance
