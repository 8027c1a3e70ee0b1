import Conformance.Proofs.Discovery.Enumeration
import Conformance.Proofs.Harness.Course
/-!
# The pipeline of a run

A run asks for the corpus, finds the tests and executes them, and tells its observer of each stage.
`Follows` says what it does behind the answer of the provider: nothing more after a fault, and
otherwise just these stages, each once. The exact course of a run is put together from it.
-/

namespace Conformance

namespace Harness

variable {σ : Type} {h : Harness} {p : Platform σ} {observe : RunEvent → StateM σ Unit}
  {told : RunEvent → Deed}

section Journal

-- As for single tests, the rules for journals look for `noting`.
attribute [local irreducible] noting

/-- The loop over the tests, one test after the other. -/
theorem journals_runFrom (total index : Nat) (tally : Tally) (cases : List TestCase) (s : σ) :
    Journals s (h.runFrom p observe total index tally cases)
      (h.runFrom p.recorded (observed told observe) total index tally cases)
      fun deeds result t ↦ ∃ tests,
        h.executor.Testing p observe told total index s tally cases tests deeds result t := by
  induction cases generalizing index tally s with
  | nil => exact .pure ⟨[], .done index s tally⟩
  | cons case cases ih =>
    -- Every test takes the index and the tally one further, so the rest begins elsewhere.
    refine (Executor.journals_run h.executor case s).and_eq.bind ?_
    rintro deeds (e | o) t ⟨hattempt, hrun⟩
    · refine .pure ⟨[], ?_⟩
      rw [List.append_nil]
      exact .crashed index tally cases hattempt hrun
    · refine .note_bind ?_
      intro _ u hobserve
      split
      · rename_i e hrecord
        exact .pure ⟨[(case, o)], .overflowed cases hattempt hrun hobserve hrecord⟩
      · rename_i tally' hrecord
        refine (ih (index + 1) tally' u).mono ?_
        rintro deeds' result v ⟨tests, htesting⟩
        exact ⟨(case, o) :: tests, .tested hattempt hrun hobserve hrecord htesting⟩

theorem journals_discover (root : Path) (s : σ) :
    Journals s (h.discover p root) (h.discover p.recorded root) fun deeds found _ ↦
      ∃ listing, (p.listing (Discovery.searchRoot root h.rules) s).1 = listing ∧
        deeds = [.listing (Discovery.searchRoot root h.rules) listing] ∧
        found = .find root h.rules h.maxTests listing :=
  .note_bind fun listing _ hlisting ↦ .pure ⟨listing, congrArg Prod.fst hlisting, rfl, rfl⟩

/-- The state in which the first test starts, if the corpus was provided in the state `s`. -/
def beforeTests (h : Harness) (p : Platform σ) (observe : RunEvent → StateM σ Unit) (root : Path)
    (status : CorpusStatus) (s : σ) : σ :=
  let (found, t) := h.discover p root (observe (.corpusReady status) s).2
  (observe (.discovered found.cases.length found.notice) t).2

theorem beforeTests_eq {root : Path} {status : CorpusStatus} {found : Discovery} {s t u v : σ}
    (hready : observe (.corpusReady status) s = ((), t)) (hfound : h.discover p root t = (found, u))
    (hdiscovered : observe (.discovered found.cases.length found.notice) u = ((), v)) :
    h.beforeTests p observe root status s = v := by
  rw [beforeTests, hready]
  dsimp only
  rw [hfound]
  dsimp only
  rw [hdiscovered]

/-- What a run does behind the answer of the provider, what it comes to, and the state behind. -/
inductive Follows (h : Harness) (p : Platform σ) (observe : RunEvent → StateM σ Unit)
    (told : RunEvent → Deed) (root : Path) :
    σ → Except Fault CorpusStatus → List Deed → Except RunError RunReport → σ → Prop
  | fault (f : Fault) (s : σ) :
    Follows h p observe told root s (.error f) [] (.error (.fault f)) s
  | ready {s t : σ} (status : CorpusStatus) (listing : Option (List (String × Entry)))
    (hlisting : (p.listing (Discovery.searchRoot root h.rules)
      (observe (.corpusReady status) s).2).1 = listing)
    {found : Discovery} (hfound : found = .find root h.rules h.maxTests listing)
    {tests : List (TestCase × Outcome)} {deeds : List Deed} {result : Except Crash Tally}
    (htesting : h.executor.Testing p observe told found.cases.length 1
      (h.beforeTests p observe root status s) (.empty h.sampleLimit) found.cases tests deeds
      result t) :
    Follows h p observe told root s (.ok status)
      (told (.corpusReady status) :: .listing (Discovery.searchRoot root h.rules) listing ::
        told (.discovered found.cases.length found.notice) :: deeds)
      ((result.mapError .crash).map fun tally ↦ ⟨status, found.notice, tally⟩) t

theorem journals_runWith {provide : Path → StateM σ (Except Fault CorpusStatus)}
    {provide' : Path → StateM (σ × List Deed) (Except Fault CorpusStatus)} {root : Path} {s : σ}
    {Q : List Deed → Except Fault CorpusStatus → σ → Prop}
    (hprovide : Journals s (provide root) (provide' root) Q) :
    Journals s (h.runWith p observe provide root)
      (h.runWith p.recorded (observed told observe) provide' root) fun deeds result u ↦
        ∃ first answer t rest, deeds = first ++ rest ∧ Q first answer t ∧
          h.Follows p observe told root t answer rest result u := by
  refine hprovide.bind ?_
  rintro first (f | status) t hfirst
  · exact .pure ⟨first, .error f, t, [], rfl, hfirst, .fault f t⟩
  refine .note_bind ?_
  intro _ u hready
  refine (journals_discover root u).and_eq.bind ?_
  rintro _ found v ⟨⟨listing, hlisting, rfl, hfound⟩, hdiscover⟩
  have hbehind : (observe (.corpusReady status) t).2 = u := congrArg Prod.snd hready
  rw [← hbehind] at hlisting
  refine .note_bind ?_
  intro _ w hdiscovered
  refine (journals_runFrom found.cases.length 1 (.empty h.sampleLimit) found.cases w).bind ?_
  rintro deeds (e | tally) z ⟨tests, htesting⟩
  all_goals
    rw [← beforeTests_eq hready hdiscover hdiscovered] at htesting
    have hfollows := Follows.ready status listing hlisting hfound htesting
    exact .pure ⟨first, .ok status, t, _, by rw [List.append_nil]; rfl, hfirst, hfollows⟩

/-! ## The course of a run -/

/-- All tests of a discovery went through, from the state `s` to the state `t`: each was executed
and told of, in order, and the tally is that of their outcomes. -/
structure Completed (h : Harness) (p : Platform σ) (observe : RunEvent → StateM σ Unit)
    (found : Discovery) (s : σ) (tests : List (TestCase × Outcome)) (stages : List Stage)
    (tally : Tally) (t : σ) : Prop where
  cases : tests.map (·.1) = found.cases
  stages : stages = Executor.testStages h.executor.target ([.told ·]) found.cases.length 1 tests
  inTurn : h.executor.InTurn p observe found.cases.length 1 s tests t
  named : ∀ test ∈ tests, test.2.test = test.1.id
  tallied : Tally.ofOutcomes (tests.map (·.2)) h.sampleLimit = .ok tally
  total : tally.total.toNat = found.cases.length
  failures : tally.failures.toList
    = (Tally.samplesOf (tests.map (·.2))).take h.sampleLimit.toNat

/-- The run stopped with a crash, and the tests before it went through. Either the executor crashed
on the next test, or there are more tests than a counter counts. -/
structure Interrupted (h : Harness) (p : Platform σ) (observe : RunEvent → StateM σ Unit)
    (found : Discovery) (s : σ) (tests : List (TestCase × Outcome)) (stages : List Stage)
    (e : Crash) (t : σ) : Prop where
  named : ∀ test ∈ tests, test.2.test = test.1.id
  stopped :
    (∃ case rest u, found.cases = tests.map (·.1) ++ case :: rest ∧
      h.executor.InTurn p observe found.cases.length 1 s tests u ∧
      h.executor.run p case u = (.error e, t) ∧
      stages = Executor.testStages h.executor.target ([.told ·]) found.cases.length 1 tests
        ++ [.started h.executor.target [case.path.text]]) ∨
    ∃ rest, found.cases = tests.map (·.1) ++ rest ∧ UInt64.size ≤ tests.length ∧
      h.executor.InTurn p observe found.cases.length 1 s tests t ∧
      stages = Executor.testStages h.executor.target ([.told ·]) found.cases.length 1 tests

/-- Nothing cuts the tests of a discovery short, from the state `s` on: each is over before the clock
ends, and a counter counts them all. -/
structure Unhindered (h : Harness) (p : Platform σ) (observe : RunEvent → StateM σ Unit)
    (found : Discovery) (s : σ) : Prop where
  inTime : h.executor.AllInTime p observe found.cases.length 1 s found.cases
  counted : found.cases.length < UInt64.size

section Testing

variable {found : Discovery} {tests : List (TestCase × Outcome)} {deeds : List Deed} {s t : σ}

theorem completed_of_testing {tally : Tally}
    (htesting : h.executor.Testing p observe .tell found.cases.length 1 s (.empty h.sampleLimit)
      found.cases tests deeds (.ok tally) t) :
    h.Completed p observe found s tests (course deeds) tally t := by
  obtain ⟨hcases, hturn, hcourse, htally⟩ := htesting.complete
  have haccounts := Tally.accounts_of_recordAll htally
  have htotal := haccounts.total
  rw [List.length_map, Tally.empty, UInt64.toNat_zero, Nat.zero_add] at htotal
  refine ⟨hcases, hcourse, hturn, htesting.named, htally, ?_, haccounts.failures⟩
  rw [htotal, ← hcases, List.length_map]

theorem interrupted_of_testing {e : Crash}
    (htesting : h.executor.Testing p observe .tell found.cases.length 1 s (.empty h.sampleLimit)
      found.cases tests deeds (.error e) t) :
    h.Interrupted p observe found s tests (course deeds) e t := by
  refine ⟨htesting.named, ?_⟩
  obtain hcrash | ⟨rest, hcases, hturn, hcount, hcourse⟩ := htesting.interrupted
  · exact .inl hcrash
  refine .inr ⟨rest, hcases, ?_, hturn, hcourse⟩
  rw [← List.length_map (·.2)]
  exact Tally.size_le_length_of_ofOutcomes hcount

/-- On a clock that goes on, the tests go through exactly if nothing cuts them short. -/
theorem exists_tally_iff_unhindered {time : σ → Nat} (laws : p.ClockLaws time)
    {result : Except Crash Tally}
    (htesting : h.executor.Testing p observe told found.cases.length 1 s (.empty h.sampleLimit)
      found.cases tests deeds result t) :
    (∃ tally, result = .ok tally) ↔ h.Unhindered p observe found s := by
  rcases result with e | tally
  · refine iff_of_false nofun fun hfree ↦ ?_
    obtain ⟨rest, hcases, -, hcount⟩ := hfree.inTime.interrupted laws htesting
    have hlong := Tally.size_le_length_of_ofOutcomes hcount
    -- The outcomes that were to be counted are no more than the tests, which fit into a counter.
    have hcounted := hfree.counted
    rw [hcases, List.length_append, List.length_map] at hcounted
    rw [List.length_map] at hlong
    omega
  · obtain ⟨hcases, hturn, -, htally⟩ := htesting.complete
    refine iff_of_true ⟨tally, rfl⟩ ⟨?_, ?_⟩
    · have htime := hturn.allInTime laws
      rwa [hcases] at htime
    · have htotal := (Tally.accounts_of_recordAll htally).total
      rw [List.length_map, Tally.empty, UInt64.toNat_zero, Nat.zero_add] at htotal
      rw [← hcases, List.length_map, ← htotal]
      exact tally.total.toNat_lt_size

end Testing

theorem length_cases_find_le {root : Path} {rules : DiscoveryRules} {limit : UInt64}
    (listing : Option (List (String × Entry))) :
    (Discovery.find root rules (some limit) listing).cases.length ≤ limit.toNat := by
  cases listing with
  | none => exact Nat.zero_le _
  | some entries =>
    rw [Discovery.cases_find_some]
    exact List.length_take_le _ _

/-- **The course of a run.** If the provider fails, the run gives its fault and does nothing else.
Otherwise the stages are, in order and each once: the corpus is ready, the tests are discovered, and
every test is executed and told of, with its index, the number of all tests and the outcome it gave,
which names it. The tally is that of these outcomes, so it counts every test found, at most as many
as the limit allows, and keeps the first failures. On a clock that goes on this is what happens if
every test is over before the clock ends and a counter counts them, however the tests end; and only
if not, a crash cuts it short. A missing test directory gives an empty tally and a notice. -/
theorem runWith_course (h : Harness) (p : Platform σ) (observe : RunEvent → StateM σ Unit)
    (provide : Path → StateM σ (Except Fault CorpusStatus)) (root : Path) (s : σ) :
    ∃ journal,
      h.runWith p.recorded (observed .tell observe) (provided provide) root (s, [])
        = ((h.runWith p observe provide root s).1, (h.runWith p observe provide root s).2,
            journal) ∧
      match (provide root s).1 with
      | .error f =>
        h.runWith p observe provide root s = (.error (.fault f), (provide root s).2) ∧
          journal = [.provide root (.error f)]
      | .ok status => ∃ listing found stages tests,
        (p.listing (Discovery.searchRoot root h.rules)
          (observe (.corpusReady status) (provide root s).2).2).1 = listing ∧
        .listing (Discovery.searchRoot root h.rules) listing ∈ journal ∧
        found = .find root h.rules h.maxTests listing ∧
        (∀ limit, h.maxTests = some limit → found.cases.length ≤ limit.toNat) ∧
        course journal = .told (.corpusReady status) ::
          .told (.discovered found.cases.length found.notice) :: stages ∧
        ((∃ tally, (h.runWith p observe provide root s).1 = .ok ⟨status, found.notice, tally⟩ ∧
            h.Completed p observe found (h.beforeTests p observe root status (provide root s).2)
              tests stages tally (h.runWith p observe provide root s).2) ∨
          ∃ e, (h.runWith p observe provide root s).1 = .error (.crash e) ∧
            h.Interrupted p observe found (h.beforeTests p observe root status (provide root s).2)
              tests stages e (h.runWith p observe provide root s).2) ∧
        (∀ time : σ → Nat, p.ClockLaws time →
          ((∃ tally, (h.runWith p observe provide root s).1 = .ok ⟨status, found.notice, tally⟩) ↔
            h.Unhindered p observe found
              (h.beforeTests p observe root status (provide root s).2))) ∧
        (listing = none → found.cases = [] ∧
          found.notice = some (.missingRoot (Discovery.searchRoot root h.rules)) ∧
          (h.runWith p observe provide root s).1
            = .ok ⟨status, found.notice, .empty h.sampleLimit⟩) := by
  have hprovide : Journals s (provide root) (provided provide root) fun deeds answer t ↦
      deeds = [.provide root answer] ∧ provide root s = (answer, t) := .note ⟨rfl, rfl⟩
  have hjournals : Journals s (h.runWith p observe provide root)
      (h.runWith p.recorded (observed .tell observe) (provided provide) root) _ :=
    journals_runWith hprovide
  obtain ⟨journal, hrun, _, answer, t, rest, rfl, ⟨rfl, hanswer⟩, hfollows⟩ := hjournals []
  refine ⟨_, hrun, ?_⟩
  rw [hanswer]
  generalize h.runWith p observe provide root s = ending at hfollows ⊢
  obtain ⟨result, u⟩ := ending
  cases hfollows with
  | fault f => exact ⟨rfl, rfl⟩
  | @ready _ _ status listing hlisting found hfound tests deeds result htesting =>
    refine ⟨listing, found, course deeds, tests, hlisting, ?_, hfound, ?_, rfl, ?_, ?_, ?_⟩
    · exact List.mem_cons_of_mem _ (List.mem_cons_of_mem _ List.mem_cons_self)
    · intro limit hlimit
      rw [hfound, hlimit]
      exact length_cases_find_le listing
    · cases result with
      | error e => exact .inr ⟨e, rfl, interrupted_of_testing htesting⟩
      | ok tally => exact .inl ⟨tally, rfl, completed_of_testing htesting⟩
    · intro time laws
      rw [← exists_tally_iff_unhindered laws htesting]
      cases result with
      | error e => exact iff_of_false nofun nofun
      | ok tally => exact iff_of_true ⟨tally, rfl⟩ ⟨tally, rfl⟩
    · intro hnone
      rw [hnone] at hfound
      have hcases : found.cases = [] := by rw [hfound]; rfl
      rw [hcases] at htesting
      refine ⟨hcases, by rw [hfound]; rfl, ?_⟩
      cases htesting with
      | done => rfl

end Journal

/-! ## A single test -/

/-- A stopwatch on which every directory lists one file. -/
def bench : Platform Nat where
  __ := Executor.stopwatch
  listing _ := pure (some [("a.js", .file)])

theorem bench_clockLaws : bench.ClockLaws id :=
  Executor.clockLaws_of_stopwatch rfl rfl (fun _ _ ↦ rfl) rfl

/-- A test that runs into its limit is the last of its run, and it is counted. -/
theorem runWith_course_late_test :
    let h : Harness := ⟨⟨⟨"t"⟩, .ofSecs 1, ""⟩, ⟨"test", "js", ""⟩, none, 2⟩
    bench.ClockLaws id ∧
      ∃ found tests stages tally ending,
        h.runWith bench (fun _ ↦ pure ()) (fun _ ↦ pure (.ok .alreadyPresent)) ⟨"c"⟩ 0 = ending ∧
        ending.1 = .ok ⟨.alreadyPresent, none, tally⟩ ∧
        h.Completed bench (fun _ ↦ pure ()) found 0 tests stages tally ending.2 ∧
        found.cases = [⟨"test/a.js", ⟨"c/test/a.js"⟩⟩] ∧ tally.total = 1 := by
  intro h
  obtain ⟨journal, -, listing, found, stages, tests, rfl, -, hfound, -, -, hends, hfree, -⟩ :=
    runWith_course h bench (fun _ ↦ pure ()) (fun _ ↦ pure (.ok .alreadyPresent)) ⟨"c"⟩ 0
  have hfound' : found = ⟨[⟨"test/a.js", ⟨"c/test/a.js"⟩⟩], none⟩ := by
    rw [hfound]
    decide +kernel
  have hunhindered : h.Unhindered bench (fun _ ↦ pure ()) found 0 := by
    rw [hfound']
    exact ⟨⟨by decide +kernel, fun _ _ _ ↦ trivial⟩, by decide⟩
  obtain ⟨tally, htally⟩ := (hfree id bench_clockLaws).mpr hunhindered
  obtain ⟨tally, hrun, hcompleted⟩ | ⟨e, hcrash, -⟩ := hends
  · have htotal := hcompleted.total
    rw [hfound'] at hrun htotal
    exact ⟨bench_clockLaws, found, tests, stages, tally, _, rfl, hrun, hcompleted,
      by rw [hfound'], UInt64.toNat_inj.mp htotal⟩
  · cases htally.symm.trans hcrash

/-- With the longest limit that a configuration accepts, the run stops at the one test that it has
found, which gives no outcome. -/
theorem runWith_longest_timeout_stops :
    ∃ c, Config.ofText "timeout_secs: 18446744073709551615\n" = .ok c ∧
      (Harness.ofConfig ⟨"t"⟩ c none).runWith bench.recorded (observed .tell fun _ ↦ pure ())
          (provided fun _ ↦ pure (.ok .alreadyPresent)) ⟨"c"⟩ (0, []) =
        (.error (.crash .deadlineOverflow), 0,
          [.provide ⟨"c"⟩ (.ok .alreadyPresent), .tell (.corpusReady .alreadyPresent),
            .listing ⟨"c/test"⟩ (some [("a.js", .file)]), .tell (.discovered 1 none),
            .spawn ⟨"t"⟩ ["c/test/a.js"] (.ok ⟨1⟩), .now ⟨0⟩]) := by
  refine ⟨{ Config.standard with timeoutSecs := 18446744073709551615 }, ?_, ?_⟩
  · exact eq_ok_of_toOption (by decide +kernel)
  · rfl

end Harness

end Conformance
