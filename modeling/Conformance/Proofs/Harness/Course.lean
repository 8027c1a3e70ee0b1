import Conformance.Proofs.Executor.Deadline
import Conformance.Proofs.Tally.Accounting
/-!
# The course of a run

The course of a run is what can be seen of it from outside, read off its journal: the programs that
were started and the events that the observer was told. `Testing` follows the loop over the tests.
It has one case for a test that gave an outcome and one for a test that crashed, so it says at once
which tests were executed, what was told, and where the loop stopped.
-/

namespace Conformance

/-- A stage of a run. -/
inductive Stage where
  | started (program : Path) (arguments : List String)
  | told (event : RunEvent)
  deriving DecidableEq, Repr

/-- The stage that a deed amounts to, if any. -/
def Deed.stage? : Deed → Option Stage
  | .spawn program arguments _ => some (.started program arguments)
  | .runToEnd program arguments _ => some (.started program arguments)
  | .tell event => some (.told event)
  | _ => none

/-- The stages of a journal, in order. -/
def course (deeds : List Deed) : List Stage := deeds.filterMap Deed.stage?

@[simp] theorem course_append (deeds deeds' : List Deed) :
    course (deeds ++ deeds') = course deeds ++ course deeds' :=
  List.filterMap_append

theorem course_cons (d : Deed) (deeds : List Deed) :
    course (d :: deeds) = course [d] ++ course deeds :=
  course_append [d] deeds

theorem course_eq_nil {deeds : List Deed} (h : ∀ d ∈ deeds, d.stage? = none) :
    course deeds = [] :=
  List.filterMap_eq_nil_iff.mpr h

theorem Deed.WaitsFor.stage?_eq {child : Child} {d : Deed} (h : d.WaitsFor child) :
    d.stage? = none := by
  cases h <;> rfl

theorem Deed.Joins.stage?_eq {child : Child} {d : Deed} (h : d.Joins child) :
    d.stage? = none := by
  cases h <;> rfl

/-! ## One test -/

namespace Executor

variable {σ : Type} {x : Executor} {p : Platform σ}

/-- A test starts one program, the target, however it goes on. -/
theorem Attempt.course_eq {case : TestCase} {deeds : List Deed} {result : Except Crash Outcome}
    (h : Attempt x case deeds result) :
    course deeds = [.started x.target [case.path.text]] := by
  cases h with
  | refused e => rfl
  | endless child start h => rfl
  | unread child start deadline h hstarts => cases hstarts <;> rfl
  | cleaned child start deadline h waits joins hwaits completion joined hjoins =>
    have hw : course waits = [] := course_eq_nil fun d hd ↦ (hwaits d hd).stage?_eq
    have hj : course joins = [] := course_eq_nil fun d hd ↦ (hjoins.joins d hd).stage?_eq
    change _ :: course (waits ++ .killGroup child :: .killChild child :: .reap child :: joins) = _
    rw [course_append, hw]
    change _ :: course joins = _
    rw [hj]

/-! ## The loop over the tests -/

/-- The stages of tests that gave an outcome, the first of them the `index`-th of `total`, where an
event is seen as `told` says. -/
def testStages (target : Path) (told : RunEvent → List Stage) (total : Nat) :
    Nat → List (TestCase × Outcome) → List Stage
  | _, [] => []
  | index, (case, o) :: tests =>
    .started target [case.path.text] :: (told (.testFinished index total o) ++
      testStages target told total (index + 1) tests)

/-- Tests that ran one after the other from the state `s` to the state behind them, the first of
them as the `index`-th of `total`. Each gave its outcome in the state that was left for it, and the
observer was told of it before the next one started. -/
inductive InTurn (x : Executor) (p : Platform σ) (observe : RunEvent → StateM σ Unit)
    (total : Nat) : Nat → σ → List (TestCase × Outcome) → σ → Prop
  | nil (index : Nat) (s : σ) : InTurn x p observe total index s [] s
  | cons {index : Nat} {s t u v : σ} {case : TestCase} {o : Outcome}
    {tests : List (TestCase × Outcome)} (hrun : x.run p case s = (.ok o, t))
    (hobserve : observe (.testFinished index total o) t = ((), u))
    (h : InTurn x p observe total (index + 1) u tests v) :
    InTurn x p observe total index s ((case, o) :: tests) v

theorem InTurn.head {observe : RunEvent → StateM σ Unit} {total index : Nat} {s t : σ}
    {test : TestCase × Outcome} {tests : List (TestCase × Outcome)}
    (h : x.InTurn p observe total index s (test :: tests) t) :
    ∃ u, x.run p test.1 s = (.ok test.2, u) := by
  cases h with
  | cons hrun hobserve h => exact ⟨_, hrun⟩

/-- Executing tests from the `index`-th on and adding them to a tally: those that gave an outcome,
the journal, what it comes to and the state behind. Events are noted as `told` says. -/
inductive Testing (x : Executor) (p : Platform σ) (observe : RunEvent → StateM σ Unit)
    (told : RunEvent → Deed) (total : Nat) :
    Nat → σ → Tally → List TestCase → List (TestCase × Outcome) → List Deed →
      Except Crash Tally → σ → Prop
  | done (index : Nat) (s : σ) (tally : Tally) :
    Testing x p observe told total index s tally [] [] [] (.ok tally) s
  /-- Running a test crashed. -/
  | crashed {s t : σ} {case : TestCase} {deeds : List Deed} {e : Crash} (index : Nat)
    (tally : Tally) (cases : List TestCase) (h : Attempt x case deeds (.error e))
    (hrun : x.run p case s = (.error e, t)) :
    Testing x p observe told total index s tally (case :: cases) [] deeds (.error e) t
  /-- Counting an outcome crashed. -/
  | overflowed {s t u : σ} {case : TestCase} {deeds : List Deed} {o : Outcome} {tally : Tally}
    {e : Crash} {index : Nat} (cases : List TestCase) (h : Attempt x case deeds (.ok o))
    (hrun : x.run p case s = (.ok o, t))
    (hobserve : observe (.testFinished index total o) t = ((), u))
    (hrecord : tally.record o = .error e) :
    Testing x p observe told total index s tally (case :: cases) [(case, o)]
      (deeds ++ [told (.testFinished index total o)]) (.error e) u
  | tested {s t u v : σ} {case : TestCase} {deeds deeds' : List Deed} {o : Outcome} {index : Nat}
    {tally tally' : Tally} {cases : List TestCase} {tests : List (TestCase × Outcome)}
    {result : Except Crash Tally} (h : Attempt x case deeds (.ok o))
    (hrun : x.run p case s = (.ok o, t))
    (hobserve : observe (.testFinished index total o) t = ((), u))
    (hrecord : tally.record o = .ok tally')
    (hrest : Testing x p observe told total (index + 1) u tally' cases tests deeds' result v) :
    Testing x p observe told total index s tally (case :: cases) ((case, o) :: tests)
      (deeds ++ told (.testFinished index total o) :: deeds') result v

namespace Testing

variable {observe : RunEvent → StateM σ Unit} {told : RunEvent → Deed} {total index : Nat}
  {s t : σ} {tally : Tally} {cases : List TestCase} {tests : List (TestCase × Outcome)}
  {deeds : List Deed} {result : Except Crash Tally}

/-- Every outcome names its test. -/
theorem named (h : Testing x p observe told total index s tally cases tests deeds result t) :
    ∀ test ∈ tests, test.2.test = test.1.id := by
  induction h with
  | done index s tally => exact List.forall_mem_nil _
  | crashed index tally cases h hrun => exact List.forall_mem_nil _
  | overflowed cases h hrun hobserve hrecord => exact List.forall_mem_singleton.mpr h.test_eq
  | tested h hrun hobserve hrecord hrest ih => exact List.forall_mem_cons.mpr ⟨h.test_eq, ih⟩

/-- Without a crash every test is executed, in order, told of and counted. -/
theorem complete {tally' : Tally}
    (h : Testing x p observe told total index s tally cases tests deeds (.ok tally') t) :
    tests.map (·.1) = cases ∧ x.InTurn p observe total index s tests t ∧
      course deeds = testStages x.target (course [told ·]) total index tests ∧
      tally.recordAll (tests.map (·.2)) = .ok tally' := by
  generalize hresult : Except.ok tally' = result at h
  induction h with
  | done index s tally => exact ⟨rfl, .nil index s, rfl, rfl⟩
  | crashed index tally cases h hrun => cases hresult
  | overflowed cases h hrun hobserve hrecord => cases hresult
  | @tested s t u v case deeds deeds' o index tally tally'' cases tests result h hrun hobserve
      hrecord hrest ih =>
    obtain ⟨hcases, hturn, hcourse, hcount⟩ := ih hresult
    refine ⟨congrArg (case :: ·) hcases, .cons hrun hobserve hturn, ?_, ?_⟩
    · rw [course_append, course_cons, h.course_eq, hcourse]
      rfl
    · rw [List.map_cons, Tally.recordAll_cons, hrecord]
      exact hcount

/-- With a crash the tests before it are executed and told of. Either the next one has crashed,
which was started then, or the last outcome could not be counted. -/
theorem interrupted {e : Crash}
    (h : Testing x p observe told total index s tally cases tests deeds (.error e) t) :
    (∃ case rest u, cases = tests.map (·.1) ++ case :: rest ∧
      x.InTurn p observe total index s tests u ∧ x.run p case u = (.error e, t) ∧
      course deeds = testStages x.target (course [told ·]) total index tests
        ++ [.started x.target [case.path.text]]) ∨
    ∃ rest, cases = tests.map (·.1) ++ rest ∧ x.InTurn p observe total index s tests t ∧
      tally.recordAll (tests.map (·.2)) = .error e ∧
      course deeds = testStages x.target (course [told ·]) total index tests := by
  generalize hresult : Except.error e = result at h
  induction h with
  | done index s tally => cases hresult
  | @crashed s t case deeds e' index tally cases h hrun =>
    cases hresult
    exact .inl ⟨case, cases, s, rfl, .nil index s, hrun, h.course_eq⟩
  | @overflowed s t u case deeds o tally e' index cases h hrun hobserve hrecord =>
    cases hresult
    refine .inr ⟨cases, rfl, .cons hrun hobserve (.nil _ u), ?_, ?_⟩
    · rw [List.map_singleton, Tally.recordAll_cons, hrecord]
      rfl
    · rw [course_append, h.course_eq, testStages, testStages, List.append_nil]
      rfl
  | @tested s t u v case deeds deeds' o index tally tally' cases tests result h hrun hobserve
      hrecord hrest ih =>
    have hdeeds : course (deeds ++ told (.testFinished index total o) :: deeds')
        = .started x.target [case.path.text] ::
          (course [told (.testFinished index total o)] ++ course deeds') := by
      rw [course_append, course_cons, h.course_eq]
      rfl
    rw [hdeeds]
    obtain ⟨case', rest, w, hcases, hturn, hcrash, hcourse⟩ | ⟨rest, hcases, hturn, hcount,
      hcourse⟩ := ih hresult
    · refine .inl ⟨case', rest, w, by rw [hcases]; rfl, .cons hrun hobserve hturn, hcrash, ?_⟩
      rw [hcourse, testStages, List.cons_append, List.append_assoc]
    · refine .inr ⟨rest, by rw [hcases]; rfl, .cons hrun hobserve hturn, ?_, by rw [hcourse]; rfl⟩
      rw [List.map_cons, Tally.recordAll_cons, hrecord]
      exact hcount

end Testing

/-! ## Tests in time -/

section InTime

variable {time : σ → Nat} {observe : RunEvent → StateM σ Unit} {total index : Nat} {s u : σ}
  {tests : List (TestCase × Outcome)}

/-- Whenever the turn of a test comes, in a run from the state `s` on, the test is over before the
clock ends. The first test is the `index`-th of `total`. -/
def AllInTime (x : Executor) (p : Platform σ) (observe : RunEvent → StateM σ Unit) (total : Nat) :
    Nat → σ → List TestCase → Prop
  | _, _, [] => True
  | index, s, case :: cases =>
    x.InTime p case s ∧ ∀ o t, x.run p case s = (.ok o, t) →
      AllInTime x p observe total (index + 1) (observe (.testFinished index total o) t).2 cases

/-- When all tests are in time, so is each, in the state that those before it leave. -/
theorem AllInTime.inTime {case : TestCase} {cases rest : List TestCase}
    (h : x.AllInTime p observe total index s cases)
    (hturn : x.InTurn p observe total index s tests u)
    (hcases : cases = tests.map (·.1) ++ case :: rest) : x.InTime p case u := by
  subst hcases
  induction hturn with
  | nil index s => exact h.1
  | cons hrun hobserve hturn ih =>
    have hrest := h.2 _ _ hrun
    rw [hobserve] at hrest
    exact ih hrest

/-- When all tests are in time, only the tally can stop the loop over them. -/
theorem AllInTime.interrupted (laws : p.ClockLaws time) {told : RunEvent → Deed} {tally : Tally}
    {cases : List TestCase} {deeds : List Deed} {e : Crash}
    (htime : x.AllInTime p observe total index s cases)
    (h : x.Testing p observe told total index s tally cases tests deeds (.error e) u) :
    ∃ rest, cases = tests.map (·.1) ++ rest ∧ x.InTurn p observe total index s tests u ∧
      tally.recordAll (tests.map (·.2)) = .error e := by
  obtain ⟨case, rest, v, hcases, hturn, hcrash, -⟩ | ⟨rest, hcases, hturn, hcount, -⟩ :=
    h.interrupted
  · -- The test that crashed was in time, so it gave an outcome.
    obtain ⟨o, ho⟩ := exists_run_of_inTime laws (htime.inTime hturn hcases)
    cases (congrArg Prod.fst hcrash).symm.trans ho
  · exact ⟨rest, hcases, hturn, hcount⟩

/-- Tests that all had their turn were all in time. -/
theorem InTurn.allInTime (laws : p.ClockLaws time)
    (h : x.InTurn p observe total index s tests u) :
    x.AllInTime p observe total index s (tests.map (·.1)) := by
  induction h with
  | nil index s => exact trivial
  | cons hrun hobserve h ih =>
    refine ⟨inTime_of_run laws (congrArg Prod.fst hrun), fun o t ht ↦ ?_⟩
    cases hrun.symm.trans ht
    rw [hobserve]
    exact ih

end InTime

end Executor

end Conformance
