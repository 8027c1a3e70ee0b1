import Mathlib.Data.List.Forall2
import Conformance.Proofs.Harness.Course
/-!
# The children of a run

A child that was started is cleaned up in two steps: its group is killed, and then it is reaped.
`Wards` follows both through a journal, so the children left over can be counted at every point of
it. A reap without the kill before it cleans nothing up, and neither does a kill before the start.

The journal of a run over tests falls into blocks, one for each test, and a block ends with the event
that reports its outcome. Along a block at most one child is left over, and none where the event is
told, so blocks can follow each other in any number.
-/

namespace Conformance

/-! ## Children left over -/

/-- The children in the care of a run. -/
structure Wards where
  /-- Those whose group was not killed. -/
  running : List Child
  /-- Those whose group was killed, and who were not reaped. -/
  killed : List Child
  deriving DecidableEq, Repr

namespace Wards

/-- Nobody in care. -/
def none : Wards := ⟨[], []⟩

/-- All those in care. -/
def all (w : Wards) : List Child := w.running ++ w.killed

/-- Those in care after one more deed. -/
def after (w : Wards) : Deed → Wards
  | .spawn _ _ (.ok child) => { w with running := child :: w.running }
  | .killGroup child =>
    if child ∈ w.running then ⟨w.running.erase child, child :: w.killed⟩ else w
  | .reap child => { w with killed := w.killed.erase child }
  | _ => w

/-- From `w` on at most one child is in care at every point of some deeds, and none where the
observer is told of an event. -/
def Orderly : Wards → List Deed → Prop
  | w, [] => w.all.length ≤ 1
  | w, d :: deeds =>
    w.all.length ≤ 1 ∧ (∀ event, d = .tell event → w.all = []) ∧ Orderly (w.after d) deeds

variable {w : Wards} {deeds deeds' : List Deed}

theorem Orderly.length_le (h : w.Orderly deeds) : w.all.length ≤ 1 := by
  cases deeds with
  | nil => exact h
  | cons d deeds => exact h.1

theorem orderly_append :
    w.Orderly (deeds ++ deeds') ↔ w.Orderly deeds ∧ (deeds.foldl after w).Orderly deeds' := by
  induction deeds generalizing w with
  | nil => exact ⟨fun h ↦ ⟨Orderly.length_le h, h⟩, And.right⟩
  | cons d deeds ih =>
    rw [List.cons_append, Orderly, Orderly, ih, List.foldl_cons, and_assoc, and_assoc]

end Wards

/-- The children that a journal started and did not clean up. -/
def uncleaned (journal : List Deed) : List Child := (journal.foldl Wards.after .none).all

section Orderly

variable {journal before rest : List Deed} {event : RunEvent}

theorem length_uncleaned_le (h : Wards.none.Orderly journal) (hbefore : before <+: journal) :
    (uncleaned before).length ≤ 1 := by
  obtain ⟨rest, rfl⟩ := hbefore
  exact (Wards.orderly_append.mp h).2.length_le

theorem uncleaned_eq_nil_of_tell (h : Wards.none.Orderly (before ++ .tell event :: rest)) :
    uncleaned before = [] :=
  (Wards.orderly_append.mp h).2.2.1 event rfl

end Orderly

/-- A deed that changes nothing about the children in care, and that the observer is not told of. -/
structure Deed.Idle (d : Deed) : Prop where
  after_eq (w : Wards) : w.after d = w
  ne_tell (event : RunEvent) : d ≠ .tell event

theorem Deed.WaitsFor.idle {child : Child} {d : Deed} (h : d.WaitsFor child) : d.Idle := by
  cases h <;> exact ⟨fun _ ↦ rfl, nofun⟩

theorem Deed.Joins.idle {child : Child} {d : Deed} (h : d.Joins child) : d.Idle := by
  cases h <;> exact ⟨fun _ ↦ rfl, nofun⟩

namespace Wards

variable {w : Wards} {deeds : List Deed}

theorem foldl_of_idle (h : ∀ d ∈ deeds, d.Idle) : deeds.foldl after w = w := by
  induction deeds with
  | nil => rfl
  | cons d deeds ih =>
    obtain ⟨hd, hdeeds⟩ := List.forall_mem_cons.mp h
    rw [List.foldl_cons, hd.after_eq, ih hdeeds]

theorem orderly_of_idle (h : ∀ d ∈ deeds, d.Idle) (hw : w.all.length ≤ 1) : w.Orderly deeds := by
  induction deeds with
  | nil => exact hw
  | cons d deeds ih =>
    obtain ⟨hd, hdeeds⟩ := List.forall_mem_cons.mp h
    refine ⟨hw, fun event e ↦ absurd e (hd.ne_tell event), ?_⟩
    rw [hd.after_eq]
    exact ih hdeeds

end Wards

/-! ## Blocks -/

namespace Executor

variable {σ : Type} {x : Executor} {p : Platform σ} {observe : RunEvent → StateM σ Unit}

/-- The journal of the `index`-th of `total` tests: what running the test did, and then the report of
its outcome. -/
inductive Block (x : Executor) (total : Nat) : TestCase × Nat → List Deed → Prop
  | mk {case : TestCase} {index : Nat} {deeds : List Deed} {o : Outcome}
    (h : Attempt x case deeds (.ok o)) :
    Block x total (case, index) (deeds ++ [.tell (.testFinished index total o)])

/-- A test that gave an outcome has cleaned up when it is over, and had but one child to care for. -/
theorem Attempt.orderly {case : TestCase} {deeds : List Deed} {o : Outcome}
    (h : Attempt x case deeds (.ok o)) :
    Wards.none.Orderly deeds ∧ deeds.foldl Wards.after .none = .none := by
  generalize hr : Except.ok o = result at h
  cases h with
  | refused e => exact ⟨⟨Nat.zero_le 1, nofun, Nat.zero_le 1⟩, rfl⟩
  | endless child start h => cases hr
  | unread child start deadline h hstarts => cases hr
  | cleaned child start deadline h waits joins hwaits completion joined hjoins =>
    have hw : ∀ d ∈ waits, d.Idle := fun d hd ↦ (hwaits d hd).idle
    have hj : ∀ d ∈ joins, d.Idle := fun d hd ↦ (hjoins.joins d hd).idle
    let running : Wards := ⟨[child], []⟩
    let killed : Wards := ⟨[], [child]⟩
    have hkill : running.after (.killGroup child) = killed := by
      simp [running, killed, Wards.after]
    have hreap : killed.after (.reap child) = .none := by
      simp [killed, Wards.none, Wards.after]
    -- Up to the kill the child runs, up to the reap it is dead, and nobody is in care behind that.
    have hbehind : killed.Orderly (.reap child :: joins) :=
      ⟨Nat.le_refl 1, nofun, hreap ▸ Wards.orderly_of_idle hj (Nat.zero_le 1)⟩
    have hcleaned : running.Orderly (.killGroup child :: .killChild child :: .reap child :: joins) :=
      ⟨Nat.le_refl 1, nofun, hkill ▸ ⟨Nat.le_refl 1, nofun, hbehind⟩⟩
    have hwaited : running.Orderly
        (waits ++ .killGroup child :: .killChild child :: .reap child :: joins) := by
      rw [Wards.orderly_append, Wards.foldl_of_idle hw]
      exact ⟨Wards.orderly_of_idle hw (Nat.le_refl 1), hcleaned⟩
    -- The clock is read and the readers are started while the child runs.
    have hstarted : running.Orderly (.startReader child .stdout true ::
        .startReader child .stderr true ::
        (waits ++ .killGroup child :: .killChild child :: .reap child :: joins)) :=
      ⟨Nat.le_refl 1, nofun, Nat.le_refl 1, nofun, hwaited⟩
    refine ⟨⟨Nat.zero_le 1, nofun, Nat.le_refl 1, nofun, hstarted⟩, ?_⟩
    change List.foldl Wards.after running (waits ++ _) = _
    rw [List.foldl_append, Wards.foldl_of_idle hw, List.foldl_cons, List.foldl_cons, List.foldl_cons,
      hkill]
    change List.foldl Wards.after (killed.after (.reap child)) joins = _
    rw [hreap, Wards.foldl_of_idle hj]

theorem Block.orderly {total : Nat} {test : TestCase × Nat} {block : List Deed}
    (h : Block x total test block) :
    Wards.none.Orderly block ∧ block.foldl Wards.after .none = .none := by
  cases h with
  | mk h =>
    obtain ⟨horderly, hnone⟩ := h.orderly
    refine ⟨Wards.orderly_append.mpr ⟨horderly, ?_⟩, ?_⟩
    · rw [hnone]
      exact ⟨Nat.zero_le 1, fun _ _ ↦ rfl, Nat.zero_le 1⟩
    · rw [List.foldl_append, hnone]
      rfl

/-- Blocks can follow each other. -/
theorem orderly_blocks {total : Nat} {tests : List (TestCase × Nat)} {blocks : List (List Deed)}
    (h : List.Forall₂ (x.Block total) tests blocks) :
    Wards.none.Orderly blocks.flatten ∧ blocks.flatten.foldl Wards.after .none = .none := by
  induction h with
  | nil => exact ⟨Nat.zero_le 1, rfl⟩
  | cons hblock hblocks ih =>
    obtain ⟨horderly, hnone⟩ := hblock.orderly
    rw [List.flatten_cons, Wards.orderly_append, List.foldl_append, hnone]
    exact ⟨⟨horderly, ih.1⟩, ih.2⟩

end Executor

/-! ## Runs -/

namespace Harness

variable {σ : Type} {p : Platform σ} {time : σ → Nat} {observe : RunEvent → StateM σ Unit}

-- As for single tests, the rules for journals look for `noting`.
attribute [local irreducible] noting

/-- The loop over the tests adds one block for every test, until its tally is full. -/
theorem journals_runFrom_blocks (laws : p.ClockLaws time) (h : Harness) (total index : Nat)
    {tally : Tally} (htally : tally.Balanced) (cases : List TestCase) {s : σ}
    (htime : h.executor.AllInTime p observe total index s cases) :
    Journals s (h.runFrom p observe total index tally cases)
      (h.runFrom p.recorded (observed .tell observe) total index tally cases)
      fun deeds result _ ↦ ∃ tested blocks, tested <+: cases ∧ deeds = blocks.flatten ∧
        List.Forall₂ (h.executor.Block total) (tested.zipIdx index) blocks ∧
        ((∃ tally', result = .ok tally' ∧ tested = cases) ∨
          UInt64.size ≤ tally.total.toNat + tested.length) := by
  induction cases generalizing index tally s with
  | nil =>
    exact .pure ⟨[], [], List.prefix_refl _, rfl, .nil, .inl ⟨tally, rfl, rfl⟩⟩
  | cons case cases ih =>
    obtain ⟨hintime, hrest⟩ := htime
    obtain ⟨o, ho⟩ := Executor.exists_run_of_inTime laws hintime
    refine (Executor.journals_run h.executor case s).and_eq.bind ?_
    rintro deeds result t ⟨hattempt, hrun⟩
    rw [hrun] at ho
    cases ho
    refine .note_bind ?_
    intro _ u hobserve
    have hblock : h.executor.Block total (case, index)
        (deeds ++ [.tell (.testFinished index total o)]) := .mk hattempt
    split
    · -- The tally is full, so its total has no room left for one test more.
      rename_i e hrecord
      have hfull : ¬ tally.total.toNat + 1 < UInt64.size := by
        intro hroom
        obtain ⟨tally', h'⟩ := Tally.exists_record o htally hroom
        cases hrecord.symm.trans h'
      refine .pure ⟨[case], [_], ?_, ?_, .cons hblock .nil, .inr (Nat.le_of_not_lt hfull)⟩
      · exact ⟨cases, rfl⟩
      · rw [List.flatten_singleton]
    · rename_i tally' hrecord
      have haccounts := Tally.accounts_of_record hrecord
      have hu := hrest o t hrun
      rw [hobserve] at hu
      refine (ih (index + 1) (haccounts.balanced htally) hu).mono ?_
      rintro deeds' result v ⟨tested, blocks, hprefix, rfl, hblocks, hend⟩
      refine ⟨case :: tested, _ :: blocks, ?_, ?_, .cons hblock hblocks, ?_⟩
      · exact List.cons_prefix_cons.mpr ⟨rfl, hprefix⟩
      · rw [List.flatten_cons, List.append_assoc]
        rfl
      · refine hend.imp ?_ ?_
        · rintro ⟨tally'', rfl, rfl⟩
          exact ⟨tally'', rfl, rfl⟩
        · intro hle
          rw [haccounts.total, List.length_singleton] at hle
          rw [List.length_cons]
          omega

/-- **The children of a run.** On a clock that goes on and that reaches all deadlines, and if all
readers start, the journal of a run over tests is one block after the other, for the tests in their
order. All tests have one, unless more outcomes were reported than a counter counts. A block is the
refused start of a target, or a start with its two readers, the wait for the child, the kill of its
group, the reap, and the bounded joins of its readers; and then the report of the outcome. So at most
one child is left over at any point, and none where an outcome is reported or in the end. -/
theorem runCases_lifecycle (laws : p.ClockLaws time) (h : Harness) (cases : List TestCase) (s : σ)
    (htime : h.executor.AllInTime p observe cases.length 1 s cases) :
    ∃ journal tested blocks,
      h.runCases p.recorded (observed .tell observe) cases (s, [])
        = ((h.runCases p observe cases s).1, (h.runCases p observe cases s).2, journal) ∧
      journal = blocks.flatten ∧
      List.Forall₂ (h.executor.Block cases.length) (tested.zipIdx 1) blocks ∧
      tested <+: cases ∧
      ((∃ tally, (h.runCases p observe cases s).1 = .ok tally ∧ tested = cases) ∨
        UInt64.size ≤ tested.length) ∧
      (∀ before, before <+: journal → (uncleaned before).length ≤ 1) ∧
      (∀ before event rest, journal = before ++ .tell event :: rest → uncleaned before = []) ∧
      uncleaned journal = [] := by
  have hjournals := journals_runFrom_blocks laws h cases.length 1
    (Tally.balanced_empty h.sampleLimit) cases htime
  obtain ⟨_, hrun, tested, blocks, hprefix, rfl, hblocks, hend⟩ := hjournals []
  rw [List.nil_append] at hrun
  obtain ⟨horderly, hnone⟩ := Executor.orderly_blocks hblocks
  refine ⟨blocks.flatten, tested, blocks, hrun, rfl, hblocks, hprefix, ?_, ?_, ?_, ?_⟩
  · rwa [Tally.empty, UInt64.toNat_zero, Nat.zero_add] at hend
  · exact fun before ↦ length_uncleaned_le horderly
  · intro before event rest hsplit
    rw [hsplit] at horderly
    exact uncleaned_eq_nil_of_tell horderly
  · rw [uncleaned, hnone]
    rfl

/-! ## A workbench -/

/-- A stopwatch on which the test `a` does not start, the test `b` cannot be polled, and every other
test runs without end. -/
def workbench : Platform Nat where
  __ := Executor.stopwatch
  spawn _ arguments := pure <|
    if arguments = ["a"] then .error .noEntry else .ok ⟨if arguments = ["b"] then 1 else 2⟩
  poll child := pure (if child.pid = 1 then .error .denied else .ok none)

theorem workbench_clockLaws : workbench.ClockLaws id :=
  Executor.clockLaws_of_stopwatch rfl rfl (fun _ _ ↦ rfl) rfl

/-- One test of each kind, each with a limit of one second. -/
theorem runCases_lifecycle_three_tests :
    let h : Harness := ⟨⟨⟨"t"⟩, .ofSecs 1, ""⟩, ⟨"test", "js", ""⟩, none, 2⟩
    let cases : List TestCase := [⟨"a", ⟨"a"⟩⟩, ⟨"b", ⟨"b"⟩⟩, ⟨"c", ⟨"c"⟩⟩]
    workbench.ClockLaws id ∧ h.executor.AllInTime workbench (fun _ ↦ pure ()) 3 1 0 cases ∧
      ∃ journal tested blocks,
        (h.runCases workbench.recorded (observed .tell fun _ ↦ pure ()) cases (0, [])).2.2
          = journal ∧
        journal = blocks.flatten ∧
        List.Forall₂ (h.executor.Block 3) (tested.zipIdx 1) blocks ∧ tested = cases ∧
        uncleaned journal = [] := by
  intro h cases
  have htime : h.executor.AllInTime workbench (fun _ ↦ pure ()) cases.length 1 0 cases := by
    have hb : h.executor.run workbench ⟨"b", ⟨"b"⟩⟩ 0 = (.ok (.fail "b" IoError.denied.message), 0) :=
      Prod.ext (eq_ok_of_toOption (by decide +kernel)) (by decide +kernel)
    refine ⟨Executor.inTime_of_refused rfl, ?_⟩
    rintro o t ⟨⟩
    refine ⟨by decide +kernel, ?_⟩
    intro o t ht
    cases hb.symm.trans ht
    exact ⟨by decide +kernel, fun _ _ _ ↦ trivial⟩
  obtain ⟨journal, tested, blocks, hrun, hflatten, hblocks, hprefix, hend, -, -, hclean⟩ :=
    runCases_lifecycle workbench_clockLaws h cases 0 htime
  refine ⟨workbench_clockLaws, htime, journal, tested, blocks, by rw [hrun], hflatten, hblocks, ?_,
    hclean⟩
  obtain ⟨-, -, htested⟩ | hlong := hend
  · exact htested
  · have hlength : tested.length ≤ 3 := hprefix.length_le
    exact absurd (Nat.le_trans hlong hlength) (by decide)

end Harness

end Conformance
