import Conformance.Tally
/-!
# What a tally accounts for

`Accounts s os t` says in full how a tally `t` comes out of a tally `s` by recording the outcomes
`os`: what every counter gains, and which samples are new. One step accounts for one outcome and
accounts compose, so any run of steps accounts for its list of outcomes.

No counter of a balanced tally is greater than its total. A balanced tally whose total has room for
a list of outcomes therefore has room for it in every counter, and stays balanced with each step.
-/

namespace Conformance

/-- The sample that a failing outcome is kept as. -/
def FailureSample.ofOutcome (o : Outcome) : FailureSample := ⟨o.test, o.detail⟩

namespace Tally

/-- The total is what the other counters add up to. -/
def Balanced (t : Tally) : Prop :=
  t.total.toNat = t.passed.toNat + t.failed.toNat + t.skipped.toNat

/-- How many more samples a tally takes. -/
def sampleRoom (t : Tally) : Nat := t.sampleLimit.toNat - t.failures.size

/-- The samples of the failing ones among some outcomes, in order. -/
def samplesOf (os : List Outcome) : List FailureSample :=
  (os.filter (·.isFailure)).map .ofOutcome

/-- The tally `t` is the tally `s` with some outcomes recorded. -/
structure Accounts (s : Tally) (os : List Outcome) (t : Tally) : Prop where
  total : t.total.toNat = s.total.toNat + os.length
  passed : t.passed.toNat = s.passed.toNat + os.countP (·.verdict = .pass)
  failed : t.failed.toNat
    = s.failed.toNat + os.countP fun o ↦ o.verdict = .fail ∨ o.verdict = .timeout
  skipped : t.skipped = s.skipped
  sampleLimit : t.sampleLimit = s.sampleLimit
  failures : t.failures.toList = s.failures.toList ++ (samplesOf os).take s.sampleRoom

/-! ## Verdicts and samples -/

theorem isFailure_eq_true_iff {o : Outcome} :
    o.isFailure = true ↔ o.verdict = .fail ∨ o.verdict = .timeout := by
  obtain ⟨test, verdict, detail⟩ := o
  cases verdict <;> simp [Outcome.isFailure, Verdict.isFailure]

theorem isFailure_eq_false_iff {o : Outcome} : o.isFailure = false ↔ o.verdict = .pass := by
  obtain ⟨test, verdict, detail⟩ := o
  cases verdict <;> simp [Outcome.isFailure, Verdict.isFailure]

theorem samplesOf_append (os os' : List Outcome) :
    samplesOf (os ++ os') = samplesOf os ++ samplesOf os' := by
  rw [samplesOf, List.filter_append, List.map_append, samplesOf, samplesOf]

theorem length_samplesOf (os : List Outcome) :
    (samplesOf os).length = os.countP (·.isFailure) := by
  rw [samplesOf, List.length_map, List.countP_eq_length_filter]

/-! ## Accounts compose -/

namespace Accounts

variable {s t u : Tally} {os os' : List Outcome}

theorem refl (s : Tally) : Accounts s [] s where
  total := rfl
  passed := rfl
  failed := rfl
  skipped := rfl
  sampleLimit := rfl
  failures := by simp [samplesOf]

theorem sampleRoom (h : Accounts s os t) :
    t.sampleRoom = s.sampleRoom - (samplesOf os).length := by
  have hsize : t.failures.size
      = s.failures.size + min s.sampleRoom (samplesOf os).length := by
    rw [← Array.length_toList, h.failures, List.length_append, List.length_take,
      Array.length_toList]
  rw [Tally.sampleRoom, h.sampleLimit, hsize, Tally.sampleRoom]
  omega

theorem trans (h : Accounts s os t) (h' : Accounts t os' u) : Accounts s (os ++ os') u where
  total := by rw [h'.total, h.total, List.length_append, Nat.add_assoc]
  passed := by rw [h'.passed, h.passed, List.countP_append, Nat.add_assoc]
  failed := by rw [h'.failed, h.failed, List.countP_append, Nat.add_assoc]
  skipped := h'.skipped.trans h.skipped
  sampleLimit := h'.sampleLimit.trans h.sampleLimit
  failures := by
    rw [h'.failures, h.failures, h.sampleRoom, samplesOf_append, List.take_append,
      List.append_assoc]

/-- Every outcome has passed or failed, so the counters keep up with the total. -/
theorem balanced (h : Accounts s os t) (hs : s.Balanced) : t.Balanced := by
  have hsplit := List.length_eq_countP_add_countP (fun o : Outcome ↦ o.isFailure) (l := os)
  have hfailed : os.countP (fun o ↦ o.isFailure)
      = os.countP fun o ↦ o.verdict = .fail ∨ o.verdict = .timeout := by
    refine List.countP_congr fun o _ ↦ ?_
    rw [isFailure_eq_true_iff, decide_eq_true_iff]
  have hpassed : os.countP (fun o ↦ ¬ o.isFailure)
      = os.countP fun o ↦ o.verdict = .pass := by
    refine List.countP_congr fun o _ ↦ ?_
    rw [decide_eq_true_iff, decide_eq_true_iff, Bool.not_eq_true, isFailure_eq_false_iff]
  rw [Balanced] at hs ⊢
  rw [h.total, h.passed, h.failed, h.skipped, hs, ← hfailed, ← hpassed]
  omega

/-- Samples are only ever added behind those that are there. -/
theorem retains (h : Accounts s os t) : s.failures.toList <+: t.failures.toList :=
  ⟨_, h.failures.symm⟩

end Accounts

/-! ## Recording -/

theorem exists_bump {n : UInt64} (h : n.toNat + 1 < UInt64.size) :
    ∃ m, bump n = .ok m ∧ m.toNat = n.toNat + 1 := by
  have hm : bump n = .ok (n + 1) := by rw [bump, if_pos h]
  exact ⟨n + 1, hm, bump_eq_ok_iff.mp hm⟩

theorem toList_keep (t : Tally) (o : Outcome) :
    (t.keep o).toList = t.failures.toList ++ [FailureSample.ofOutcome o].take t.sampleRoom := by
  rw [keep, sampleRoom]
  split
  · rename_i h
    rw [List.take_of_length_le (by rw [List.length_singleton]; omega), Array.toList_push]
    rfl
  · rename_i h
    rw [Nat.sub_eq_zero_of_le (Nat.le_of_not_lt h), List.take_zero, List.append_nil]

/-- A recorded outcome is accounted for. -/
theorem accounts_of_record {t t' : Tally} {o : Outcome} (h : t.record o = .ok t') :
    Accounts t [o] t' := by
  rw [record] at h
  rcases htotal : bump t.total with e | total
  · rw [htotal] at h
    cases h
  rw [htotal] at h
  rw [bump_eq_ok_iff] at htotal
  by_cases ho : o.isFailure = true
  · -- It is counted as failed, and kept if there is room.
    have hverdict := isFailure_eq_true_iff.mp ho
    have hpass : o.verdict ≠ .pass := by
      intro hpass
      rw [hpass] at hverdict
      exact hverdict.elim nofun nofun
    simp only [ho, if_true] at h
    rcases hfailed : bump t.failed with e | failed
    · rw [hfailed] at h
      cases h
    rw [hfailed] at h
    rw [bump_eq_ok_iff] at hfailed
    cases h
    refine ⟨htotal, ?_, ?_, rfl, rfl, ?_⟩
    · simp [hpass]
    · simp [hfailed, hverdict]
    · rw [samplesOf, List.filter_cons_of_pos ho, List.filter_nil, List.map_singleton]
      exact toList_keep t o
  · -- It is counted as passed, and its detail is not kept.
    rw [Bool.not_eq_true] at ho
    have hpass := isFailure_eq_false_iff.mp ho
    simp only [ho, Bool.false_eq_true, if_false] at h
    rcases hpassed : bump t.passed with e | passed
    · rw [hpassed] at h
      cases h
    rw [hpassed] at h
    rw [bump_eq_ok_iff] at hpassed
    cases h
    refine ⟨htotal, ?_, ?_, rfl, rfl, ?_⟩
    · simp [hpassed, hpass]
    · simp [hpass]
    · simp [samplesOf, ho]

/-- One outcome fits if the total has room for it. -/
theorem exists_record {t : Tally} (o : Outcome) (ht : t.Balanced)
    (hroom : t.total.toNat + 1 < UInt64.size) : ∃ t', t.record o = .ok t' := by
  obtain ⟨total, htotal, -⟩ := exists_bump hroom
  rw [Balanced] at ht
  rw [record, htotal]
  by_cases ho : o.isFailure = true
  · obtain ⟨failed, hfailed, -⟩ := exists_bump (n := t.failed) (by omega)
    refine ⟨{ t with total, failed, failures := t.keep o }, ?_⟩
    simp only [ho, if_true]
    change (bump t.failed >>= _) = _
    rw [hfailed]
    rfl
  · obtain ⟨passed, hpassed, -⟩ := exists_bump (n := t.passed) (by omega)
    refine ⟨{ t with total, passed }, ?_⟩
    simp only [ho, Bool.false_eq_true, if_false]
    change (bump t.passed >>= _) = _
    rw [hpassed]
    rfl

theorem accounts_of_recordAll {s t : Tally} {os : List Outcome} (h : s.recordAll os = .ok t) :
    Accounts s os t := by
  induction os generalizing s with
  | nil =>
    cases h
    exact .refl _
  | cons o os ih =>
    rw [recordAll_cons] at h
    rcases hrecord : s.record o with e | s'
    · rw [hrecord] at h
      cases h
    · rw [hrecord] at h
      exact (accounts_of_record hrecord).trans (ih h)

/-- A list of outcomes fits if the total has room for it. -/
theorem exists_recordAll {s : Tally} {os : List Outcome} (hs : s.Balanced)
    (hroom : s.total.toNat + os.length < UInt64.size) : ∃ t, s.recordAll os = .ok t := by
  induction os generalizing s with
  | nil => exact ⟨_, rfl⟩
  | cons o os ih =>
    rw [List.length_cons] at hroom
    obtain ⟨s', hrecord⟩ := exists_record o hs (by omega)
    have h := accounts_of_record hrecord
    -- The next tally is balanced again, so room in its total is all that the rest needs.
    have hroom' : s'.total.toNat + os.length < UInt64.size := by
      rw [h.total, List.length_singleton]
      omega
    rw [recordAll_cons, hrecord]
    exact ih (h.balanced hs) hroom'

theorem balanced_empty (sampleLimit : UInt64) : (empty sampleLimit).Balanced := rfl

/-- Outcomes that can be counted at all have a tally. -/
theorem exists_ofOutcomes {os : List Outcome} (sampleLimit : UInt64)
    (h : os.length < UInt64.size) : ∃ t, ofOutcomes os sampleLimit = .ok t := by
  refine exists_recordAll (balanced_empty sampleLimit) ?_
  rwa [empty, UInt64.toNat_zero, Nat.zero_add]

/-- Outcomes that cannot be counted are more than a counter counts. -/
theorem size_le_length_of_ofOutcomes {os : List Outcome} {sampleLimit : UInt64} {e : Crash}
    (h : ofOutcomes os sampleLimit = .error e) : UInt64.size ≤ os.length := by
  refine Nat.le_of_not_lt fun hlt ↦ ?_
  obtain ⟨t, ht⟩ := exists_ofOutcomes sampleLimit hlt
  cases h.symm.trans ht

theorem recordAll_append (s : Tally) (os os' : List Outcome) :
    s.recordAll (os ++ os') = s.recordAll os >>= fun t ↦ t.recordAll os' := by
  induction os generalizing s with
  | nil => rfl
  | cons o os ih =>
    rw [List.cons_append, recordAll_cons, recordAll_cons]
    cases s.record o with
    | error e => rfl
    | ok s' => exact ih s'

/-- **A tally accounts for its outcomes.** A balanced tally with room for a list of outcomes records
it without overflow. After every prefix it is balanced and accounts for just that prefix, and the
samples it has then stay in front at every later point. A tally made of a list alone has skipped
nothing and keeps the first failures, as many as its limit allows. -/
theorem recordAll_accounts {s : Tally} {os : List Outcome} (hs : s.Balanced)
    (hroom : s.total.toNat + os.length < UInt64.size) :
    (∀ xs, xs <+: os → ∃ t, s.recordAll xs = .ok t ∧ Accounts s xs t ∧ t.Balanced) ∧
    (∀ xs ys t u, xs <+: ys → ys <+: os → s.recordAll xs = .ok t → s.recordAll ys = .ok u →
      t.failures.toList <+: u.failures.toList) ∧
    ∀ (ys : List Outcome) (limit : UInt64), ys.length < UInt64.size →
      ∃ t, ofOutcomes ys limit = .ok t ∧ Accounts (empty limit) ys t ∧ t.Balanced ∧
        t.skipped = 0 ∧
        t.failures.toList
          = ((ys.filter (·.isFailure)).take
              (min limit.toNat (ys.countP (·.isFailure)))).map .ofOutcome := by
  have hevery : ∀ xs, xs <+: os → ∃ t, s.recordAll xs = .ok t := by
    intro xs hxs
    have hle := hxs.length_le
    exact exists_recordAll hs (by omega)
  refine ⟨?_, ?_, ?_⟩
  · intro xs hxs
    obtain ⟨t, e⟩ := hevery xs hxs
    have h := accounts_of_recordAll e
    exact ⟨t, e, h, h.balanced hs⟩
  · rintro xs _ t u ⟨zs, rfl⟩ hys et eu
    have hzs : t.recordAll zs = .ok u := by
      rw [recordAll_append, et] at eu
      exact eu
    exact (accounts_of_recordAll hzs).retains
  · intro ys limit hys
    obtain ⟨t, e⟩ := exists_ofOutcomes limit hys
    have h : Accounts (empty limit) ys t := accounts_of_recordAll e
    refine ⟨t, e, h, h.balanced (balanced_empty limit), h.skipped, ?_⟩
    rw [List.map_take, ← samplesOf, h.failures, empty, List.nil_append, List.take_eq_take_iff,
      sampleRoom, length_samplesOf]
    simp only [List.size_toArray, List.length_nil]
    omega

/-- A tally with two samples and room for a third, before a pass, a failure and a timeout. -/
theorem recordAll_accounts_third_sample :
    ∃ s : Tally, s.failures.size = 2 ∧ s.Balanced ∧ s.total.toNat + 3 < UInt64.size ∧
      ∃ t, s.recordAll [⟨"a", .pass, "seen"⟩, .fail "b" "broken", .timeout "c" (.ofSecs 5)]
          = .ok t ∧
        t.total = 6 ∧ t.failed = 4 ∧
        t.failures.toList = s.failures.toList ++ [⟨"b", "broken"⟩] := by
  let s : Tally := ⟨1, 2, 0, 3, #[⟨"x", ""⟩, ⟨"y", "\x00"⟩], 3⟩
  let os : List Outcome := [⟨"a", .pass, "seen"⟩, .fail "b" "broken", .timeout "c" (.ofSecs 5)]
  have hs : s.Balanced := rfl
  have hroom : s.total.toNat + os.length < UInt64.size := by decide
  obtain ⟨hevery, -, -⟩ := recordAll_accounts hs hroom
  obtain ⟨t, e, h, -⟩ := hevery os (List.prefix_refl os)
  exact ⟨s, rfl, hs, hroom, t, e, UInt64.toNat_inj.mp h.total, UInt64.toNat_inj.mp h.failed,
    h.failures⟩

end Tally

end Conformance
