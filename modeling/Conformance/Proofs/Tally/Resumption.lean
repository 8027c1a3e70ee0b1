import Conformance.Proofs.Snapshot.RoundTrip
import Conformance.Proofs.Tally.Accounting
/-!
# Runs that are interrupted and resumed

A run can be interrupted, its tally written as a snapshot, and the tests that are left recorded on
the tally that is loaded again. The snapshot does not hold the sample limit, so the loaded tally has
the usual one. All counts come out as if nothing had happened. The samples do so only as long as
neither limit is reached: a limit below the usual one drops failures before the interruption, and
later ones may then be kept in their place.

Below, `s` is the tally at the interruption, `r` the one that is resumed from it, and `u` that of
the run without interruption.
-/

namespace Conformance.Tally

variable {s t r u : Tally} {xs ys : List Outcome} {limit : UInt64}

/-! ## Samples from the start on -/

theorem Accounts.failures_of_empty (h : Accounts (empty limit) xs t) :
    t.failures.toList = (samplesOf xs).take limit.toNat := by
  have hfailures := h.failures
  rw [empty, List.nil_append] at hfailures
  exact hfailures

theorem Accounts.size_of_empty (h : Accounts (empty limit) xs t) :
    t.failures.size = min limit.toNat (samplesOf xs).length := by
  rw [← Array.length_toList, h.failures_of_empty, List.length_take]

/-! ## Going on from what was loaded -/

/-- A loaded tally takes samples up to the usual limit, whatever its own one was. -/
theorem sampleRoom_stored (s : Tally) :
    (Snapshot.stored s).sampleRoom = defaultSampleLimit.toNat - s.failures.size := rfl

/-- A tally and what is loaded of it count on alike. -/
theorem Accounts.counts_eq (hr : Accounts (Snapshot.stored s) ys r) (hu : Accounts s ys u) :
    r.total = u.total ∧ r.passed = u.passed ∧ r.failed = u.failed ∧ r.skipped = u.skipped := by
  have htotal : r.total.toNat = u.total.toNat := hr.total.trans hu.total.symm
  have hpassed : r.passed.toNat = u.passed.toNat := hr.passed.trans hu.passed.symm
  have hfailed : r.failed.toNat = u.failed.toNat := hr.failed.trans hu.failed.symm
  have hskipped : r.skipped = u.skipped := hr.skipped.trans hu.skipped.symm
  exact ⟨UInt64.toNat_inj.mp htotal, UInt64.toNat_inj.mp hpassed, UInt64.toNat_inj.mp hfailed,
    hskipped⟩

theorem Accounts.failures_of_stored (hs : Accounts (empty limit) xs s)
    (hr : Accounts (Snapshot.stored s) ys r) :
    r.failures.toList = (samplesOf xs).take limit.toNat ++
      (samplesOf ys).take (50 - min limit.toNat (samplesOf xs).length) := by
  have hroom := sampleRoom_stored s
  rw [hs.size_of_empty] at hroom
  rw [hr.failures, hroom, ← hs.failures_of_empty]
  rfl

/-- Where neither limit is exceeded, all failures are kept, interrupted or not. -/
theorem Accounts.failures_eq_of_le (hs : Accounts (empty limit) xs s)
    (hr : Accounts (Snapshot.stored s) ys r) (hu : Accounts (empty limit) (xs ++ ys) u)
    (hle : (samplesOf xs).length + (samplesOf ys).length ≤ min limit.toNat 50) :
    r.failures = u.failures := by
  have hkept : r.failures.toList = samplesOf xs ++ samplesOf ys := by
    rw [hs.failures_of_stored hr, List.take_of_length_le (by omega),
      List.take_of_length_le (by omega)]
  have hall : u.failures.toList = samplesOf xs ++ samplesOf ys := by
    rw [hu.failures_of_empty, samplesOf_append,
      List.take_of_length_le (by rw [List.length_append]; omega)]
  rw [← Array.toList_inj, hkept, hall]

/-- Where a limit below the usual one has dropped failures, there is room again after loading. -/
theorem Accounts.prefix_of_dropped (hs : Accounts (empty limit) xs s)
    (hr : Accounts (Snapshot.stored s) ys r) {later : FailureSample} (hlimit : limit < 50)
    (hdropped : limit.toNat < (samplesOf xs).length) (hlater : (samplesOf ys).head? = some later) :
    (samplesOf xs).take limit.toNat ++ [later] <+: r.failures.toList := by
  have hlt : limit.toNat < 50 := UInt64.lt_iff_toNat_lt.mp hlimit
  obtain ⟨rest, hrest⟩ := List.head?_eq_some_iff.mp hlater
  obtain ⟨room, hroom⟩ := Nat.exists_eq_succ_of_ne_zero (Nat.sub_ne_zero_of_lt hlt)
  rw [hs.failures_of_stored hr, List.prefix_append_right_inj,
    Nat.min_eq_left (Nat.le_of_lt hdropped), hrest, hroom, List.take_succ_cons]
  exact ⟨_, rfl⟩

/-- A run that can be counted at all can be counted in two parts. -/
theorem exists_resumed (limit : UInt64) (h : xs.length + ys.length < UInt64.size) :
    ∃ s r u, ofOutcomes xs limit = .ok s ∧ (Snapshot.stored s).recordAll ys = .ok r ∧
      s.recordAll ys = .ok u ∧ ofOutcomes (xs ++ ys) limit = .ok u := by
  obtain ⟨s, hs⟩ : ∃ s, ofOutcomes xs limit = .ok s := exists_ofOutcomes limit (by omega)
  have haccounts : Accounts (empty limit) xs s := accounts_of_recordAll hs
  have hbalanced := haccounts.balanced (balanced_empty limit)
  have hroom : s.total.toNat + ys.length < UInt64.size := by
    rw [haccounts.total, empty, UInt64.toNat_zero, Nat.zero_add]
    exact h
  -- Balance and room are about the counters only, which the loaded tally shares.
  obtain ⟨r, hr⟩ := exists_recordAll (s := Snapshot.stored s) hbalanced hroom
  obtain ⟨u, hu⟩ := exists_recordAll hbalanced hroom
  refine ⟨s, r, u, hs, hr, hu, ?_⟩
  rw [ofOutcomes] at hs ⊢
  rw [recordAll_append, hs]
  exact hu

/-- **Runs that are resumed.** Outcomes are tallied, the tally `s` is written and loaded again, and
more outcomes are recorded on it, which gives `r`; the tally `u` is that of the run that was not
interrupted. All counts agree. The samples of `r` are the first failures before the interruption, as
many as the limit allows, and then the first ones behind it, as many as the usual limit leaves room
for. So both tallies are the same exactly if the limit is the usual one, and their samples are the
same if neither limit is exceeded. Every loaded sample is kept, and none is added to a full tally.
Where a limit below the usual one has dropped failures, the next failure takes the place of the
first of them. -/
theorem resumed_accounts (limit : UInt64) (h : xs.length + ys.length < UInt64.size) :
    ∃ s loaded r u, ofOutcomes xs limit = .ok s ∧
      Snapshot.read (Snapshot.render s) = .ok loaded ∧ loaded.recordAll ys = .ok r ∧
      ofOutcomes (xs ++ ys) limit = .ok u ∧
      (r.total = u.total ∧ r.passed = u.passed ∧ r.failed = u.failed ∧ r.skipped = u.skipped) ∧
      r.failures.toList = (samplesOf xs).take limit.toNat ++
        (samplesOf ys).take (50 - min limit.toNat (samplesOf xs).length) ∧
      (r = u ↔ limit = 50) ∧
      ((samplesOf xs).length + (samplesOf ys).length ≤ min limit.toNat 50 →
        r.failures = u.failures) ∧
      loaded.failures.toList <+: r.failures.toList ∧
      (50 ≤ loaded.failures.size → r.failures = loaded.failures) ∧
      ∀ later, limit < 50 → limit.toNat < (samplesOf xs).length →
        (samplesOf ys).head? = some later →
        (samplesOf xs).take limit.toNat ++ [later] <+: r.failures.toList ∧
          u.failures.toList = (samplesOf xs).take limit.toNat := by
  obtain ⟨s, r, u, hs, hr, hu, hwhole⟩ := exists_resumed limit h
  have hbefore : Accounts (empty limit) xs s := accounts_of_recordAll hs
  have hbehind : Accounts (Snapshot.stored s) ys r := accounts_of_recordAll hr
  have hall : Accounts (empty limit) (xs ++ ys) u := accounts_of_recordAll hwhole
  refine ⟨s, Snapshot.stored s, r, u, hs, Snapshot.read_render s, hr, hwhole,
    hbehind.counts_eq (accounts_of_recordAll hu), hbefore.failures_of_stored hbehind, ?_,
    hbefore.failures_eq_of_le hbehind hall, hbehind.retains, ?_, ?_⟩
  · constructor
    · intro heq
      have hlimit : r.sampleLimit = u.sampleLimit := by rw [heq]
      rw [hbehind.sampleLimit, hall.sampleLimit] at hlimit
      exact hlimit.symm
    · intro hlimit
      -- With the usual limit nothing is lost on the way through the snapshot.
      have hstored : Snapshot.stored s = s :=
        Snapshot.stored_eq_self_iff.mpr (hbefore.sampleLimit.trans hlimit)
      rw [hstored, hu] at hr
      exact (Except.ok.inj hr).symm
  · intro hfull
    have hroom : (Snapshot.stored s).sampleRoom = 0 := Nat.sub_eq_zero_of_le hfull
    rw [← Array.toList_inj, hbehind.failures, hroom, List.take_zero, List.append_nil]
  · intro later hlimit hdropped hlater
    refine ⟨hbefore.prefix_of_dropped hbehind hlimit hdropped hlater, ?_⟩
    rw [hall.failures_of_empty, samplesOf_append,
      List.take_append_of_le_length (Nat.le_of_lt hdropped)]

/-- A run with room for one sample, interrupted after two failures and a pass and before a timeout.
The second failure is dropped, and the timeout is kept in its place. -/
theorem resumed_accounts_one_sample :
    ∃ xs ys : List Outcome, xs.length + ys.length < UInt64.size ∧
      ∃ s loaded r u, ofOutcomes xs 1 = .ok s ∧ Snapshot.read (Snapshot.render s) = .ok loaded ∧
        loaded.recordAll ys = .ok r ∧ ofOutcomes (xs ++ ys) 1 = .ok u ∧
        r.total = u.total ∧ r.failed = u.failed ∧ r ≠ u ∧
        samplesOf xs = [⟨"a", "x"⟩, ⟨"b", "y"⟩] ∧
        r.failures.toList = [⟨"a", "x"⟩, ⟨"c", "Test timeout (>5s)"⟩] ∧
        u.failures.toList = [⟨"a", "x"⟩] := by
  let xs : List Outcome := [.fail "a" "x", .fail "b" "y", .pass "p"]
  let ys : List Outcome := [.timeout "c" (.ofSecs 5)]
  have hroom : xs.length + ys.length < UInt64.size := by decide
  obtain ⟨s, loaded, r, u, hs, hloaded, hr, hu, hcounts, hfailures, heq, -, -, -, hlater⟩ :=
    resumed_accounts 1 hroom
  have hone := hlater ⟨"c", "Test timeout (>5s)"⟩ (by decide) (by decide) (by decide)
  exact ⟨xs, ys, hroom, s, loaded, r, u, hs, hloaded, hr, hu, hcounts.1, hcounts.2.2.1,
    fun h ↦ absurd (heq.mp h) (by decide), by decide, hfailures.trans (by decide),
    hone.2.trans (by decide)⟩

end Conformance.Tally
