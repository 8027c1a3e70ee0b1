import Conformance.Crash
import Conformance.Number.Binary64
import Conformance.Outcome
/-!
# The tally of a run

A tally counts outcomes and keeps the first failures as samples, up to a limit. A failure beyond the
limit is counted but not kept, so the samples are always the earliest ones. The count of skipped
tests belongs to the schema of a tally, but recording never raises it.

The counters have 64 bits; recording past their end is a crash.
-/

namespace Conformance

/-- A retained failure. -/
structure FailureSample where
  test : String
  error : String
  deriving DecidableEq, Repr

/-- The counts of a run and its first failures. -/
structure Tally where
  passed : UInt64
  failed : UInt64
  skipped : UInt64
  total : UInt64
  failures : Array FailureSample
  /-- How many failures are kept. -/
  sampleLimit : UInt64
  deriving DecidableEq, Repr

/-- The sample limit of a tally that names no other. -/
def defaultSampleLimit : UInt64 := 50

/-- The percentage that `part` is of `total`, rounded after each of its two operations; zero for an
empty total. -/
def percentage (part total : UInt64) : Binary64 :=
  if total = 0 then .zero
  else ((Binary64.ofNat part.toNat).div (.ofNat total.toNat)).mul (.ofNat 100)

namespace Tally

def empty (sampleLimit : UInt64) : Tally := ⟨0, 0, 0, 0, #[], sampleLimit⟩

/-- One more than a counter. -/
def bump (n : UInt64) : Except Crash UInt64 :=
  if n.toNat + 1 < UInt64.size then .ok (n + 1) else .error .counterOverflow

/-- Counting on never wraps around. -/
theorem bump_eq_ok_iff {n m : UInt64} : bump n = .ok m ↔ m.toNat = n.toNat + 1 := by
  have hm : m.toNat < UInt64.size := m.toNat_lt
  rw [bump]
  split
  · rename_i h
    rw [Except.ok.injEq, ← UInt64.toNat_inj, UInt64.toNat_add, UInt64.toNat_one,
      Nat.mod_eq_of_lt (by simpa using h), eq_comm]
  · rename_i h
    exact ⟨nofun, fun e ↦ absurd (e ▸ hm) h⟩

/-- The samples after one more failure. -/
def keep (t : Tally) (o : Outcome) : Array FailureSample :=
  if t.failures.size < t.sampleLimit.toNat then t.failures.push ⟨o.test, o.detail⟩ else t.failures

def record (t : Tally) (o : Outcome) : Except Crash Tally := do
  let total ← bump t.total
  if o.isFailure then
    let failed ← bump t.failed
    return { t with total, failed, failures := t.keep o }
  else
    let passed ← bump t.passed
    return { t with total, passed }

def recordAll (t : Tally) : List Outcome → Except Crash Tally
  | [] => .ok t
  | o :: os => t.record o >>= fun t' ↦ t'.recordAll os

def ofOutcomes (os : List Outcome) (sampleLimit : UInt64) : Except Crash Tally :=
  (empty sampleLimit).recordAll os

/-- The percentage of tests that passed. -/
def passRate (t : Tally) : Binary64 := percentage t.passed t.total

/-- The percentage of tests that failed. -/
def failRate (t : Tally) : Binary64 := percentage t.failed t.total

@[simp] theorem recordAll_cons (t : Tally) (o : Outcome) (os : List Outcome) :
    t.recordAll (o :: os) = t.record o >>= fun t' ↦ t'.recordAll os := rfl

end Tally

end Conformance
