import Conformance.Harness
import Conformance.Proofs.Report.CountLines
/-!
# Limits named by timeouts

The detail of a timeout names the limit that was passed, as a count of whole seconds or of whole
milliseconds. Seconds are taken only where nothing is lost, and milliseconds lose what is left beside
them, so the limit named is never above the limit itself and less than a millisecond below it. Both
counts are unbounded numbers: the milliseconds of a duration need not fit the 64 bits that its
seconds have.

No text is a count of both units, because the character behind the digits tells them apart. Limits of
whole milliseconds are therefore known from the text.
-/

namespace Conformance

/-- The units that a limit is counted in. -/
inductive LimitUnit where
  | seconds
  | millis
  deriving DecidableEq, Repr

namespace LimitUnit

/-- How a unit is written. -/
def text : LimitUnit → String
  | .seconds => "s"
  | .millis => "ms"

/-- The length of a unit in nanoseconds. -/
def nanos : LimitUnit → ℕ
  | .seconds => nanosPerSec
  | .millis => nanosPerMilli

theorem text_injective : Function.Injective text := by
  have hne : text .seconds ≠ text .millis := by decide
  intro u v h
  cases u <;> cases v
  · rfl
  · exact absurd h hne
  · exact absurd h.symm hne
  · rfl

theorem endsNumber_text (u : LimitUnit) : Report.EndsNumber u.text.toList := by
  cases u <;> decide

end LimitUnit

namespace Duration

variable {d d' : Duration}

/-! ## Lengths -/

theorem nanosPerSec_dvd_iff : nanosPerSec ∣ d.toNanos ↔ d.nanos = 0 := by
  have hlt := d.nanos_lt
  rw [toNanos, Nat.dvd_add_right (Nat.dvd_mul_left _ _)]
  exact ⟨fun h ↦ Nat.eq_zero_of_dvd_of_lt h hlt, fun h ↦ h ▸ Nat.dvd_zero _⟩

theorem toMillis_eq (d : Duration) : d.toMillis = d.toNanos / nanosPerMilli := by
  have hsecs : d.secs.toNat * nanosPerSec = d.secs.toNat * 1000 * nanosPerMilli := by
    rw [Nat.mul_assoc]
    rfl
  rw [toMillis, toNanos, hsecs, Nat.add_comm, Nat.add_comm (_ * nanosPerMilli),
    Nat.add_mul_div_right _ _ (by decide)]

theorem toNanos_inj : d.toNanos = d'.toNanos ↔ d = d' := by
  refine ⟨fun h ↦ ?_, congrArg toNanos⟩
  obtain ⟨secs, nanos, hnanos⟩ := d
  obtain ⟨secs', nanos', hnanos'⟩ := d'
  -- The nanoseconds are the remainder by a second, and the seconds the quotient.
  have hsecs : secs.toNat = secs'.toNat := by
    simp only [toNanos, nanosPerSec] at h hnanos hnanos'
    omega
  obtain rfl := UInt64.toNat_inj.mp hsecs
  simp only [toNanos, Nat.add_left_cancel_iff] at h
  subst h
  rfl

/-- Nanoseconds carry into the seconds, and nothing is lost. -/
theorem toNanos_of_make {secs : UInt64} {nanos : UInt32} (h : make secs nanos = .ok d) :
    d.toNanos = secs.toNat * nanosPerSec + nanos.toNat := by
  rw [make] at h
  split at h
  · rename_i hlt
    cases h
    simp only [toNanos, UInt64.toNat_ofNat_of_lt' hlt, Nat.add_mul, Nat.add_assoc, Nat.div_add_mod']
  · cases h

/-! ## Counts -/

/-- The unit that a limit is counted in. -/
def limitUnit (d : Duration) : LimitUnit := if d.nanos = 0 then .seconds else .millis

/-- How many whole units there are in a limit. -/
def limitCount (d : Duration) : ℕ := d.toNanos / d.limitUnit.nanos

theorem limitUnit_eq_seconds_iff : d.limitUnit = .seconds ↔ nanosPerSec ∣ d.toNanos := by
  rw [nanosPerSec_dvd_iff, limitUnit]
  split
  · rename_i h
    exact iff_of_true rfl h
  · rename_i h
    exact iff_of_false nofun h

theorem limitText_eq (d : Duration) :
    d.limitText = toString d.limitCount ++ d.limitUnit.text := by
  rw [limitText, limitCount, limitUnit]
  split
  · rename_i h
    have hsecs : d.toNanos / nanosPerSec = d.secs.toNat := by
      rw [toNanos, h, Nat.add_zero, Nat.mul_div_cancel _ (by decide)]
    rw [LimitUnit.nanos, hsecs]
    rfl
  · rw [toMillis_eq]
    rfl

theorem limitText_ofSecs (secs : UInt64) : (ofSecs secs).limitText = toString secs.toNat ++ "s" :=
  if_pos rfl

theorem limitCount_mul_le (d : Duration) : d.limitCount * d.limitUnit.nanos ≤ d.toNanos :=
  Nat.div_mul_le_self _ _

/-- Only parts of a millisecond are lost. -/
theorem lt_limitCount_mul_add (d : Duration) :
    d.toNanos < d.limitCount * d.limitUnit.nanos + nanosPerMilli := by
  rw [limitCount, limitUnit]
  split
  · rename_i h
    rw [LimitUnit.nanos, Nat.div_mul_cancel (nanosPerSec_dvd_iff.mpr h)]
    exact Nat.lt_add_of_pos_right (by decide)
  · exact Nat.lt_div_mul_add (by decide)

theorem limitCount_mul_eq_iff :
    d.limitCount * d.limitUnit.nanos = d.toNanos ↔ nanosPerMilli ∣ d.toNanos := by
  rw [limitCount, limitUnit]
  split
  · rename_i h
    have hsec := nanosPerSec_dvd_iff.mpr h
    have hmilli : nanosPerMilli ∣ nanosPerSec := by decide
    exact iff_of_true (Nat.div_mul_cancel hsec) (Nat.dvd_trans hmilli hsec)
  · exact ⟨fun h ↦ h ▸ Nat.dvd_mul_left _ _, Nat.div_mul_cancel⟩

/-- The count and its unit are read off the text. -/
theorem limitText_inj : d.limitText = d'.limitText ↔
    d.limitCount = d'.limitCount ∧ d.limitUnit = d'.limitUnit := by
  rw [limitText_eq, limitText_eq]
  refine ⟨fun h ↦ ?_, fun h ↦ by rw [h.1, h.2]⟩
  have hread := congrArg (fun s : String ↦ Report.number? s.toList) h
  simp only [String.toList_append, Report.number?_append _ (LimitUnit.endsNumber_text _),
    Option.some.injEq, Prod.mk.injEq, String.toList_inj] at hread
  exact ⟨hread.1, LimitUnit.text_injective hread.2⟩

end Duration

namespace Outcome

variable {test test' : String} {d d' : Duration}

theorem detail_timeout_inj : (timeout test d).detail = (timeout test' d').detail ↔
    d.limitText = d'.limitText := by
  rw [timeout, timeout, String.append_left_inj, String.append_right_inj]

/-- **The limit named by a timeout.** Whatever the limit, it is named by a count and a unit that come
to no more than the limit and to less than a millisecond below it. Nothing is lost exactly if the
limit is one of whole milliseconds, and seconds are the unit exactly if it is one of whole seconds.
Two limits of whole milliseconds are named alike only if they are equal. Nanoseconds that carry into
the seconds are counted in full, and a configured limit is named by its seconds. -/
theorem timeout_names_limit :
    (∀ (test : String) (d : Duration), ∃ (count : ℕ) (unit : LimitUnit),
      (timeout test d).detail = "Test timeout (>" ++ (toString count ++ unit.text) ++ ")" ∧
      count * unit.nanos ≤ d.toNanos ∧ d.toNanos < count * unit.nanos + nanosPerMilli ∧
      (count * unit.nanos = d.toNanos ↔ nanosPerMilli ∣ d.toNanos) ∧
      (unit = .seconds ↔ nanosPerSec ∣ d.toNanos)) ∧
    (∀ (test test' : String) (d d' : Duration), nanosPerMilli ∣ d.toNanos →
      nanosPerMilli ∣ d'.toNanos →
        ((timeout test d).detail = (timeout test' d').detail ↔ d = d')) ∧
    (∀ (secs : UInt64) (nanos : UInt32) (d : Duration), Duration.make secs nanos = .ok d →
      d.toNanos = secs.toNat * nanosPerSec + nanos.toNat) ∧
    ∀ (target : Path) (c : Config) (maxTests : Option UInt64) (test : String),
      (Harness.ofConfig target c maxTests).executor.outcomeOf test (.ok .timedOut)
        = .ok ⟨test, .timeout, "Test timeout (>" ++ toString c.timeoutSecs.toNat ++ "s)"⟩ := by
  refine ⟨fun test d ↦ ?_, fun test test' d d' h h' ↦ ?_, fun secs nanos d ↦ Duration.toNanos_of_make,
    fun target c maxTests test ↦ ?_⟩
  · refine ⟨d.limitCount, d.limitUnit, ?_, d.limitCount_mul_le, d.lt_limitCount_mul_add,
      Duration.limitCount_mul_eq_iff, Duration.limitUnit_eq_seconds_iff⟩
    rw [timeout, Duration.limitText_eq]
  · rw [detail_timeout_inj, Duration.limitText_inj]
    refine ⟨?_, fun e ↦ by rw [e]; exact ⟨rfl, rfl⟩⟩
    rintro ⟨hcount, hunit⟩
    rw [← Duration.toNanos_inj, ← Duration.limitCount_mul_eq_iff.mpr h,
      ← Duration.limitCount_mul_eq_iff.mpr h', hcount, hunit]
  · change Except.ok (timeout test (.ofSecs c.timeoutSecs)) = _
    rw [timeout, Duration.limitText_ofSecs]
    simp only [String.append_assoc]
    rfl

/-- Four seconds and one and a half billion nanoseconds are named like 5500 milliseconds, and unlike
five seconds. -/
theorem timeout_names_limit_carried :
    ∃ d, Duration.make 4 1500000000 = .ok d ∧ d.toNanos = 5500000000 ∧
      nanosPerMilli ∣ d.toNanos ∧ nanosPerMilli ∣ (Duration.ofMillis 5500).toNanos ∧
      nanosPerMilli ∣ (Duration.ofSecs 5).toNanos ∧
      (timeout "a" d).detail = (timeout "b" (.ofMillis 5500)).detail ∧
      (timeout "a" d).detail ≠ (timeout "a" (.ofSecs 5)).detail := by
  obtain ⟨-, hnamed, hmake, -⟩ := timeout_names_limit
  let d : Duration := ⟨5, 500000000, by decide⟩
  have hd : Duration.make 4 1500000000 = .ok d := rfl
  have hmillis : nanosPerMilli ∣ d.toNanos := by decide +kernel
  have hmillis' : nanosPerMilli ∣ (Duration.ofMillis 5500).toNanos := by decide +kernel
  have hsecs : nanosPerMilli ∣ (Duration.ofSecs 5).toNanos := by decide +kernel
  refine ⟨d, hd, hmake 4 1500000000 d hd, hmillis, hmillis', hsecs, ?_, ?_⟩
  · exact (hnamed "a" "b" d _ hmillis hmillis').mpr (by decide +kernel)
  · exact mt (hnamed "a" "a" d _ hmillis hsecs).mp (by decide +kernel)

/-- The milliseconds of the greatest duration go past 64 bits. -/
example : (timeout "a" ⟨0xFFFFFFFFFFFFFFFF, 999999999, by decide⟩).detail
    = "Test timeout (>18446744073709551615999ms)" := by decide +kernel

end Outcome

end Conformance
