import Conformance.Crash
/-!
# Durations and instants

A duration is a count of whole seconds and of nanoseconds within the second. An instant is a reading
of the monotonic clock. The clock is bounded: its seconds fit a signed 64-bit number, so a deadline
can lie past its end although the duration that leads there is a legitimate one.
-/

namespace Conformance

def nanosPerSec : Nat := 1000000000

def nanosPerMilli : Nat := 1000000

structure Duration where
  /-- Whole seconds. -/
  secs : UInt64
  /-- Nanoseconds within the second. -/
  nanos : Nat
  nanos_lt : nanos < nanosPerSec
  deriving DecidableEq, Repr

namespace Duration

def ofSecs (secs : UInt64) : Duration := ⟨secs, 0, by decide⟩

/-- What is left of milliseconds beside whole seconds is less than a second. -/
theorem nanos_ofMillis_lt (millis : UInt64) :
    (millis % 1000).toNat * nanosPerMilli < nanosPerSec := by
  have h : (millis % 1000).toNat < 1000 := UInt64.toNat_mod .. ▸ Nat.mod_lt _ (by decide)
  simp only [nanosPerMilli, nanosPerSec]
  omega

def ofMillis (millis : UInt64) : Duration :=
  ⟨millis / 1000, (millis % 1000).toNat * nanosPerMilli, nanos_ofMillis_lt millis⟩

/-- The duration of whole seconds and any number of nanoseconds, which carry into the seconds. -/
def make (secs : UInt64) (nanos : UInt32) : Except Crash Duration :=
  let total := secs.toNat + nanos.toNat / nanosPerSec
  if total < UInt64.size then
    .ok ⟨.ofNat total, nanos.toNat % nanosPerSec, Nat.mod_lt _ (by decide)⟩
  else .error .durationOverflow

def toNanos (d : Duration) : Nat := d.secs.toNat * nanosPerSec + d.nanos

/-- The whole milliseconds of a duration. -/
def toMillis (d : Duration) : Nat := d.secs.toNat * 1000 + d.nanos / nanosPerMilli

@[simp] theorem toNanos_ofSecs (secs : UInt64) :
    (ofSecs secs).toNanos = secs.toNat * nanosPerSec := by
  simp [toNanos, ofSecs]

/-- How a limit is written: in seconds when it is whole, otherwise in whole milliseconds. -/
def limitText (d : Duration) : String :=
  if d.nanos = 0 then toString d.secs.toNat ++ "s" else toString d.toMillis ++ "ms"

end Duration

/-- A reading of the monotonic clock, in nanoseconds since its start. -/
structure Instant where
  nanos : Nat
  deriving DecidableEq, Repr

namespace Instant

/-- The first second past the end of the clock. -/
def endOfClock : Nat := 0x8000000000000000

/-- The instant a duration later, if the clock reaches that far. -/
def add? (t : Instant) (d : Duration) : Option Instant :=
  let later := t.nanos + d.toNanos
  if later / nanosPerSec < endOfClock then some ⟨later⟩ else none

/-- The time from `t` until `deadline` in nanoseconds; none is left once it has passed. -/
def remaining (t deadline : Instant) : Nat := deadline.nanos - t.nanos

end Instant

end Conformance
