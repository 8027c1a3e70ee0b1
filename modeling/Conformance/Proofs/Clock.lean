import Conformance.Platform
/-!
# What is relied on about the clock

A wait with a time limit ends because the clock goes on. What is relied on is stated here for any
way of telling what the clock shows in a state of the platform: it is never turned back, and a pause
takes at least as long as was asked for.

Two more laws are for the readers alone. A look at a reader does not turn the clock back, and a wait
for one has its own limit and keeps to it.
-/

namespace Conformance

/-- What is relied on about the clock of a platform while a child is waited for, where `time` tells
what the clock shows. -/
structure Platform.ClockLaws {σ : Type} (p : Platform σ) (time : σ → Nat) : Prop where
  /-- A reading shows a time between the states before and behind it. -/
  reads (s : σ) : time s ≤ (p.now s).1.nanos ∧ (p.now s).1.nanos ≤ time (p.now s).2
  /-- Starting a reader does not turn the clock back. -/
  starts (child : Child) (pipe : OutputPipe) (s : σ) : time s ≤ time (p.startReader child pipe s).2
  /-- Polling does not turn the clock back. -/
  polls (child : Child) (s : σ) : time s ≤ time (p.poll child s).2
  /-- A pause lets the time pass that was asked for. -/
  pauses (nanos : Nat) (s : σ) : time s + nanos ≤ time (p.pause nanos s).2

/-- A look at a reader does not turn the clock back. -/
def Platform.ChecksGoOn {σ : Type} (p : Platform σ) (time : σ → Nat) : Prop :=
  ∀ child pipe s, time s ≤ time (p.isDrained child pipe s).2

/-- A wait for a reader does not turn the clock back, and it is over with its time. -/
def Platform.ReceivesInTime {σ : Type} (p : Platform σ) (time : σ → Nat) : Prop :=
  ∀ child pipe nanos s, time s ≤ time (p.receive child pipe nanos s).2 ∧
    time (p.receive child pipe nanos s).2 ≤ time s + nanos

end Conformance
