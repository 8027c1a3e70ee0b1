import Conformance.Platform
import Conformance.Text.Utf8
/-!
# What is relied on about a wait

While a child is waited for, three parties act beside the executor: the child, and the readers of
its two pipes. What a reader meets is a list of timed reads. It takes up bytes until the file ends,
and only then delivers, all at once; if a read fails, what it has taken up is lost.

What is relied on is stated for any way of telling what the clock shows in a state of the platform,
and for any reads. A wait for a reader gives what the reader delivers. It is given up only after the
time that was asked for, and only while the reader has delivered nothing. Neither a reading nor such
a wait turns the clock back.
-/

namespace Conformance

/-- What a single read from a pipe gives its reader. -/
inductive PipeRead where
  | bytes (bytes : List UInt8)
  | endOfFile
  | failed (error : IoError)
  /-- The reader itself comes to an end. -/
  | lost
  deriving DecidableEq, Repr

/-- What a pipe gives its reader, each read with its time. -/
abbrev Feed := List (Nat × PipeRead)

namespace Feed

/-- What a reader that has taken up some bytes delivers, and when. It delivers nothing as long as
the pipe is open. -/
def deliveryAfter (taken : List UInt8) : Feed → Option (Nat × Received)
  | [] => none
  | (_, .bytes bytes) :: feed => deliveryAfter (taken ++ bytes) feed
  | (time, .endOfFile) :: _ => some (time, .text (String.ofList (Utf8.decodeLossy taken)))
  | (time, .failed e) :: _ => some (time, .failed e)
  | (time, .lost) :: _ => some (time, .vanished)

/-- What a reader delivers, and when. -/
def delivery (feed : Feed) : Option (Nat × Received) := deliveryAfter [] feed

/-- The text is that of all bytes up to the end of the file, which is met at a certain time. -/
def Spells (feed : Feed) (time : Nat) (text : String) : Prop :=
  ∃ (pieces : List (Nat × List UInt8)) (behind : Feed),
    feed = pieces.map (fun piece ↦ (piece.1, .bytes piece.2)) ++ (time, .endOfFile) :: behind ∧
      text = String.ofList (Utf8.decodeLossy (pieces.flatMap (·.2)))

theorem deliveryAfter_eq_text_iff {feed : Feed} {taken : List UInt8} {time : Nat} {text : String} :
    deliveryAfter taken feed = some (time, .text text) ↔
      ∃ (pieces : List (Nat × List UInt8)) (behind : Feed),
        feed = pieces.map (fun piece ↦ (piece.1, .bytes piece.2)) ++ (time, .endOfFile) :: behind ∧
          text = String.ofList (Utf8.decodeLossy (taken ++ pieces.flatMap (·.2))) := by
  induction feed generalizing taken with
  | nil =>
    refine iff_of_false nofun ?_
    rintro ⟨pieces, behind, h, -⟩
    simp at h
  | cons first feed ih =>
    obtain ⟨t, read⟩ := first
    rcases read with bytes | _ | e | _
    · rw [deliveryAfter, ih]
      constructor
      · rintro ⟨pieces, behind, rfl, rfl⟩
        exact ⟨(t, bytes) :: pieces, behind, rfl, by simp⟩
      · rintro ⟨pieces, behind, h, rfl⟩
        rcases pieces with _ | ⟨piece, pieces⟩
        · cases h
        · cases h
          exact ⟨pieces, behind, rfl, by simp⟩
    · rw [deliveryAfter]
      constructor
      · rintro ⟨⟩
        exact ⟨[], feed, rfl, by simp⟩
      · rintro ⟨pieces, behind, h, rfl⟩
        rcases pieces with _ | ⟨piece, pieces⟩
        · cases h
          simp
        · cases h
    · refine iff_of_false nofun ?_
      rintro ⟨pieces, behind, h, -⟩
      rcases pieces with _ | ⟨piece, pieces⟩ <;> cases h
    · refine iff_of_false nofun ?_
      rintro ⟨pieces, behind, h, -⟩
      rcases pieces with _ | ⟨piece, pieces⟩ <;> cases h

/-- A reader delivers no text but the whole one. -/
theorem delivery_eq_text_iff {feed : Feed} {time : Nat} {text : String} :
    feed.delivery = some (time, .text text) ↔ feed.Spells time text :=
  deliveryAfter_eq_text_iff

theorem deliveryAfter_ne_nothing {feed : Feed} {taken : List UInt8} {time : Nat} :
    deliveryAfter taken feed ≠ some (time, .nothing) := by
  induction feed generalizing taken with
  | nil => nofun
  | cons first feed ih =>
    obtain ⟨t, bytes | _ | e | _⟩ := first
    · exact ih
    · nofun
    · nofun
    · nofun

end Feed

/-- What is relied on about a platform while a child is waited for, where `time` tells what the
clock shows, and `feed` what the readers of the child meet. -/
structure Platform.WaitLaws {σ : Type} (p : Platform σ) (child : Child) (time : σ → Nat)
    (feed : OutputPipe → Feed) : Prop where
  /-- A reading shows a time between the states before and behind it. -/
  reads (s : σ) : time s ≤ (p.now s).1.nanos ∧ (p.now s).1.nanos ≤ time (p.now s).2
  /-- What is received was delivered before. -/
  receives {pipe : OutputPipe} {nanos : Nat} {s t : σ} {answer : Received}
    (h : p.receive child pipe nanos s = (answer, t)) (hanswer : answer ≠ .nothing) :
    time s ≤ time t ∧ ∃ delivered ≤ time t, (feed pipe).delivery = some (delivered, answer)
  /-- A wait is given up only after its time and before the delivery. -/
  gives_up {pipe : OutputPipe} {nanos : Nat} {s t : σ}
    (h : p.receive child pipe nanos s = (.nothing, t)) :
    ∃ up, time s + nanos ≤ up ∧ up ≤ time t ∧
      ∀ delivered answer, (feed pipe).delivery = some (delivered, answer) → up < delivered

end Conformance
