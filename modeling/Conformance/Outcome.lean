import Conformance.ExitState
import Conformance.Text.Search
import Conformance.Time
/-!
# Outcomes of single tests

Running one test always gives one outcome: its name, a verdict, and a short detail that is empty for
a pass. A timeout is a failure in every total.

A test that ran to its end is judged on what was observed. A target that prints the *not-executed*
marker has read the file without running it, and fails even if it exits well; otherwise the exit
state decides, and a failure quotes the beginning of the error output.
-/

namespace Conformance

/-- What became of a test. -/
inductive Verdict where
  | pass
  | fail
  | timeout
  deriving DecidableEq, Repr

def Verdict.isFailure : Verdict → Bool
  | .pass => false
  | .fail | .timeout => true

/-- The result of running one test. -/
structure Outcome where
  /-- The name of the test. -/
  test : String
  verdict : Verdict
  /-- A short diagnostic, empty for a pass. -/
  detail : String
  deriving DecidableEq, Repr

namespace Outcome

def pass (test : String) : Outcome := ⟨test, .pass, ""⟩

def fail (test detail : String) : Outcome := ⟨test, .fail, detail⟩

/-- A test stopped at its time limit. -/
def timeout (test : String) (limit : Duration) : Outcome :=
  ⟨test, .timeout, "Test timeout (>" ++ limit.limitText ++ ")"⟩

def isFailure (o : Outcome) : Bool := o.verdict.isFailure

end Outcome

/-! ## Judging a finished run -/

/-- All that was observed of a child that finished by itself. -/
structure Finished where
  exit : ExitState
  stdout : String
  stderr : String
  deriving DecidableEq, Repr

namespace Finished

/-- The longest excerpt of the error output kept in a detail, in characters. -/
def excerptLength : Nat := 200

/-- The detail of a test whose target only loaded the file. -/
def notExecutedDetail : String := "execution not implemented (file loaded but not executed)"

/-- Whether the output shows a marker. The empty marker is never shown. -/
def shows (run : Finished) (marker : String) : Bool :=
  !marker.isEmpty && Text.contains run.stdout marker

/-- The beginning of the error output. -/
def excerpt (run : Finished) : String :=
  String.ofList (run.stderr.toList.take excerptLength)

/-- The verdict on a finished run, and its detail. -/
def judge (run : Finished) (marker : String) : Verdict × String :=
  if run.shows marker then (.fail, notExecutedDetail)
  else if run.exit.success then (.pass, "")
  else (.fail, "Exit code: " ++ run.exit.text ++ ", stderr: " ++ run.excerpt)

/-- The outcome of a test that finished by itself. -/
def outcome (run : Finished) (test marker : String) : Outcome :=
  let (verdict, detail) := run.judge marker
  ⟨test, verdict, detail⟩

end Finished

end Conformance
