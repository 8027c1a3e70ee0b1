import Conformance.Config
import Conformance.IoError
import Conformance.Snapshot.Problem
/-!
# Faults that end a run

What goes wrong with a single test becomes its outcome. A fault is what goes wrong with the run as a
whole: it stops the run and decides the exit code of the program.
-/

namespace Conformance

/-- Why a run could not be carried out. -/
inductive Fault where
  /-- There is no target to run. -/
  | targetNotFound (path : Path)
  | corpusUnavailable (root : Path) (reason : String)
  | configUnreadable (path : Path) (error : IoError)
  | configInvalid (path : Path) (failure : Config.Failure)
  | reportUnwritable (path : Path) (error : IoError)
  /-- The results have no JSON form, or a snapshot could not be read. -/
  | notSerialized (failure : Snapshot.Failure)
  deriving DecidableEq, Repr

namespace Fault

def message : Fault → String
  | .targetNotFound path => "target executable not found: " ++ path.text
  | .corpusUnavailable root reason => "corpus unavailable at " ++ root.text ++ ": " ++ reason
  | .configUnreadable path _ => "failed to read config file " ++ path.text
  | .configInvalid path _ => "invalid config file " ++ path.text
  | .reportUnwritable path _ => "failed to write report " ++ path.text
  | .notSerialized _ => "failed to serialize results"

/-- The name by which a fault can be looked up. -/
def code : Fault → String
  | .targetNotFound _ => "harness::precondition::target"
  | .corpusUnavailable .. => "harness::corpus::unavailable"
  | .configUnreadable .. => "harness::config::read"
  | .configInvalid .. => "harness::config::parse"
  | .reportUnwritable .. => "harness::report::write"
  | .notSerialized _ => "harness::report::serialize"

/-- What a user can do about a fault. -/
def help : Fault → Option String
  | .targetNotFound _ => some
    ("build the executable under test first, then pass the path of the binary itself " ++
      "with --target")
  | .corpusUnavailable .. => some
    ("check network access and that \x60git\x60 is on PATH, or point --corpus-dir " ++
      "at an existing checkout")
  | .configInvalid .. => some
    ("recognised keys: suite_name, repository, test_subdir, extension, exclude_marker, " ++
      "not_executed_marker, timeout_secs (at least 1), max_failure_samples")
  | .configUnreadable .. | .reportUnwritable .. | .notSerialized _ => none

/-- The exit code of the program after a fault: two if there is nothing to test, otherwise one. -/
def exitCode : Fault → Int
  | .targetNotFound _ => 2
  | .corpusUnavailable .. | .configUnreadable .. | .configInvalid .. | .reportUnwritable ..
  | .notSerialized _ => 1

end Fault

end Conformance
