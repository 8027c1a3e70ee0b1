import Conformance.Console
import Conformance.Fault
import Conformance.Platform
import Conformance.Text.Blank
/-!
# Making a corpus available

Before discovery the corpus must be on disk. One provider uses what is there and never fetches; a
missing corpus is then no error. The other clones a repository if nothing is there yet, and fails if
that fails.
-/

namespace Conformance

/-- How a corpus is provided. -/
inductive CorpusProvider where
  /-- Whatever is on disk. -/
  | local
  /-- A shallow clone of a repository, made by the given program. -/
  | git (repository : String) (program : Path)
  deriving DecidableEq, Repr

namespace CorpusProvider

variable {σ : Type}

/-- The program that clones unless another is named. -/
def defaultGit : Path := ⟨"git"⟩

def cloneArguments (repository : String) (root : Path) : List String :=
  ["clone", "--depth", "1", repository, root.text]

/-- Why a clone that ran did not succeed. -/
def failureReason (run : Completed) : String :=
  "git clone failed (" ++ ExitState.longText run.status ++ "): " ++ Text.trim run.stderr

def clone (p : Platform σ) (repository : String) (program root : Path) :
    StateM σ (Except Fault CorpusStatus) := do
  match ← p.runToEnd program (cloneArguments repository root) with
  | .error e =>
    return .error
      (.corpusUnavailable root ("could not run " ++ program.text ++ ": " ++ e.message))
  | .ok run =>
    if (ExitState.ofRaw run.status).success then return .ok .fetched
    else return .error (.corpusUnavailable root (failureReason run))

/-- Sees to it that a corpus is there, as far as the provider does. -/
def ensure (provider : CorpusProvider) (p : Platform σ) (root : Path) :
    StateM σ (Except Fault CorpusStatus) := do
  if ← p.isPresent root then return .ok .alreadyPresent
  match provider with
  | .local => return .ok .missing
  | .git repository program => clone p repository program root

end CorpusProvider

end Conformance
