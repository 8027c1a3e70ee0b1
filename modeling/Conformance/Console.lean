import Conformance.Report.Console
/-!
# Console output of a run

What the user sees while a run goes on: marked messages, the course of the run, and at its end the
summary. Colours are used only where they are wanted and the terminal allows them.
-/

namespace Conformance

/-- Whether a corpus is there, and how it came there. -/
inductive CorpusStatus where
  /-- The directory was already there. -/
  | alreadyPresent
  /-- It was fetched just now. -/
  | fetched
  /-- It is not there, and nothing fetches it. -/
  | missing
  deriving DecidableEq, Repr

/-- What the environment says about the terminal. -/
structure Terminal where
  /-- The kind of terminal, if it is known. -/
  kind : Option String
  /-- Whether the user asked programs not to use colours. -/
  noColour : Bool
  deriving DecidableEq, Repr

def Terminal.allowsColours (t : Terminal) : Bool :=
  !t.noColour && t.kind.any (· ≠ "dumb")

namespace Console

/-- A message behind a coloured mark. -/
def mark (colour : Colour) (sign message : String) : List Piece :=
  [.style colour true, .text sign, .reset, .line (" " ++ message)]

def success (message : String) : List Piece := mark .green "✓" message

def failure (message : String) : List Piece := mark .red "✗" message

/-- What is said once the corpus is ready. -/
def corpusReady : CorpusStatus → List Piece
  | .fetched => success "Successfully fetched corpus"
  | .alreadyPresent | .missing => []

/-- What is said once the tests are known. -/
def discovered (count : Nat) (notice : Option String) : List Piece :=
  (notice.map failure).getD [] ++
    if count = 0 then failure "No test files found"
    else
      [.line ("Found " ++ toString count ++ " test files"),
        .line ("\nRunning " ++ toString count ++ " tests...\n")]

/-- Progress is reported for the first test and then for every one of this many. -/
def progressEvery : Nat := 100

def testFinished (index total : Nat) : List Piece :=
  if index = 1 ∨ index % progressEvery = 0 then
    [.line ("Progress: " ++ toString index ++ "/" ++ toString total ++ " tests...")]
  else []

/-- What is said before a corpus is cloned. -/
def cloning (repository directory : String) : List Piece :=
  [.line ("Cloning " ++ repository ++ " into " ++ directory ++ "...")]

end Console

end Conformance
