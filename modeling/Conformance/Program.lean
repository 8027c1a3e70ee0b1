import Conformance.CommandLine
import Conformance.Harness
import Conformance.Report.Console
import Conformance.Report.Summary
import Conformance.Snapshot.Printer
/-!
# The program

The program reads its command line, runs a corpus and reports. It goes through four checks in a fixed
order, and stops at the first that fails: the target must be a file, the configuration must be
readable and valid, the corpus must be available, and the reports must be writable. What the tests do
never changes the exit code.
-/

namespace Conformance

namespace Program

variable {σ : Type}

/-- Whether the output of the program is a terminal that takes colours. -/
structure Surroundings where
  isTerminal : Bool
  terminal : Terminal
  deriving DecidableEq, Repr

def Surroundings.usesColours (s : Surroundings) (noColour : Bool) : Bool :=
  s.isTerminal && !noColour && s.terminal.allowsColours

/-- Reads the configuration that the command line asks for. -/
def loadConfig (p : Platform σ) (path : Path) : StateM σ (Except Fault Config) := do
  match ← p.readText path with
  | .error e => return .error (.configUnreadable path e)
  | .ok text =>
    match Config.ofText text with
    | .error e => return .error (.configInvalid path e)
    | .ok c => return .ok c

/-- The configuration of a run: that of the file, or the standard one, with the limit of the command
line. -/
def configFor (p : Platform σ) (args : CommandLine.Arguments) :
    StateM σ (Except Fault Config) := do
  let base ← match args.config with
    | some path => loadConfig p path
    | none => pure (.ok .standard)
  return base.map fun c ↦ (args.timeout.map fun secs ↦ { c with timeoutSecs := secs }).getD c

def writeReport (p : Platform σ) (path : Path) (text : String) : StateM σ (Except Fault Unit) := do
  match ← p.writeText path text with
  | .error e => return .error (.reportUnwritable path e)
  | .ok () => return .ok ()

/-- What the console shows of an event. -/
def eventPieces : RunEvent → List Piece
  | .corpusReady status => Console.corpusReady status
  | .discovered count notice => Console.discovered count (notice.map (·.message))
  | .testFinished index total _ => Console.testFinished index total

def providerFor (args : CommandLine.Arguments) (c : Config) : CorpusProvider :=
  if args.noFetch then .local else .git c.repository CorpusProvider.defaultGit

/-- Says that the corpus is about to be cloned, if it is. -/
def announceClone (p : Platform σ) (args : CommandLine.Arguments) (c : Config) :
    StateM σ Unit := do
  if !args.noFetch then
    if !(← p.isPresent args.corpusDir) then
      p.print (Piece.render false (Console.cloning c.repository args.corpusDir.text))

def report (p : Platform σ) (colours : Bool) (args : CommandLine.Arguments) (c : Config)
    (tally : Tally) : StateM σ (Except Fault Unit) := do
  let context := ReportContext.ofTarget c.suiteName args.target
  p.print (Report.Console.render colours tally context)
  match ← writeReport p args.output (Snapshot.render tally) with
  | .error e => return .error e
  | .ok () =>
    p.print (Piece.render colours (Console.success ("Results saved to " ++ args.output.text)))
    match args.prComment with
    | none => return .ok ()
    | some path =>
      match ← writeReport p path (Report.Summary.render tally context) with
      | .error e => return .error e
      | .ok () =>
        p.print (Piece.render colours (Console.success ("PR comment saved to " ++ path.text)))
        return .ok ()

def execute (p : Platform σ) (s : Surroundings) (args : CommandLine.Arguments) :
    StateM σ (Except RunError Unit) := do
  match ← Harness.ensureTarget p args.target with
  | .error e => return .error (.fault e)
  | .ok () =>
    match ← configFor p args with
    | .error e => return .error (.fault e)
    | .ok c =>
      let colours := s.usesColours args.noColour
      announceClone p args c
      let observe e := p.print (Piece.render colours (eventPieces e))
      let harness := Harness.ofConfig args.target c args.maxTests
      match ← harness.run p observe (providerFor args c) args.corpusDir with
      | .error e => return .error e
      | .ok r => return (← report p colours args c r.tally).mapError .fault

/-- The exit code that an error ends the program with. -/
def exitCodeOf : RunError → Int
  | .fault e => e.exitCode
  | .crash _ => Crash.exitCode

/-- What a user is told about an error. -/
def complaintOf : RunError → String
  | .fault e => e.message ++ ((e.help.map fun h ↦ " (" ++ h ++ ")").getD "")
  | .crash e => e.message

/-- How the program ends. -/
structure Ending where
  exitCode : Int
  /-- What is said on the standard error. -/
  complaint : Option String
  deriving DecidableEq, Repr

/-- Carries out what the command line asks for, and ends. -/
def perform (p : Platform σ) (s : Surroundings) (args : CommandLine.Arguments) :
    StateM σ Ending := do
  match ← execute p s args with
  | .error e => return ⟨exitCodeOf e, some (complaintOf e)⟩
  | .ok () => return ⟨0, none⟩

def run (p : Platform σ) (s : Surroundings) (words : List String) : StateM σ Ending := do
  match CommandLine.read words with
  | .error stop =>
    p.print stop.text
    return ⟨stop.exitCode, none⟩
  | .ok args => perform p s args

end Program

end Conformance
