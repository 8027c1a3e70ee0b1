import Conformance.Corpus
import Conformance.Executor
import Conformance.Tally
/-!
# The course of a run

A run makes the corpus available, finds its tests, executes them one after the other and tallies the
outcomes. An observer is told of every stage. Only a corpus that cannot be provided is a fault; a
missing test directory gives an empty tally with a notice.
-/

namespace Conformance

/-- What an observer of a run is told. -/
inductive RunEvent where
  | corpusReady (status : CorpusStatus)
  | discovered (count : Nat) (notice : Option DiscoveryNotice)
  /-- A test is finished, the `index`-th of `total`, counted from one. -/
  | testFinished (index total : Nat) (outcome : Outcome)
  deriving DecidableEq, Repr

structure RunReport where
  corpus : CorpusStatus
  notice : Option DiscoveryNotice
  tally : Tally
  deriving DecidableEq, Repr

/-- Why a run gave no report. -/
inductive RunError where
  | fault (fault : Fault)
  | crash (crash : Crash)
  deriving DecidableEq, Repr

/-- How a corpus is run. -/
structure Harness where
  executor : Executor
  rules : DiscoveryRules
  maxTests : Option UInt64
  sampleLimit : UInt64
  deriving DecidableEq, Repr

namespace Harness

variable {σ : Type}

/-- The harness for a target under a configuration. -/
def ofConfig (target : Path) (c : Config) (maxTests : Option UInt64) : Harness where
  executor := ⟨target, c.timeout, c.notExecutedMarker⟩
  rules := c.discoveryRules
  maxTests := maxTests
  sampleLimit := c.maxFailureSamples

/-- Fails unless the target is a regular file. -/
def ensureTarget (p : Platform σ) (target : Path) : StateM σ (Except Fault Unit) := do
  if ← p.isFile target then return .ok () else return .error (.targetNotFound target)

/-- Executes the tests from the `index`-th on, of `total`, and adds their outcomes to a tally. -/
def runFrom (h : Harness) (p : Platform σ) (observe : RunEvent → StateM σ Unit) (total : Nat) :
    Nat → Tally → List TestCase → StateM σ (Except Crash Tally)
  | _, tally, [] => return .ok tally
  | index, tally, case :: cases => do
    match ← h.executor.run p case with
    | .error e => return .error e
    | .ok outcome =>
      observe (.testFinished index total outcome)
      match tally.record outcome with
      | .error e => return .error e
      | .ok tally => runFrom h p observe total (index + 1) tally cases

/-- Executes tests in order and tallies their outcomes. -/
def runCases (h : Harness) (p : Platform σ) (observe : RunEvent → StateM σ Unit)
    (cases : List TestCase) : StateM σ (Except Crash Tally) :=
  h.runFrom p observe cases.length 1 (.empty h.sampleLimit) cases

def discover (h : Harness) (p : Platform σ) (root : Path) : StateM σ Discovery := do
  return .find root h.rules h.maxTests (← p.listing (Discovery.searchRoot root h.rules))

/-- Runs a corpus that `provide` makes available. -/
def runWith (h : Harness) (p : Platform σ) (observe : RunEvent → StateM σ Unit)
    (provide : Path → StateM σ (Except Fault CorpusStatus)) (root : Path) :
    StateM σ (Except RunError RunReport) := do
  match ← provide root with
  | .error e => return .error (.fault e)
  | .ok corpus =>
    observe (.corpusReady corpus)
    let found ← h.discover p root
    observe (.discovered found.cases.length found.notice)
    match ← h.runCases p observe found.cases with
    | .error e => return .error (.crash e)
    | .ok tally => return .ok ⟨corpus, found.notice, tally⟩

def run (h : Harness) (p : Platform σ) (observe : RunEvent → StateM σ Unit)
    (provider : CorpusProvider) (root : Path) : StateM σ (Except RunError RunReport) :=
  h.runWith p observe (provider.ensure p) root

end Harness

end Conformance
