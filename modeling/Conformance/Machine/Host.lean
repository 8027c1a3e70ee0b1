import Conformance.Machine.System
import Conformance.Platform
/-!
# A machine as a platform

A host is a machine with a run going on outside of it. The run starts programs on the machine and
reads their output there; while it waits, the machine runs. What the run prints is kept as text.
-/

namespace Conformance

/-- A machine with a run outside of it. -/
structure Host where
  machine : Machine
  /-- The captured pipes of the children, for standard output and standard error. -/
  captures : List (Child × Nat × Nat)
  /-- The raw wait statuses of the children whose end was seen. -/
  seen : List (Child × UInt32)
  printed : String

namespace Host

/-- A host with a machine that was just started. -/
def boot : Host := ⟨Machine.System.boot, [], [], ""⟩

def setMachine (h : Host) (m : Machine) : Host := { h with machine := m }

def setTree (h : Host) (t : Machine.FileTree) : Host := h.setMachine { h.machine with tree := t }

/-! ## Starting programs -/

/-- The task of the first program of a name in a list of directories. A file that may not be executed
is passed over, and remembered. -/
def searchTask (m : Machine) (name : String) (arguments : List String) :
    IoError → List String → Except IoError Machine.Task
  | e, [] => .error e
  | e, d :: ds =>
    match m.load m.tree Machine.System.environment 4 (Machine.Launch.join d name) arguments with
    | .ok task => .ok task
    | .error .denied => searchTask m name arguments .denied ds
    | .error .noEntry | .error .notDirectory => searchTask m name arguments e ds
    | .error other => .error other

/-- The task that starting a program begins with. -/
def taskFor (m : Machine) (program : String) (arguments : List String) :
    Except IoError Machine.Task :=
  if (program :: arguments).any (·.contains '\x00') then .error .nulInCommand
  else if program = "" then .error .noEntry
  else
    let words := (program :: arguments).map Machine.RawText.ofText
    if program.contains '/' then m.load m.tree Machine.System.environment 4 program words
    else searchTask m program words .noEntry Machine.System.searchPath

/-- Starts a program with nothing on its standard input and with captured output, in a process group
of its own. -/
def start (program : Path) (arguments : List String) : StateM Host (Except IoError Child) := do
  let h ← get
  match taskFor h.machine program.text arguments with
  | .error e => return .error e
  | .ok task =>
    let m := h.machine
    let pid := m.freshPid
    let (input, m) := m.addFile (.device .null)
    let (first, m) := m.addPipe (.captured [])
    let (stdout, m) := m.addFile (.pipeWriter first)
    let (second, m) := m.addPipe (.captured [])
    let (stderr, m) := m.addFile (.pipeWriter second)
    let process : Machine.Process :=
      { pid, parent := 0, group := pid, task, life := .running,
        descriptors := [(0, input), (1, stdout), (2, stderr)], directory := m.tree.current,
        ignored := [], caught := [], pending := [], wakesAt := none }
    set { h with
      machine := m.addProcess process
      captures := (⟨pid⟩, first, second) :: h.captures
      seen := h.seen.filter (·.1.pid ≠ pid) }
    return .ok ⟨pid⟩

/-! ## Watching children -/

/-- The captured pipe of a child. -/
def pipeOf (h : Host) (child : Child) (pipe : OutputPipe) : Nat :=
  match h.captures.lookup child, pipe with
  | some (first, _), .stdout => first
  | some (_, second), .stderr => second
  | none, _ => 0

/-- Whether nobody can write to a pipe any more. -/
def isClosed (pipe : Nat) (m : Machine) : Bool := !m.isConnected (.pipeWriter pipe)

/-- The text that a pipe has taken up. -/
def textOf (m : Machine) (pipe : Nat) : String :=
  match m.pipes.lookup pipe with
  | some p => String.ofList (Utf8.decodeLossy p.content.toList)
  | none => ""

/-- How a process ended, if it has. -/
def ended? (pid : Nat) (m : Machine) : Option UInt32 := do
  match (← m.process? pid).life with
  | .ended status => some status
  | .running | .stopped => none

/-- Runs the machine for a time, or until something is so. -/
def runFor (nanos : Nat) (isDone : Machine → Bool) : StateM Host Unit :=
  modify fun h ↦ h.setMachine (h.machine.runFor nanos isDone)

/-- More nanoseconds than any run takes. -/
def forever : Nat := 1000000000000000000

/-- Asks how a child ended, and remembers it. -/
def poll (child : Child) : StateM Host (Except IoError (Option UInt32)) := do
  let h ← get
  match h.seen.lookup child, ended? child.pid h.machine with
  | some status, _ => return .ok (some status)
  | none, some status =>
    set { h with machine := h.machine.forget child.pid, seen := (child, status) :: h.seen }
    return .ok (some status)
  | none, none => return .ok none

/-- Waits for the text of a pipe. -/
def receive (child : Child) (pipe : OutputPipe) (nanos : Nat) : StateM Host Received := do
  let id := (← get).pipeOf child pipe
  runFor nanos (isClosed id)
  let m := (← get).machine
  return if isClosed id m then .text (textOf m id) else .nothing

def killGroup (child : Child) : StateM Host Unit :=
  modify fun h ↦
    let group := h.machine.processes.filter (·.group = child.pid)
    h.setMachine (group.foldl (Machine.deliver Machine.killSignal) h.machine)

/-- Kills a child whose end was not seen. -/
def killChild (child : Child) : StateM Host Unit :=
  modify fun h ↦
    match h.seen.lookup child, h.machine.process? child.pid with
    | none, some p => h.setMachine (Machine.deliver Machine.killSignal h.machine p)
    | _, _ => h

/-- Waits until a child has ended. -/
def reap (child : Child) : StateM Host Unit := do
  runFor forever fun m ↦ (m.process? child.pid).isNone || (ended? child.pid m).isSome
  let _ ← poll child

/-- Runs a program to its end. -/
def runToEnd (program : Path) (arguments : List String) :
    StateM Host (Except IoError Completed) := do
  match ← start program arguments with
  | .error e => return .error e
  | .ok child =>
    let h ← get
    let stdout := h.pipeOf child .stdout
    let stderr := h.pipeOf child .stderr
    runFor forever fun m ↦
      (ended? child.pid m).isSome && isClosed stdout m && isClosed stderr m
    let m := (← get).machine
    match ← poll child with
    | .ok (some status) => return .ok ⟨status, textOf m stdout, textOf m stderr⟩
    | _ => return .error (.other "the program does not end")

/-! ## Files -/

mutual

/-- What a walk meets at a node under a path of a certain length in bytes. -/
def entryOf (length : Nat) : Machine.FileNode → Entry
  | .file .. | .program _ => .file
  | .device _ | .link _ => .other
  | .directory es =>
    if Machine.FileTree.longestPath ≤ length then .unreadable else .directory (entriesOf length es)

/-- What a walk meets in a directory under a path of a certain length in bytes. -/
def entriesOf (length : Nat) : List (String × Machine.FileNode) → List (String × Entry)
  | [] => []
  | (name, node) :: rest =>
    (name, entryOf (length + 1 + name.utf8ByteSize) node) :: entriesOf length rest

end

/-- What a directory lists. The directory itself may be reached through links. -/
def listing (t : Machine.FileTree) (path : Path) : Option (List (String × Entry)) :=
  match t.node path.text with
  | .ok (.directory es) =>
    let length := path.text.utf8ByteSize
    some (entriesOf (if path.text.endsWith "/" then length - 1 else length) es)
  | _ => none

def writeText (path : Path) (text : String) : StateM Host (Except IoError Unit) := do
  let h ← get
  match h.machine.tree.writeBytes path.text text.toUTF8 with
  | .error e => return .error e
  | .ok t =>
    set (h.setTree t)
    return .ok ()

/-- A host as the platform of a run. -/
def platform : Platform Host where
  now := do return ⟨(← get).machine.clock⟩
  pause nanos := runFor nanos fun _ ↦ false
  spawn := start
  startReader _ _ := pure true
  poll := poll
  receive := receive
  isDrained child pipe := do
    let h ← get
    return isClosed (h.pipeOf child pipe) h.machine
  killGroup := killGroup
  killChild := killChild
  reap := reap
  runToEnd := runToEnd
  isFile path := do return (← get).machine.tree.isFile path.text
  isPresent path := do return (← get).machine.tree.isPresent path.text
  listing path := do return listing (← get).machine.tree path
  readText path := do return (← get).machine.tree.readText path.text
  writeText := writeText
  print s := modify fun h ↦ { h with printed := h.printed ++ s }

end Host

end Conformance
