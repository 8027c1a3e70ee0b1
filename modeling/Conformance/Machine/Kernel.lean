import Conformance.ExitState
import Conformance.Machine.FileTree
import Conformance.Machine.RawText
import Conformance.Machine.Task
/-!
# The kernel of a machine

A machine has one processor. Its processes take turns; a turn carries out one request of one process
and takes a fixed time. A process whose request cannot be carried out yet is passed over, and if that
holds of all processes the clock moves on to the next moment at which one of them wakes.

Process numbers are given out in a circle. A number is taken as long as a process has it, and as long
as a process group has it. A process that has ended is kept until its parent has seen how; a process
whose parent is gone is forgotten at once. Number 0 stands for whoever uses the machine from outside.

Output that is *captured* goes to a pipe that is read outside the machine, without delay and without
end.
-/

namespace Conformance

namespace Machine

/-- The time that one turn takes, in nanoseconds. -/
def turnLength : Nat := 10000

/-- How many bytes wait in a pipe at most. -/
def pipeCapacity : Nat := 65536

/-- What a descriptor is connected to. -/
inductive Endpoint where
  | file (location : Location) (isAppending : Bool)
  | device (device : Device)
  | directory
  | pipeReader (id : Nat)
  | pipeWriter (id : Nat)
  deriving DecidableEq, Repr

/-- An open file, shared by all descriptors that were made from one. -/
structure OpenFile where
  endpoint : Endpoint
  /-- The next byte to read or to write. -/
  offset : Nat
  deriving DecidableEq, Repr

/-- Whether a process goes on. -/
inductive Life where
  | running
  /-- Held until a signal lets it go on. -/
  | stopped
  /-- It has ended with a raw wait status, and its parent has not seen it. -/
  | ended (status : UInt32)
  deriving DecidableEq, Repr

/-- A process. -/
structure Process where
  pid : Nat
  parent : Nat
  group : Nat
  task : Task
  life : Life
  /-- The open file of every descriptor. -/
  descriptors : List (Nat × Nat)
  directory : Location
  ignored : List Nat
  caught : List Nat
  /-- The caught signals that the process has not asked for yet. -/
  pending : List Nat
  /-- When it wakes, while it sleeps. -/
  wakesAt : Option Nat

def Process.isAlive (p : Process) : Bool :=
  match p.life with
  | .ended _ => false
  | .running | .stopped => true

/-- The lowest descriptor that a process does not use. -/
def Process.freeDescriptor (p : Process) : Nat :=
  ((List.range (p.descriptors.length + 1)).find? fun n ↦ (p.descriptors.lookup n).isNone).getD 0

def Process.setDescriptor (p : Process) (fd file : Nat) : Process :=
  { p with descriptors := (fd, file) :: p.descriptors.filter (·.1 ≠ fd) }

/-- Bytes under way between processes, or to the outside. -/
inductive Pipe where
  | inner (content : ByteArray)
  /-- A pipe that is read outside the machine, with all that was written to it, the latest first. -/
  | captured (pieces : List ByteArray)

/-- All bytes that a pipe holds. -/
def Pipe.content : Pipe → ByteArray
  | .inner content => content
  | .captured pieces => pieces.foldr (fun b a ↦ a ++ b) .empty

/-- The task of a system program with its arguments and environment. -/
abbrev Loader := String → List String → List (String × String) → Task

end Machine

/-- A machine. -/
structure Machine where
  /-- Nanoseconds since the machine was started. -/
  clock : Nat
  tree : Machine.FileTree
  /-- The processes, the next one to take its turn first. -/
  processes : List Machine.Process
  /-- The process number that was given out last. -/
  lastPid : Nat
  openFiles : List (Nat × Machine.OpenFile)
  pipes : List (Nat × Machine.Pipe)
  /-- The next number for an open file or a pipe. -/
  nextId : Nat
  loader : Machine.Loader

namespace Machine

/-! ## Process numbers -/

/-- The greatest process number. -/
def greatestPid : Nat := 32767

/-- The process number that the circle of numbers comes back to. -/
def leastPid : Nat := 300

/-- The process number behind another. -/
def pidAfter (pid : Nat) : Nat := if pid < greatestPid then pid + 1 else leastPid

/-- Whether a process or a process group has a number. -/
def isTaken (m : Machine) (pid : Nat) : Bool :=
  m.processes.any fun p ↦ p.pid = pid || p.group = pid

/-- The first number from `pid` on that is not taken, if at most so many are taken. -/
def freeFrom (m : Machine) : Nat → Nat → Nat
  | 0, pid => pid
  | taken + 1, pid => if m.isTaken pid then m.freeFrom taken (pidAfter pid) else pid

/-- The number of the next process. A process takes two numbers at most. -/
def freshPid (m : Machine) : Nat := m.freeFrom (2 * m.processes.length) (pidAfter m.lastPid)

/-- The machine with a process added, behind all others. -/
def addProcess (m : Machine) (p : Process) : Machine :=
  { m with lastPid := p.pid, processes := m.processes ++ [p] }

/-! ## Processes -/

def process? (m : Machine) (pid : Nat) : Option Process := m.processes.find? (·.pid = pid)

def alter (m : Machine) (pid : Nat) (f : Process → Process) : Machine :=
  { m with processes := m.processes.map fun p ↦ if p.pid = pid then f p else p }

/-- The machine without a process. -/
def forget (m : Machine) (pid : Nat) : Machine :=
  { m with processes := m.processes.filter (·.pid ≠ pid) }

/-- Whether somebody will ask how the children of a process ended. -/
def hasParent (m : Machine) (parent : Nat) : Bool :=
  parent = 0 || (m.process? parent).any (·.isAlive)

/-- Ends a process with a raw wait status. Its children are left without a parent. -/
def finish (m : Machine) (pid : Nat) (status : UInt32) : Machine :=
  match m.process? pid with
  | none => m
  | some p =>
    let orphaned := m.processes.filterMap fun q ↦
      if q.parent = pid then if q.isAlive then some { q with parent := 1 } else none else some q
    let m := { m with processes := orphaned }
    if m.hasParent p.parent then
      m.alter pid fun p ↦ { p with life := .ended status, descriptors := [], wakesAt := none }
    else m.forget pid

/-- The tree as a process sees it. -/
def treeFor (m : Machine) (p : Process) : FileTree := { m.tree with current := p.directory }

/-- The machine with its tree changed by a process. -/
def setTree (m : Machine) (t : FileTree) : Machine :=
  { m with tree := { t with current := m.tree.current } }

/-! ## Signals -/

/-- The signal that ends a process whatever it wants. -/
def killSignal : Nat := 9

/-- The signals that are ignored unless a process catches them. -/
def isHarmless (signal : Nat) : Bool := [17, 18, 23, 28].contains signal

/-- The signals that hold a process. -/
def isHolding (signal : Nat) : Bool := [19, 20, 21, 22].contains signal

def deliver (signal : Nat) (m : Machine) (p : Process) : Machine :=
  if !p.isAlive || signal = 0 then m
  else if signal = killSignal then m.finish p.pid (ExitState.rawOfSignal signal)
  else
    let m := if signal = 18 then m.alter p.pid ({ · with life := .running }) else m
    if signal = 19 then m.alter p.pid ({ · with life := .stopped })
    else if p.ignored.contains signal then m
    else if p.caught.contains signal then
      m.alter p.pid fun p ↦ { p with pending := p.pending ++ [signal] }
    else if isHarmless signal then m
    else if isHolding signal then m.alter p.pid ({ · with life := .stopped })
    else m.finish p.pid (ExitState.rawOfSignal signal)

/-- The processes that a signal to `target` reaches: one process, or the group of the sender or of
another number, or all. -/
def targets (m : Machine) (sender : Process) (target : Int) : List Process :=
  m.processes.filter fun p ↦
    if target = 0 then p.group = sender.group
    else if target = -1 then p.pid ≠ sender.pid
    else if target < 0 then p.group = target.natAbs
    else p.pid = target.toNat

/-! ## Open files -/

/-- The number and the open file of a descriptor. -/
def fileOf? (m : Machine) (p : Process) (fd : Nat) : Option (Nat × OpenFile) := do
  let id ← p.descriptors.lookup fd
  return (id, ← m.openFiles.lookup id)

/-- The machine with one more open file, and its number. -/
def addFile (m : Machine) (endpoint : Endpoint) : Nat × Machine :=
  (m.nextId, { m with nextId := m.nextId + 1, openFiles := (m.nextId, ⟨endpoint, 0⟩) :: m.openFiles })

/-- The machine with one more pipe, and its number. -/
def addPipe (m : Machine) (pipe : Pipe) : Nat × Machine :=
  (m.nextId, { m with nextId := m.nextId + 1, pipes := (m.nextId, pipe) :: m.pipes })

/-- The machine with an open file at another offset. -/
def setOffset (m : Machine) (id offset : Nat) : Machine :=
  { m with openFiles := m.openFiles.map fun e ↦
      if e.1 = id then (id, { e.2 with offset := offset }) else e }

/-- The machine with a pipe changed. -/
def setPipe (m : Machine) (id : Nat) (pipe : Pipe) : Machine :=
  { m with pipes := m.pipes.map fun e ↦ if e.1 = id then (id, pipe) else e }

/-- Whether a process has a descriptor connected to an endpoint. -/
def isConnected (m : Machine) (endpoint : Endpoint) : Bool :=
  m.processes.any fun p ↦ p.isAlive && p.descriptors.any fun d ↦
    (m.openFiles.lookup d.2).any (·.endpoint = endpoint)

/-! ## Requests -/

/-- What carrying out a request comes to. -/
inductive Effect where
  /-- It is done, and the process goes on with a reply. -/
  | replied (m : Machine) (r : Reply)
  /-- Something was done, and the request stands. -/
  | parked (m : Machine)
  /-- It must be asked again later. -/
  | blocked
  /-- The process has ended or has another task. -/
  | settled (m : Machine)

/-- The effect of a request that can fail. -/
def Effect.ofExcept {α : Type} (m : Machine) (x : Except IoError α) (f : α → Machine × Reply) :
    Effect :=
  match x with
  | .ok a => .replied (f a).1 (f a).2
  | .error e => .replied m (.failed e)

/-- The endpoint that opening a path gives, and the tree after it. -/
def endpointFor (t : FileTree) (path : String) :
    OpenMode → Except IoError (Endpoint × FileTree)
  | .read => do
    let place ← t.resolve path true
    match place.node with
    | none => .error .noEntry
    | some (.directory _) => return (.directory, t)
    | some (.device d) => return (.device d, t)
    | some _ => return (.file place.location false, t)
  | .write => do
    let (location, t) ← t.truncate path
    match t.root.get? location with
    | some (.device d) => return (.device d, t)
    | _ => return (.file location false, t)
  | mode => do
    let place ← t.resolve path true
    match place.node with
    | none =>
      return (.file place.location (mode = .append), t.put place.location (some (.file .empty false)))
    | some (.directory _) => .error .isDirectory
    | some (.device d) => return (.device d, t)
    | some _ => return (.file place.location (mode = .append), t)

def openFile (m : Machine) (p : Process) (path : String) (mode : OpenMode) : Effect :=
  .ofExcept m (endpointFor (m.treeFor p) path mode) fun (endpoint, t) ↦
    let (id, m) := (m.setTree t).addFile endpoint
    let fd := p.freeDescriptor
    (m.alter p.pid (·.setDescriptor fd id), .number fd)

/-- The bytes of a file at a location. -/
def contentAt (m : Machine) (l : Location) : ByteArray :=
  match m.tree.root.get? l with
  | some (.file content _) => content
  | some (.program _) => FileTree.programHeader
  | _ => .empty

/-- As many NULs as one reading gives at most. -/
def zeros : ByteArray := ⟨(List.replicate 65536 0).toArray⟩

def read (m : Machine) (p : Process) (fd count : Nat) : Effect :=
  match m.fileOf? p fd with
  | none => .replied m (.failed .badDescriptor)
  | some (id, f) =>
    match f.endpoint with
    | .file l _ =>
      let bytes := (m.contentAt l).extract f.offset (f.offset + count)
      .replied (m.setOffset id (f.offset + bytes.size)) (.bytes bytes)
    | .device .null => .replied m (.bytes .empty)
    | .device .zero => .replied m (.bytes (if count < zeros.size then zeros.extract 0 count else zeros))
    | .directory => .replied m (.failed .isDirectory)
    | .pipeWriter _ => .replied m (.failed .badDescriptor)
    | .pipeReader pipe =>
      match m.pipes.lookup pipe with
      | some (.inner content) =>
        if content.isEmpty then
          if m.isConnected (.pipeWriter pipe) then .blocked else .replied m (.bytes .empty)
        else
          .replied (m.setPipe pipe (.inner (content.extract count content.size)))
            (.bytes (content.extract 0 count))
      | _ => .replied m (.failed .badDescriptor)

/-- Writes bytes into a file at a location. -/
def writeAt (m : Machine) (l : Location) (offset : Nat) (bytes : ByteArray) : Machine :=
  match m.tree.root.get? l with
  | some (.file content x) =>
    let padded := content ++ ⟨(List.replicate (offset - content.size) 0).toArray⟩
    let content := padded.extract 0 offset ++ bytes ++
      padded.extract (offset + bytes.size) padded.size
    { m with tree := m.tree.put l (some (.file content x)) }
  | _ => m

/-- Writes to a pipe. A pipe that nobody can read ends the writer by a signal. -/
def writePipe (m : Machine) (p : Process) (pipe : Nat) (bytes : ByteArray) : Effect :=
  match m.pipes.lookup pipe with
  | none => .replied m (.failed .badDescriptor)
  | some (.captured pieces) =>
    .replied (m.setPipe pipe (.captured (bytes :: pieces))) (.number bytes.size)
  | some (.inner content) =>
    if !m.isConnected (.pipeReader pipe) then
      if p.ignored.contains 13 then .replied m (.failed .brokenPipe)
      else if p.caught.contains 13 then
        .replied (deliver 13 m p) (.failed .brokenPipe)
      else .settled (deliver 13 m p)
    else
      let room := pipeCapacity - content.size
      if room = 0 then .blocked
      else
        let part := bytes.extract 0 room
        .replied (m.setPipe pipe (.inner (content ++ part))) (.number part.size)

def write (m : Machine) (p : Process) (fd : Nat) (bytes : ByteArray) : Effect :=
  match m.fileOf? p fd with
  | none => .replied m (.failed .badDescriptor)
  | some (id, f) =>
    match f.endpoint with
    | .file l isAppending =>
      let offset := if isAppending then (m.contentAt l).size else f.offset
      .replied ((m.writeAt l offset bytes).setOffset id (offset + bytes.size)) (.number bytes.size)
    | .device _ => .replied m (.number bytes.size)
    | .pipeWriter pipe => m.writePipe p pipe bytes
    | .directory | .pipeReader _ => .replied m (.failed .badDescriptor)

def wait (m : Machine) (p : Process) (target : WaitFor) (isInterruptible : Bool) : Effect :=
  let children := m.processes.filter fun q ↦ q.parent = p.pid && match target with
    | .any => true
    | .child pid => q.pid = pid
  let ended := children.findSome? fun q ↦ match q.life with
    | .ended status => some (q.pid, status)
    | _ => none
  match ended with
  | some (pid, status) => .replied (m.forget pid) (.ended pid status)
  | none =>
    if children.isEmpty then .replied m (.failed (.other "No child processes"))
    else if isInterruptible && !p.pending.isEmpty then .replied m .interrupted
    else .blocked

def sleep (m : Machine) (p : Process) (nanos : Nat) : Effect :=
  match p.wakesAt with
  | none => .parked (m.alter p.pid ({ · with wakesAt := some (m.clock + nanos) }))
  | some t =>
    if t ≤ m.clock then .replied (m.alter p.pid ({ · with wakesAt := none })) .done
    else if !p.pending.isEmpty then
      .replied (m.alter p.pid ({ · with wakesAt := none })) .interrupted
    else .blocked

/-- What a process does with a signal from now on. -/
def setDisposition (p : Process) (signal : Nat) (d : Disposition) : Process :=
  let ignored := p.ignored.filter (· ≠ signal)
  let caught := p.caught.filter (· ≠ signal)
  match d with
  | .default => { p with ignored, caught }
  | .ignore => { p with ignored := signal :: ignored, caught }
  | .catch => { p with ignored, caught := signal :: caught }

/-! ## Programs -/

/-- The interpreter that a script names on its first line, and its argument if there is one. -/
def interpreter? (content : ByteArray) : Option (String × Option String) :=
  let line := (RawText.ofBytes (content.extract 0 256)).toList.takeWhile (· ≠ '\n')
  match line with
  | '#' :: '!' :: r =>
    let isBlank c := c == ' ' || c == '\t'
    let r := ((r.dropWhile isBlank).reverse.dropWhile isBlank).reverse
    let name := r.takeWhile (!isBlank ·)
    let argument := (r.dropWhile (!isBlank ·)).dropWhile isBlank
    if name.isEmpty then none
    else some (String.ofList name, if argument.isEmpty then none else some (String.ofList argument))
  | _ => none

/-- The task of the program at a path. A script is handed to its interpreter, which may again be a
script, to a certain depth. -/
def load (m : Machine) (t : FileTree) (environment : List (String × String)) :
    Nat → String → List String → Except IoError Task
  | depth, path, arguments => do
    match ← t.node path with
    | .program name => return m.loader name arguments environment
    | .file content true =>
      match interpreter? content, depth with
      | none, _ => .error .badFormat
      | some _, 0 => .error .tooManyLinks
      | some (name, argument), depth + 1 =>
        m.load t environment depth (RawText.toText name)
          (name :: argument.toList ++ [RawText.ofText path] ++ arguments.drop 1)
    | _ => .error .denied

end Machine

end Conformance
