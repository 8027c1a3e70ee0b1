import Conformance.Machine.Kernel
/-!
# The turns of a machine

A turn carries out one request of one process. The processes take turns in a circle, and those that
must wait are passed over. The machine runs until a given moment or until something has come about,
whichever is first.
-/

namespace Conformance.Machine

def namesIn (n : FileNode) : List String := n.entries.map (·.1)

def sizeOf (n : FileNode) : Nat :=
  match n with
  | .file content _ => content.size
  | .program _ => FileTree.programHeader.size
  | _ => 0

/-- What a process can find out about a node. -/
def infoOf (n : FileNode) : FileInfo where
  isDirectory := n.isDirectory
  isRegular := n.isRegular
  isLink := match n with
    | .link _ => true
    | _ => false
  isExecutable := match n with
    | .file _ x => x
    | .program _ => true
    | .directory _ => true
    | _ => false
  size := sizeOf n
  names := namesIn n

/-- The tree without the file or the empty directory that a path leads to. -/
def removed (t : FileTree) (path : String) : Except IoError FileTree := do
  let place ← t.resolve path false
  match place.node with
  | none => .error .noEntry
  | some (.directory (_ :: _)) => .error .notEmpty
  | some _ => return t.put place.location none

/-- The tree with a file under another path. -/
def renamed (t : FileTree) (source path : String) : Except IoError FileTree := do
  let origin ← t.resolve source false
  match origin.node with
  | none => .error .noEntry
  | some n =>
    let place ← t.resolve path false
    match place.node with
    | some (.directory _) => .error .isDirectory
    | _ => return (t.put origin.location none).put place.location (some n)

/-- The tree with a file made executable or not. -/
def withMode (t : FileTree) (path : String) (isExecutable : Bool) : Except IoError FileTree := do
  let place ← t.resolve path true
  match place.node with
  | none => .error .noEntry
  | some (.file content _) => return t.put place.location (some (.file content isExecutable))
  | some _ => return t

/-- The tree with one more symbolic link. -/
def linked (t : FileTree) (target path : String) : Except IoError FileTree := do
  let place ← t.resolve path false
  match place.node with
  | none => return t.put place.location (some (.link target))
  | some _ => .error .alreadyExists

/-- What a changed tree comes to. -/
def changeTree (m : Machine) (t : Except IoError FileTree) : Effect :=
  .ofExcept m t fun t ↦ (m.setTree t, .done)

def perform (m : Machine) (p : Process) (r : Request) : Effect :=
  let tree := m.treeFor p
  match r with
  | .tick => .replied m .done
  | .openFile path mode => m.openFile p path mode
  | .close fd =>
    if (p.descriptors.lookup fd).isNone then .replied m (.failed .badDescriptor)
    else
      .replied (m.alter p.pid fun p ↦
        { p with descriptors := p.descriptors.filter (·.1 ≠ fd) }) .done
  | .duplicate source copy =>
    match p.descriptors.lookup source with
    | none => .replied m (.failed .badDescriptor)
    | some id => .replied (m.alter p.pid (·.setDescriptor copy id)) .done
  | .pipe =>
    let (pipe, m) := m.addPipe (.inner .empty)
    let (reader, m) := m.addFile (.pipeReader pipe)
    let (writer, m) := m.addFile (.pipeWriter pipe)
    let a := p.freeDescriptor
    let p := p.setDescriptor a reader
    let b := p.freeDescriptor
    .replied (m.alter p.pid fun _ ↦ p.setDescriptor b writer) (.pair a b)
  | .descriptors => .replied m (.table p.descriptors)
  | .restore table => .replied (m.alter p.pid ({ · with descriptors := table })) .done
  | .read fd count => m.read p fd count
  | .write fd bytes => m.write p fd bytes
  | .sleep nanos => m.sleep p nanos
  | .wait target isInterruptible => m.wait p target isInterruptible
  | .kill target signal =>
    let reached := (m.targets p target).filter (·.isAlive)
    if reached.isEmpty then
      if (m.targets p target).isEmpty then .replied m (.failed (.other "No such process"))
      else .replied m .done
    else
      let m := reached.foldl (deliver signal) m
      if (m.process? p.pid).any (·.isAlive) then .replied m .done else .settled m
  | .setDisposition signal d => .replied (m.alter p.pid (setDisposition · signal d)) .done
  | .takeSignals =>
    .replied (m.alter p.pid ({ · with pending := [] })) (.numbers p.pending)
  | .isIgnored signal => .replied m (.number (if p.ignored.contains signal then 1 else 0))
  | .processNumber => .replied m (.number p.pid)
  | .parentNumber => .replied m (.number p.parent)
  | .newSession =>
    if p.group = p.pid then .replied m (.failed (.other "Operation not permitted"))
    else .replied (m.alter p.pid ({ · with group := p.pid })) .done
  | .execute path arguments environment =>
    match m.load tree environment 4 path arguments with
    | .error e => .replied m (.failed e)
    | .ok task => .settled (m.alter p.pid fun p ↦ { p with task := task, caught := [] })
  | .inspect path followsLast =>
    .ofExcept m (tree.resolve path followsLast) fun place ↦
      (m, (place.node.map fun n ↦ .info (infoOf n)).getD (.failed .noEntry))
  | .makeDirectory path => m.changeTree (tree.makeDirectory path)
  | .remove path => m.changeTree (removed tree path)
  | .setExecutable path isExecutable => m.changeTree (withMode tree path isExecutable)
  | .changeDirectory path =>
    .ofExcept m (tree.resolve path true) fun place ↦
      match place.node with
      | some (.directory _) =>
        (m.alter p.pid ({ · with directory := place.location }), .done)
      | some _ => (m, .failed .notDirectory)
      | none => (m, .failed .noEntry)
  | .currentDirectory => .replied m (.text ("/" ++ "/".intercalate p.directory))
  | .makeLink target path => m.changeTree (linked tree target path)
  | .rename source path => m.changeTree (renamed tree source path)

/-- The machine after a turn of a process, unless the process must wait. -/
def turn (m : Machine) (p : Process) : Option Machine :=
  match p.task with
  | .exit code => some (m.finish p.pid (ExitState.rawOfCode code))
  | .fork child next =>
    let pid := m.freshPid
    let q := { p with pid := pid, parent := p.pid, task := child, pending := [], wakesAt := none }
    some ((m.alter p.pid ({ · with task := next pid })).addProcess q)
  | .call r next =>
    match m.perform p r with
    | .replied m r => some (m.alter p.pid ({ · with task := next r }))
    | .parked m => some m
    | .settled m => some m
    | .blocked => none

/-- The machine with a process moved to the end of the circle. -/
def rotate (m : Machine) (pid : Nat) : Machine :=
  { m with processes :=
      m.processes.filter (·.pid ≠ pid) ++ m.processes.filter (·.pid = pid) }

/-- The machine after the turn of the first process that need not wait. -/
def step (m : Machine) : Option Machine :=
  m.processes.findSome? fun p ↦
    match p.life with
    | .running => (m.turn p).map (·.rotate p.pid)
    | .stopped | .ended _ => none

/-- When the next process wakes, but not after `limit`. -/
def nextWake (m : Machine) (limit : Nat) : Nat :=
  m.processes.foldl (fun t p ↦
    match p.life, p.wakesAt with
    | .running, some w => min t w
    | _, _ => t) limit

/-- Runs a machine to a moment, or until something is so. Every step moves the clock. -/
def runFrom (limit : Nat) (isDone : Machine → Bool) : Nat → Machine → Machine
  | 0, m => m
  | fuel + 1, m =>
    if limit ≤ m.clock || isDone m then m
    else
      match m.step with
      | some m => runFrom limit isDone fuel { m with clock := m.clock + turnLength }
      | none => runFrom limit isDone fuel { m with clock := m.nextWake limit }

/-- Runs a machine for a number of nanoseconds, or until something is so. Between two moves to a
wake there is a turn, so twice the turns that fit are enough. -/
def runFor (m : Machine) (nanos : Nat) (isDone : Machine → Bool) : Machine :=
  runFrom (m.clock + nanos) isDone (2 * (nanos / turnLength + 2)) m

end Conformance.Machine
