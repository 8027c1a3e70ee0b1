import Conformance.IoError
/-!
# Tasks

A task is what a process is going to do: a tree of requests to the kernel, each followed by what to do
with the reply. A task ends with an exit code, or forks off another task. Being a tree, a task says
nothing of how requests are carried out or in which turn; that is for the kernel.

Tasks are written in the monad `Act`: an action of type `Act α` is a task that is still open at its
end, where it has a value of type `α` at hand.
-/

namespace Conformance.Machine

/-- How a file is opened. -/
inductive OpenMode where
  | read
  /-- For writing, emptied or created first. -/
  | write
  /-- For writing at the end, created if absent. -/
  | append
  /-- For reading and writing, created if absent. -/
  | readWrite
  deriving DecidableEq, Repr

/-- Which children a process waits for. -/
inductive WaitFor where
  | any
  | child (pid : Nat)
  deriving DecidableEq, Repr

/-- What becomes of a signal. -/
inductive Disposition where
  /-- What the system does by itself. -/
  | default
  | ignore
  /-- It is kept for the process to ask for. -/
  | catch
  deriving DecidableEq, Repr

/-- What a path leads to. -/
structure FileInfo where
  isDirectory : Bool
  isRegular : Bool
  isLink : Bool
  isExecutable : Bool
  size : Nat
  /-- The names in it, if it is a directory. -/
  names : List String
  deriving DecidableEq, Repr

/-- A request to the kernel. -/
inductive Request where
  /-- Nothing but the passing of a turn. -/
  | tick
  | openFile (path : String) (mode : OpenMode)
  | close (fd : Nat)
  /-- Makes the second descriptor a copy of the first. -/
  | duplicate (source copy : Nat)
  | pipe
  /-- All descriptors, to be put back later. -/
  | descriptors
  | restore (table : List (Nat × Nat))
  | read (fd count : Nat)
  | write (fd : Nat) (bytes : ByteArray)
  /-- Passes a number of nanoseconds. -/
  | sleep (nanos : Nat)
  /-- Waits for the end of a child; a caught signal may cut the wait short. -/
  | wait (target : WaitFor) (isInterruptible : Bool)
  /-- Sends a signal to a process, or with a negative number to a process group. -/
  | kill (target : Int) (signal : Nat)
  | setDisposition (signal : Nat) (disposition : Disposition)
  /-- The signals that were caught since the last time. -/
  | takeSignals
  /-- Whether a signal was ignored when asked. -/
  | isIgnored (signal : Nat)
  | processNumber
  | parentNumber
  /-- Begins a session of its own. -/
  | newSession
  /-- Replaces the task by that of a program. -/
  | execute (path : String) (arguments : List String) (environment : List (String × String))
  | inspect (path : String) (followsLast : Bool)
  | makeDirectory (path : String)
  | remove (path : String)
  | setExecutable (path : String) (isExecutable : Bool)
  | changeDirectory (path : String)
  | currentDirectory
  | makeLink (target path : String)
  | rename (source path : String)

/-- The kernel's reply to a request. -/
inductive Reply where
  | done
  | number (n : Nat)
  | pair (a b : Nat)
  | bytes (b : ByteArray)
  | text (s : String)
  | numbers (ns : List Nat)
  | table (t : List (Nat × Nat))
  | info (i : FileInfo)
  /-- A child ended with a raw wait status. -/
  | ended (pid : Nat) (status : UInt32)
  /-- A signal came first. -/
  | interrupted
  | failed (e : IoError)

/-- What a process is going to do. -/
inductive Task where
  | exit (code : UInt8)
  | call (request : Request) (next : Reply → Task)
  /-- Goes on in two processes; `next` is told the number of the new one. -/
  | fork (child : Task) (next : Nat → Task)

/-- A task that is open at its end. -/
def Act (α : Type) : Type := (α → Task) → Task

namespace Act

def pure {α : Type} (a : α) : Act α := fun k ↦ k a

/-- One action after another. -/
def bind {α β : Type} (x : Act α) (f : α → Act β) : Act β := fun k ↦ x fun a ↦ f a k

instance : Monad Act where
  pure := pure
  bind := bind

def call (r : Request) : Act Reply := fun k ↦ .call r k

def exit {α : Type} (code : UInt8) : Act α := fun _ ↦ .exit code

def fork (child : Task) : Act Nat := fun k ↦ .fork child k

/-- Makes a request that fails or succeeds without a value. -/
def attempt (r : Request) : Act (Except IoError Unit) := do
  match ← call r with
  | .failed e => return .error e
  | _ => return .ok ()

def openFile (path : String) (mode : OpenMode) : Act (Except IoError Nat) := do
  match ← call (.openFile path mode) with
  | .number fd => return .ok fd
  | .failed e => return .error e
  | _ => return .error .badDescriptor

/-- Reads from a descriptor; no bytes mean its end. -/
def read (fd count : Nat) : Act (Except IoError ByteArray) := do
  match ← call (.read fd count) with
  | .bytes b => return .ok b
  | .failed e => return .error e
  | _ => return .ok .empty

/-- How many turns an action that has no bound of its own may take: more than any clock allows. -/
def boundless : Nat := UInt64.size

/-- Writes bytes to a descriptor, in as many steps as it takes. -/
def writeFrom (fd : Nat) : Nat → ByteArray → Act (Except IoError Unit)
  | 0, _ => return .ok ()
  | fuel + 1, bytes => do
    if bytes.isEmpty then return .ok ()
    match ← call (.write fd bytes) with
    | .number n => writeFrom fd fuel (bytes.extract n bytes.size)
    | .failed e => return .error e
    | _ => return .ok ()

def write (fd : Nat) (bytes : ByteArray) : Act (Except IoError Unit) :=
  writeFrom fd boundless bytes

/-- What a path leads to. -/
def inspect? (path : String) (followsLast : Bool) : Act (Option FileInfo) := do
  match ← call (.inspect path followsLast) with
  | .info i => return some i
  | _ => return none

def processNumber : Act Nat := do
  match ← call .processNumber with
  | .number n => return n
  | _ => return 0

def parentNumber : Act Nat := do
  match ← call .parentNumber with
  | .number n => return n
  | _ => return 0

end Act

end Conformance.Machine
