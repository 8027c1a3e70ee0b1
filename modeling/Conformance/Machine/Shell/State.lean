import Conformance.Machine.RawText
import Conformance.Machine.Shell.Command
import Conformance.Machine.Signal
import Conformance.Machine.Task
/-!
# The state of a shell

What a shell remembers between commands, and the monad in which commands are carried out: actions on
the machine, with the state of the shell, that may jump out of loops, functions or the whole script.
The state survives a jump. Texts are raw.
-/

namespace Conformance.Machine

/-- The state of a shell. -/
structure Shell where
  /-- The name under which it was started, or that of its script. -/
  name : String
  arguments : List String
  bindings : List (String × String)
  /-- The variables that programs see. -/
  exported : List String
  functions : List (String × Shell.Command)
  /-- The status of the latest command. -/
  status : UInt8
  /-- The process number of the whole shell, also within its subshells. -/
  pid : Nat
  lastBackground : Option Nat
  /-- What is done on a signal; number zero is the end of the shell. -/
  traps : List (Nat × String)
  line : Nat
  flags : List Char
  /-- The signals that the shell has decided on itself. -/
  decided : List Nat
  /-- The status of the last command whose output was taken into a word. -/
  outputStatus : Option UInt8
  /-- Whether a failure is only being asked about. -/
  isTested : Bool
  /-- How many loops are being carried out, one within the other. -/
  loops : Nat
  /-- The variables that functions have made their own, with the values to be put back, one list for
  each function that is being carried out. -/
  locals : List (List (String × Option String))

namespace Shell

/-- A jump out of commands. -/
inductive Jump where
  /-- Out of a number of loops. -/
  | breaks (loops : Nat)
  /-- To the next round of a loop, out of the loops within it. -/
  | continues (loops : Nat)
  /-- Out of a function or a sourced script. -/
  | returns
  /-- Out of the shell. -/
  | exits
  deriving DecidableEq, Repr

/-- What a shell does. -/
abbrev Sh := ExceptT Jump (StateT Shell Act)

/-- An action on the machine. -/
def act {α : Type} (x : Act α) : Sh α := fun s k ↦ x fun a ↦ k (.ok a, s)

def call (r : Request) : Sh Reply := act (Act.call r)

/-! ## Output -/

/-- Writes a raw text to a descriptor. -/
def put (fd : Nat) (s : String) : Sh (Except IoError Unit) :=
  act (Act.write fd (RawText.toBytes s))

/-- The text of an error as programs print it. -/
def errorText (e : IoError) : String :=
  match e.systemText? with
  | some (_, t) => t
  | none => e.message

/-- Prints an error with the name of the shell and the line. -/
def complain (text : String) : Sh Unit := do
  let s ← get
  let _ ← put 2 (s.name ++ ": " ++ toString s.line ++ ": " ++ text ++ "\n")

def setStatus (status : UInt8) : Sh Unit := modify ({ · with status := status })

/-- Prints an error and ends the shell. -/
def abort {α : Type} (status : UInt8) (text : String) : Sh α := do
  complain text
  setStatus status
  throw .exits

/-! ## Variables -/

def valueOf? (s : Shell) (name : String) : Option String := s.bindings.lookup name

def setVariable (s : Shell) (name value : String) : Shell :=
  { s with bindings := (name, value) :: s.bindings.filter (·.1 ≠ name) }

def unsetVariable (s : Shell) (name : String) : Shell :=
  { s with
    bindings := s.bindings.filter (·.1 ≠ name)
    exported := s.exported.filter (· ≠ name) }

/-- The shell with a variable as it was. -/
def restoreVariable (s : Shell) (name : String) : Option String → Shell
  | some value => s.setVariable name value
  | none => s.unsetVariable name

/-- The value of a parameter, if it is set. -/
def parameter? (s : Shell) (name : String) : Option String :=
  match name with
  | "#" => some (toString s.arguments.length)
  | "?" => some (toString s.status.toNat)
  | "$" => some (toString s.pid)
  | "!" => s.lastBackground.map toString
  | "-" => some (String.ofList s.flags)
  | "0" => some s.name
  | "@" | "*" => if s.arguments.isEmpty then none else some (" ".intercalate s.arguments)
  | _ =>
    match name.toNat? with
    | some n => s.arguments[n - 1]?
    | none => s.valueOf? name

/-- The characters that separate fields. -/
def separators (s : Shell) : List Char := ((s.valueOf? "IFS").getD " \t\n").toList

/-- The environment that programs see. -/
def environment (s : Shell) : List (String × String) :=
  s.bindings.filter fun v ↦ s.exported.contains v.1

/-- The directories in which programs are looked for. -/
def searchPath (s : Shell) : List String := ((s.valueOf? "PATH").getD "").splitOn ":"

/-! ## Signals -/

/-- The status that stands for the end by a raw wait status. -/
def statusOf (raw : UInt32) : UInt8 :=
  if raw &&& 0x7F = 0 then ((raw >>> 8) &&& 0xFF).toUInt8 else 128 + (raw &&& 0x7F).toUInt8

/-- Waits for a child and gives its raw wait status. -/
def waitFor (pid : Nat) : Sh UInt32 := do
  match ← call (.wait (.child pid) false) with
  | .ended _ status => return status
  | _ => return 0x7F00

/-- Says how a child ended, if a signal ended it. -/
def announceEnd (raw : UInt32) : Sh Unit := do
  let signal := (raw &&& 0x7F).toNat
  if signal ≠ 0 && signal ≠ 2 && signal ≠ 13 then
    let _ ← put 2 (Signal.text signal ++ "\n")

/-- Waits for a child, and says how it ended if a signal ended it. -/
def waitAloud (pid : Nat) : Sh UInt8 := do
  let raw ← waitFor pid
  announceEnd raw
  return statusOf raw

end Shell

end Conformance.Machine
