import Conformance.Machine.Launch
import Conformance.Machine.Shell.State
/-!
# Single actions of a shell

What carrying out a command is made of: starting children, connecting descriptors, taking the place of
the shell, and looking after jumps. None of these actions carries out commands of its own.
-/

namespace Conformance.Machine.Shell

/-- Carries out an action whose failure is only being asked about. -/
def tested (x : Sh Unit) : Sh Unit := do
  let before := (← get).isTested
  modify ({ · with isTested := true })
  tryCatch x fun j ↦ do
    modify ({ · with isTested := before })
    throw j
  modify ({ · with isTested := before })

/-- Carries out an action, and puts the descriptors back afterwards. -/
def withDescriptors (x : Sh Unit) : Sh Unit := do
  match ← call .descriptors with
  | .table t =>
    tryCatch x fun j ↦ do
      let _ ← call (.restore t)
      throw j
    let _ ← call (.restore t)
  | _ => x

/-- Starts a child that carries out an action and ends with the status it leaves. -/
def forkShell (x : Sh Unit) : Sh Nat := fun s k ↦
  .fork (x s fun (_, s) ↦ .exit s.status) fun pid ↦ k (.ok pid, s)

/-- What a child forgets of the shell it comes from: the actions on signals. -/
def enterChild : Sh Unit := do
  for (signal, action) in (← get).traps do
    if signal ≠ 0 && !action.isEmpty then
      let _ ← call (.setDisposition signal .default)
  modify fun s ↦ { s with traps := s.traps.filter (·.2.isEmpty) }

/-- What a child does that nobody waits for: it reads nothing and goes on at the keyboard's signals. -/
def enterBackground : Sh Unit := do
  let _ ← call (.setDisposition 2 .ignore)
  let _ ← call (.setDisposition 3 .ignore)
  match ← call (.openFile "/dev/null" .read) with
  | .number fd =>
    let _ ← call (.duplicate fd 0)
    if fd ≠ 0 then let _ ← call (.close fd)
  | _ => pure ()

/-- Executes a program in place of the shell. -/
def becomeProgram (words : List String) (environment : List (String × String))
    (place : String) : Sh Unit := do
  let s ← get
  let report (e : String) : Act Unit := do
    let e := if e = "No such file or directory" then "not found" else e
    let text := s.name ++ ": " ++ toString s.line ++ ": " ++ place ++ words.head?.getD "" ++ ": " ++ e
    let _ ← Act.write 2 (RawText.toBytes (text ++ "\n"))
    return
  let directories := (environment.lookup "PATH").map (·.splitOn ":")
  let code ← act (Launch.become (directories.getD s.searchPath) words environment report)
  setStatus code
  throw .exits

/-- Why a file cannot be opened for reading. -/
def openError : IoError → String
  | .noEntry | .notDirectory => "No such file"
  | e => errorText e

/-- Why a file cannot be opened for writing. -/
def createError : IoError → String
  | .noEntry | .notDirectory => "Directory nonexistent"
  | e => errorText e

/-- Connects a descriptor to a file. -/
def connect (fd : Nat) (path : String) (mode : OpenMode) : Sh Bool := do
  match ← call (.openFile (RawText.toText path) mode) with
  | .number opened =>
    if opened ≠ fd then
      let _ ← call (.duplicate opened fd)
      let _ ← call (.close opened)
    return true
  | .failed e =>
    match mode with
    | .read => complain ("cannot open " ++ path ++ ": " ++ openError e)
    | _ => complain ("cannot create " ++ path ++ ": " ++ createError e)
    return false
  | _ => return false

/-- Makes a descriptor a copy of the one that a word names, or closes it. -/
def copyDescriptor (fd : Nat) (word : String) : Sh Bool := do
  if word = "-" then
    let _ ← call (.close fd)
    return true
  match word.toNat? with
  | some source =>
    match ← call (.duplicate source fd) with
    | .failed _ =>
      complain (word ++ ": Bad file descriptor")
      return false
    | _ => return true
  | none => abort 2 "Syntax error: Bad fd number"

/-- Connects a descriptor to a pipe that holds a text. -/
def connectText (fd : Nat) (text : String) : Sh Bool := do
  match ← call .pipe with
  | .pair reader writer =>
    if text.length ≤ 65536 then
      let _ ← put writer text
    else
      let _ ← forkShell do
        let _ ← call (.close reader)
        let _ ← put writer text
    let _ ← call (.close writer)
    if reader ≠ fd then
      let _ ← call (.duplicate reader fd)
      let _ ← call (.close reader)
    return true
  | _ => return false

def withoutLineEnds (s : String) : String :=
  String.ofList (s.toList.reverse.dropWhile (· == '\n')).reverse

def readToEnd (fd : Nat) : Nat → ByteArray → Sh ByteArray
  | 0, b => return b
  | fuel + 1, b => do
    match ← call (.read fd 65536) with
    | .bytes more => if more.isEmpty then return b else readToEnd fd fuel (b ++ more)
    | _ => return b

/-- The value of a parameter, or the end of the shell if it must be set and is not. -/
def parameterValue (name : String) : Sh String := do
  let s ← get
  match s.parameter? name with
  | some v => return v
  | none =>
    if s.flags.contains 'u' && name ≠ "@" && name ≠ "*" then
      abort 2 (name ++ ": parameter not set")
    else return ""

/-- Ends the shell if a failure is to end it. -/
def stopOnFailure : Sh Unit := do
  let s ← get
  if s.status ≠ 0 && !s.isTested && s.flags.contains 'e' then throw .exits

/-- Carries out a round of a loop. Tells whether the loop goes on. -/
def round (x : Sh Unit) : Sh Bool := do
  let outer := (← get).loops
  modify ({ · with loops := outer + 1 })
  tryCatch (do x; modify ({ · with loops := outer }); return true) fun j ↦ do
    modify ({ · with loops := outer })
    match j with
    | .breaks n => if n ≤ 1 then return false else throw (.breaks (n - 1))
    | .continues n => if n ≤ 1 then return true else throw (.continues (n - 1))
    | j => throw j

/-- A word with the directory of the user in place of a tilde at its front. -/
def withoutTilde (w : Word) : Sh Word := do
  match w with
  | .literal false text :: rest =>
    if text.startsWith "~/" || (text = "~" && rest.isEmpty) then
      let home := ((← get).valueOf? "HOME").getD "~"
      return .literal true home :: .literal false (text.drop 1).toString :: rest
    else return w
  | _ => return w

end Conformance.Machine.Shell
