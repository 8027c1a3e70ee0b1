import Conformance.Machine.Condition
import Conformance.Machine.Format
import Conformance.Machine.Launch
import Conformance.Machine.Shell.Reader
import Conformance.Machine.Shell.State
/-!
# Commands of the shell itself

The commands that a shell carries out without another process and that carry out no further commands
themselves. Each is given its arguments and gives its status. The *special* ones end the shell when
they fail.
-/

namespace Conformance.Machine.Shell

/-- A command of the shell itself. -/
abbrev Builtin := List String → Sh UInt8

namespace Builtin

/-- Prints an error of a command, whose status it gives. -/
def failWith (name text : String) : Sh UInt8 := do
  complain (name ++ ": " ++ text)
  return 2

def print (name text : String) : Sh UInt8 := do
  match ← put 1 text with
  | .ok () => return 0
  | .error _ =>
    complain (name ++ ": " ++ name ++ ": I/O error")
    return 1

/-- The number that an argument spells, or a jump out of the shell. -/
def number (name argument : String) : Sh Nat := do
  match argument.isNat, argument.toNat? with
  | true, some n => return n
  | _, _ => abort 2 (name ++ ": Illegal number: " ++ argument)

def isName (s : String) : Bool := Reader.isName s

/-- The name and the value of a setting, whose value may be missing. -/
def setting (s : String) : String × Option String :=
  let name := String.ofList (s.toList.takeWhile (· ≠ '='))
  if name.length < s.length then (name, some (s.drop (name.length + 1)).toString) else (name, none)

/-! ## Printing -/

/-- Prints its arguments, in which escapes count. -/
def echo : Builtin := fun ws ↦ print "echo" (Format.echo ws)

/-- Prints arguments after a format. -/
def printf : Builtin := fun ws ↦ do
  let ws := if ws.head? = some "--" then ws.drop 1 else ws
  match ws with
  | [] => failWith "printf" "usage: printf format [arg ...]"
  | format :: arguments =>
    let (text, errors) := Format.printf format arguments
    for e in errors do complain ("printf: " ++ e)
    let status ← if text.isEmpty then pure 0 else print "printf" text
    return if errors.isEmpty then status else 1

def pwd : Builtin := fun _ ↦ do
  match ← call .currentDirectory with
  | .text d => print "pwd" (RawText.ofText d ++ "\n")
  | _ => return 1

def umask : Builtin := fun ws ↦ if ws.isEmpty then print "umask" "0022\n" else return 0

/-! ## Variables and arguments -/

def exportVariables : Builtin := fun ws ↦ do
  for w in ws.filter (· ≠ "-p") do
    let (name, value) := setting w
    if !isName name then let _ ← abort (α := Unit) 2 ("export: " ++ name ++ ": bad variable name")
    modify fun s ↦
      let s := (value.map (s.setVariable name)).getD s
      { s with exported := if s.exported.contains name then s.exported else name :: s.exported }
  return 0

/-- Sets variables. -/
def readOnly : Builtin := fun ws ↦ do
  for w in ws.filter (· ≠ "-p") do
    let (name, value) := setting w
    modify fun s ↦ (value.map (s.setVariable name)).getD s
  return 0

def localVariables : Builtin := fun ws ↦ do
  match (← get).locals with
  | [] => failWith "local" "not in a function"
  | own :: outer =>
    let before := (← get).bindings
    let saved := ws.map fun w ↦ ((setting w).1, before.lookup (setting w).1)
    modify fun s ↦ { s with locals := (saved ++ own) :: outer }
    for w in ws do
      match setting w with
      | (name, some value) => modify (·.setVariable name value)
      | _ => pure ()
    return 0

def unset : Builtin := fun ws ↦ do
  for w in ws.filter fun w ↦ w ≠ "-v" && w ≠ "-f" do
    if !isName w then let _ ← abort (α := Unit) 2 ("unset: " ++ w ++ ": bad variable name")
    if ws.head? = some "-f" then
      modify fun s ↦ { s with functions := s.functions.filter (·.1 ≠ w) }
    else modify (·.unsetVariable w)
  return 0

/-- Drops arguments. -/
def shift : Builtin := fun ws ↦ do
  let n ← match ws.head? with
    | some w => number "shift" w
    | none => pure 1
  if (← get).arguments.length < n then abort 2 "shift: can't shift that many"
  modify fun s ↦ { s with arguments := s.arguments.drop n }
  return 0

/-- The single-letter option that a long name stands for. -/
def longOption : String → List Char
  | "errexit" => ['e']
  | "nounset" => ['u']
  | "noglob" => ['f']
  | "xtrace" => ['x']
  | _ => []

/-- Sets options and arguments. -/
def setOptions : List String → Sh UInt8
  | [] => return 0
  | "--" :: ws => do
    modify ({ · with arguments := ws })
    return 0
  | "-o" :: name :: ws => do
    modify fun s ↦ { s with flags := longOption name ++ s.flags }
    setOptions ws
  | "+o" :: name :: ws => do
    modify fun s ↦ { s with flags := s.flags.filter (!(longOption name).contains ·) }
    setOptions ws
  | w :: ws => do
    if w.startsWith "-" && w.length > 1 then
      modify fun s ↦ { s with flags := (w.drop 1).toString.toList ++ s.flags }
      setOptions ws
    else if w.startsWith "+" && w.length > 1 then
      modify fun s ↦ { s with flags := s.flags.filter (!(w.drop 1).toString.toList.contains ·) }
      setOptions ws
    else
      modify ({ · with arguments := w :: ws })
      return 0

/-- Reads bytes up to the end of a line. Tells whether there was one. -/
def readLine (isPlain : Bool) : Nat → List Char → Sh (List Char × Bool)
  | 0, cs => return (cs.reverse, false)
  | fuel + 1, cs => do
    match ← call (.read 0 1) with
    | .bytes b =>
      match (RawText.ofBytes b).toList with
      | [] => return (cs.reverse, false)
      | c :: _ =>
        if c == '\n' then
          match cs, isPlain with
          | '\\' :: before, false => readLine isPlain fuel before
          | _, _ => return (cs.reverse, true)
        else readLine isPlain fuel (c :: cs)
    | _ => return (cs.reverse, false)

/-- The words of a line for a number of variables; the last one takes all that is left. -/
def lineFields (separators : List Char) : Nat → List Char → List String
  | 0, _ => []
  | 1, cs =>
    let isBlank c := separators.contains c && (c == ' ' || c == '\t')
    [String.ofList ((cs.dropWhile isBlank).reverse.dropWhile isBlank).reverse]
  | n + 2, cs =>
    let cs := cs.dropWhile fun c ↦ separators.contains c && (c == ' ' || c == '\t')
    let word := cs.takeWhile (!separators.contains ·)
    let rest := (cs.drop word.length).drop 1
    String.ofList word :: lineFields separators (n + 1) rest

/-- Reads a line into variables. -/
def read : Builtin := fun ws ↦ do
  let names := ws.filter (!·.startsWith "-")
  if names.isEmpty then return ← failWith "read" "arg count"
  let isPlain := ws.any fun w ↦ w.startsWith "-" && w.contains 'r'
  let (line, isWhole) ← readLine isPlain Act.boundless []
  let line := if isPlain then line else line.filter (· ≠ '\\')
  let values := lineFields (← get).separators names.length line
  for (name, value) in names.zip values do modify (·.setVariable name value)
  return if isWhole then 0 else 1

/-! ## Directories, signals and processes -/

def cd : Builtin := fun ws ↦ do
  let s ← get
  let path := match ws.filter fun w ↦ w ≠ "-L" && w ≠ "-P" && w ≠ "--" with
    | [] => (s.valueOf? "HOME").getD "."
    | "-" :: _ => (s.valueOf? "OLDPWD").getD "."
    | w :: _ => w
  match ← call (.changeDirectory (RawText.toText (if path.isEmpty then "." else path))) with
  | .failed _ => failWith "cd" ("can't cd to " ++ path)
  | _ =>
    let before := (s.valueOf? "PWD").getD ""
    match ← call .currentDirectory with
    | .text d => modify fun s ↦
        (s.setVariable "OLDPWD" before).setVariable "PWD" (RawText.ofText d)
    | _ => pure ()
    return 0

def kill : Builtin := fun ws ↦ do
  if ws.head? = some "-l" then
    return ← print "kill" ("\n".intercalate ("0" :: Signal.names) ++ "\n")
  let (signal, targets) : Option Nat × List String := match ws with
    | "-s" :: s :: r => (Signal.ofName? s, r)
    | "--" :: r => (some 15, r)
    | w :: r =>
      if w.startsWith "-" && w.length > 1 then (Signal.ofName? (w.drop 1).toString, r)
      else (some 15, w :: r)
    | [] => (some 15, [])
  let targets := if targets.head? = some "--" then targets.drop 1 else targets
  match signal, targets with
  | none, _ => failWith "kill" ("invalid signal number or name: " ++ (ws.head?.getD ""))
  | some _, [] =>
    let usage := "Usage: kill [-s sigspec | -signum | -sigspec] [pid | job]... or\n"
    failWith "kill" (usage ++ "kill -l [exitstatus]")
  | some signal, _ =>
    let mut status := 0
    for t in targets do
      let digits := if t.startsWith "-" then (t.drop 1).toString else t
      match digits.isNat, t.toInt? with
      | true, some pid =>
        match ← call (.kill pid signal) with
        | .failed e =>
          complain ("kill: " ++ errorText e ++ "\n")
          status := 1
        | _ => pure ()
      | _, _ => return ← failWith "kill" ("Illegal number: " ++ t)
    return status

/-- Sets what is done on a signal, unless the signal was ignored from the start. -/
def setTrap (action : Option String) (signal : Nat) : Sh Unit := do
  modify fun s ↦ { s with traps :=
    (action.map fun a ↦ (signal, a)).toList ++ s.traps.filter (·.1 ≠ signal) }
  if signal ≠ 0 then
    let isFixed ← if (← get).decided.contains signal then pure false
      else
        match ← call (.isIgnored signal) with
        | .number 1 => pure true
        | _ => pure false
    if !isFixed then
      modify fun s ↦ { s with decided := signal :: s.decided }
      let disposition : Disposition := match action with
        | none => .default
        | some a => if a.isEmpty then .ignore else .catch
      let _ ← call (.setDisposition signal disposition)

def trap : Builtin := fun ws ↦ do
  let ws := if ws.head? = some "--" then ws.drop 1 else ws
  let signal? (w : String) : Option Nat := if w = "EXIT" then some 0 else Signal.ofName? w
  match ws with
  | [] => return 0
  | first :: rest =>
    let (action, signals) : Option String × List String :=
      if rest.isEmpty || first.isNat then (none, ws)
      else if first = "-" then (none, rest) else (some first, rest)
    for w in signals do
      match signal? w with
      | some n => setTrap action n
      | none =>
        complain ("trap: " ++ w ++ ": bad trap")
        return 1
    return 0

/-- Waits for one child, unless a caught signal comes first. -/
def waitOne (target : WaitFor) : Sh (Option UInt8 × Bool) := do
  match ← call (.wait target true) with
  | .ended _ raw =>
    announceEnd raw
    return (some (statusOf raw), true)
  | .interrupted => return (some 143, false)
  | _ => return (none, false)

/-- Waits for all children. -/
def waitAll : Nat → Sh UInt8
  | 0 => return 0
  | fuel + 1 => do
    match ← waitOne .any with
    | (some _, true) => waitAll fuel
    | (some status, false) => return status
    | (none, _) => return 0

def wait : Builtin := fun ws ↦ do
  if ws.isEmpty then return ← waitAll Act.boundless
  let mut status := 0
  for w in ws do
    match w.toNat? with
    | some pid => status := ((← waitOne (.child pid)).1).getD 127
    | none => return ← failWith "wait" ("Illegal number: " ++ w)
  return status

/-! ## Jumps -/

def exit : Builtin := fun ws ↦ do
  match ws.head? with
  | some w => setStatus (UInt8.ofNat ((← number "exit" w) % 256))
  | none => pure ()
  throw .exits

/-- Ends a function. -/
def returnNow : Builtin := fun ws ↦ do
  match ws.head? with
  | some w => setStatus (UInt8.ofNat ((← number "return" w) % 256))
  | none => pure ()
  throw .returns

/-- How many loops an argument speaks of; there are none outside of loops. -/
def loopsOf (name : String) (ws : List String) : Sh Nat := do
  let n ← match ws.head? with
    | some w => number name w
    | none => pure 1
  return min n (← get).loops

/-- Leaves loops. -/
def leaveLoops : Builtin := fun ws ↦ do
  let n ← loopsOf "break" ws
  setStatus 0
  if n = 0 then return 0 else throw (.breaks n)

/-- Goes on with the next round of a loop. -/
def nextRound : Builtin := fun ws ↦ do
  let n ← loopsOf "continue" ws
  setStatus 0
  if n = 0 then return 0 else throw (.continues n)

/-! ## The list of commands -/

/-- The commands whose failure ends the shell. -/
def isSpecial (name : String) : Bool :=
  [":", ".", "break", "continue", "eval", "exec", "exit", "export", "readonly", "return", "set",
    "shift", "times", "trap", "unset"].contains name

def all : List (String × Builtin) :=
  [(":", fun _ ↦ return 0), ("true", fun _ ↦ return 0), ("false", fun _ ↦ return 1),
    ("echo", echo), ("printf", printf), ("pwd", pwd), ("umask", umask),
    ("export", exportVariables), ("readonly", readOnly), ("local", localVariables),
    ("unset", unset), ("shift", shift), ("set", setOptions), ("read", read), ("cd", cd),
    ("kill", kill), ("trap", trap), ("wait", wait), ("exit", exit), ("return", returnNow),
    ("break", leaveLoops), ("continue", nextRound),
    ("ulimit", fun _ ↦ return 0), ("hash", fun _ ↦ return 0), ("times", fun _ ↦ return 0),
    ("test", fun ws ↦ do
      let s ← get
      act (Condition.run (s.name ++ ": " ++ toString s.line ++ ": test") ws)),
    ("[", fun ws ↦ do
      let s ← get
      act (Condition.run (s.name ++ ": " ++ toString s.line ++ ": [") ws))]

end Builtin

end Conformance.Machine.Shell
