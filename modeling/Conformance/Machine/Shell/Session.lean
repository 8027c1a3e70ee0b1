import Conformance.Machine.Shell.Run
/-!
# Sessions of a shell

A shell is started with a script, with the text of commands, or with nothing; then it reads commands
from its standard input. It carries them out one after the other and ends with the status of the last.
-/

namespace Conformance.Machine.Shell

/-- Where the commands of a session come from. -/
inductive Origin where
  | text (commands : String)
  | script (path : String)
  | input
  deriving DecidableEq, Repr

/-- What the words of a command line say: the options, the origin and the words after it. -/
def readWords : List Char → Bool → List String → List Char × Origin × List String
  | flags, isText, w :: ws =>
    if w = "--" then place flags isText ws
    else if (w.startsWith "-" || w.startsWith "+") && w.length > 1 then
      let letters := (w.drop 1).toString.toList
      readWords (flags ++ letters.filter (· ≠ 'c')) (isText || letters.contains 'c') ws
    else place flags isText (w :: ws)
  | flags, isText, [] => place flags isText []
where
  /-- The origin that the words after the options name. -/
  place (flags : List Char) (isText : Bool) : List String → List Char × Origin × List String
    | [] => (flags, .input, [])
    | w :: ws =>
      if isText then (flags, .text w, ws)
      else if flags.contains 's' then (flags, .input, "" :: w :: ws)
      else (flags, .script w, w :: ws)

def initial (name : String) (arguments : List String) (flags : List Char) (pid parent : Nat)
    (environment : List (String × String)) : Shell where
  name := name
  arguments := arguments
  bindings := environment.filter (·.1 ≠ "IFS") ++
    [("IFS", " \t\n"), ("OPTIND", "1"), ("PPID", toString parent)] ++
    (if (environment.lookup "PATH").isSome then []
      else [("PATH", "/usr/local/sbin:/usr/local/bin:/usr/sbin:/usr/bin:/sbin:/bin")])
  exported := environment.map (·.1)
  functions := []
  status := 0
  pid := pid
  lastBackground := none
  traps := []
  line := 0
  flags := flags
  decided := []
  outputStatus := none
  isTested := false
  loops := 0
  locals := []

/-- Carries out commands and what is to be done at the end. -/
def carryOut (isFinal : Bool) (text : String) : Sh Unit := do
  tryCatch (runSource Act.boundless isFinal ⟨text.toList, 1⟩) fun _ ↦ return
  leave Act.boundless

def session (origin : Origin) : Sh Unit := do
  match origin with
  | .text commands => carryOut true commands
  | .script path =>
    match ← call (.openFile (RawText.toText path) .read) with
    | .number fd =>
      let bytes ← readToEnd fd Act.boundless .empty
      let _ ← call (.close fd)
      carryOut false (RawText.ofBytes bytes)
    | .failed e =>
      let reason := match e with
        | .noEntry | .notDirectory => "No such file"
        | e => errorText e
      complain ("cannot open " ++ path ++ ": " ++ reason)
      setStatus 2
    | _ => setStatus 2
  | .input =>
    let bytes ← readToEnd 0 Act.boundless .empty
    carryOut false (RawText.ofBytes bytes)

def task (words : List String) (environment : List (String × String)) : Task :=
  let (flags, origin, rest) := readWords [] false (words.drop 1)
  let own := words.head?.getD "sh"
  let start : Act Shell := do
    let pid ← Act.processNumber
    let parent ← Act.parentNumber
    return initial own (rest.drop 1) flags pid parent environment
  start fun start ↦
    let start := match origin with
      | .script _ => start
      | _ => { start with name := (rest.head?.filter (!·.isEmpty)).getD own }
    let named : Sh Unit := do
      match origin with
      | .script path =>
        match ← act (Act.inspect? (RawText.toText path) true) with
        | some _ => modify ({ · with name := path })
        | none => pure ()
      | _ => pure ()
      session origin
    named start fun (_, s) ↦ .exit s.status

end Conformance.Machine.Shell
