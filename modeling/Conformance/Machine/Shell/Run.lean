import Conformance.Machine.Shell.Action
import Conformance.Machine.Shell.Arithmetic
import Conformance.Machine.Shell.Builtin
import Conformance.Machine.Shell.Field
/-!
# Carrying out commands

How a shell expands words and carries out commands. A command whose process has nothing to do
afterwards is *final*: a program that it runs replaces the process instead of starting another one.
All functions here take a bound on the depth of calls, which no clock lets a script reach.
-/

namespace Conformance.Machine.Shell

mutual

def partMarks : Nat → Part → Sh (List Mark)
  | 0, _ => return []
  | fuel + 1, part => do
    match part with
    | .literal isQuoted text => return Mark.hard isQuoted text
    | .arithmetic isQuoted expression =>
      let text := Mark.text (← wordMarks fuel expression)
      let s ← get
      match Arithmetic.evaluate s.parameter? text with
      | .error e => abort 2 e
      | .ok (n, assigned) =>
        for (x, v) in assigned.reverse do modify (·.setVariable x (toString v))
        return Mark.result isQuoted (toString n)
    | .output isQuoted body => return Mark.result isQuoted (← commandOutput fuel body)
    | .parameter isQuoted name modifier word =>
      let s ← get
      let value := s.parameter? name
      let isAbsent (isEmptyToo : Bool) : Bool := match value with
        | none => true
        | some v => isEmptyToo && v.isEmpty
      let own : Sh (List Mark) := do
        if name = "@" || (name = "*" && !isQuoted) then
          let pieces := s.arguments.map (Mark.result isQuoted)
          return [Mark.boundary].intercalate pieces
        else if name = "*" then
          let between := match s.separators.head? with
            | some c => String.singleton c
            | none => if (s.valueOf? "IFS").isSome then "" else " "
          return Mark.result true (between.intercalate s.arguments)
        else return Mark.result isQuoted (← parameterValue name)
      let instead : Sh (List Mark) := do
        let ms ← wordMarks fuel word
        return if isQuoted then (if ms.isEmpty then [.nothing] else ms) else ms.map fun m ↦ match m with
          | .glyph ⟨c, false⟩ => .soft c
          | m => m
      match modifier with
      | .none => own
      | .length => return Mark.result isQuoted (toString (← parameterValue name).length)
      | .default isEmptyToo => if isAbsent isEmptyToo then instead else own
      | .alternative isEmptyToo =>
        if isAbsent isEmptyToo then return if isQuoted then [.nothing] else [] else instead
      | .assign isEmptyToo =>
        if isAbsent isEmptyToo then
          let text := Mark.text (← wordMarks fuel word)
          modify (·.setVariable name text)
          return Mark.result isQuoted text
        else own
      | .require isEmptyToo =>
        if isAbsent isEmptyToo then
          let text := Mark.text (← wordMarks fuel word)
          let usual := if isEmptyToo then "parameter not set or null" else "parameter not set"
          abort 2 (name ++ ": " ++ (if text.isEmpty then usual else text))
        else own
      | .trimStart isLongest =>
        let p := Pattern.ofGlyphs (Mark.glyphs (← wordMarks fuel word))
        let v ← parameterValue name
        return Mark.result isQuoted (String.ofList (Pattern.trimStart p isLongest v.toList))
      | .trimEnd isLongest =>
        let p := Pattern.ofGlyphs (Mark.glyphs (← wordMarks fuel word))
        let v ← parameterValue name
        return Mark.result isQuoted (String.ofList (Pattern.trimEnd p isLongest v.toList))

def wordMarks : Nat → Word → Sh (List Mark)
  | 0, _ | _, [] => return []
  | fuel + 1, part :: parts => do
    let first ← partMarks fuel part
    return first ++ (← wordMarks fuel parts)

/-- The text of a word that is not cut into fields. -/
def wordText : Nat → Word → Sh String
  | 0, _ => return ""
  | fuel + 1, w => do return Mark.text (← wordMarks fuel (← withoutTilde w))

def wordFields : Nat → List Word → Sh (List String)
  | 0, _ | _, [] => return []
  | fuel + 1, w :: ws => do
    let marks ← wordMarks fuel (← withoutTilde w)
    let mut texts := []
    for f in Mark.fields (← get).separators marks do texts := texts ++ (← fieldTexts f)
    return texts ++ (← wordFields fuel ws)

/-- The output of a command, without the line ends at its end. -/
def commandOutput : Nat → Command → Sh String
  | 0, _ => return ""
  | fuel + 1, body => do
    match ← call .pipe with
    | .pair reader writer =>
      let pid ← forkShell do
        let _ ← call (.close reader)
        let _ ← call (.duplicate writer 1)
        if writer ≠ 1 then let _ ← call (.close writer)
        childShell fuel body
      let _ ← call (.close writer)
      let bytes ← readToEnd reader Act.boundless .empty
      let _ ← call (.close reader)
      let status := statusOf (← waitFor pid)
      modify ({ · with outputStatus := some status })
      return withoutLineEnds ((RawText.ofBytes bytes).replace "\x00" "")
    | _ => return ""

/-- Carries out a command as the only task of a child. -/
def childShell : Nat → Command → Sh Unit
  | 0, _ => return
  | fuel + 1, body => do
    enterChild
    tryCatch (run fuel true body) fun _ ↦ return
    leave fuel

/-- Does what is to be done at the end of a shell. -/
def leave : Nat → Sh Unit
  | 0 => return
  | fuel + 1 => do
    let s ← get
    match s.traps.lookup 0 with
    | some action =>
      modify fun s ↦ { s with traps := s.traps.filter (·.1 ≠ 0) }
      tryCatch (do runText fuel action; setStatus s.status) fun _ ↦ return
    | none => return

/-- Does what is to be done on the signals that came in. -/
def runTraps : Nat → Sh Unit
  | 0 => return
  | fuel + 1 => do
    match ← call .takeSignals with
    | .numbers signals =>
      for signal in signals do
        match (← get).traps.lookup signal with
        | some action =>
          let status := (← get).status
          runText fuel action
          setStatus status
        | none => pure ()
    | _ => return

def runText : Nat → String → Sh Unit
  | 0, _ => return
  | fuel + 1, text => runSource fuel false ⟨text.toList, 1⟩

/-- Carries out the commands of a source, one after the other. With `isFinal` the last one is final. -/
def runSource : Nat → Bool → Source → Sh Unit
  | 0, _, _ => return
  | fuel + 1, isFinal, source => do
    match Reader.next?.run source with
    | .error e =>
      modify ({ · with line := e.line })
      abort 2 e.text
    | .ok (none, _) => return
    | .ok (some c, rest) =>
      let isLast := rest.rest.all (·.isWhitespace)
      run fuel (isFinal && isLast) c
      runSource fuel isFinal rest

/-- Carries out a command, and what is to be done on signals after it. -/
def run : Nat → Bool → Command → Sh Unit
  | 0, _, _ => return
  | fuel + 1, isFinal, c => do
    match c with
    | .empty => setStatus 0
    | .simple line assignments words redirects =>
      modify fun s ↦ { s with line := line, outputStatus := none }
      simple fuel isFinal assignments words redirects
      runTraps fuel
      stopOnFailure
    | .redirected body redirects =>
      withDescriptors do
        if ← redirectAll fuel redirects then run fuel isFinal body
        else
          setStatus 2
          stopOnFailure
    | .subshell body =>
      if isFinal && (← get).traps.isEmpty then run fuel true body
      else
        let pid ← forkShell (childShell fuel body)
        setStatus (← waitAloud pid)
        runTraps fuel
        stopOnFailure
    | .pipeline cs =>
      let pids ← stages fuel none cs
      let mut status := 0
      for pid in pids do status := ← waitAloud pid
      setStatus status
      runTraps fuel
      stopOnFailure
    | .not body =>
      tested (run fuel false body)
      setStatus (if (← get).status = 0 then 1 else 0)
    | .andThen a b =>
      tested (run fuel false a)
      if (← get).status = 0 then run fuel isFinal b
    | .orElse a b =>
      tested (run fuel false a)
      if (← get).status ≠ 0 then run fuel isFinal b
    | .sequence a b =>
      run fuel false a
      run fuel isFinal b
    | .background body =>
      let pid ← forkShell do
        enterBackground
        childShell fuel body
      modify fun s ↦ { s with lastBackground := some pid, status := 0 }
    | .conditional condition yes no =>
      tested (run fuel false condition)
      if (← get).status = 0 then run fuel isFinal yes
      else
        setStatus 0
        run fuel isFinal no
    | .loop isUntil condition body =>
      setStatus 0
      loop fuel isUntil 0 condition body
    | .each name words body =>
      let values ← match words with
        | some ws => wordFields fuel ws
        | none => pure (← get).arguments
      setStatus 0
      each fuel name body values
    | .choice word clauses =>
      let text ← wordText fuel word
      setStatus 0
      choose fuel isFinal text clauses
    | .definition name body =>
      modify fun s ↦
        { s with functions := (name, body) :: s.functions.filter (·.1 ≠ name), status := 0 }

/-- Starts the stages of a pipeline; the first one reads from the given descriptor. -/
def stages : Nat → Option Nat → List Command → Sh (List Nat)
  | 0, _, _ | _, _, [] => return []
  | fuel + 1, input, [c] => do
    let pid ← forkShell do
      match input with
      | some fd =>
        let _ ← call (.duplicate fd 0)
        if fd ≠ 0 then let _ ← call (.close fd)
      | none => pure ()
      childShell fuel c
    match input with
    | some fd => let _ ← call (.close fd)
    | none => pure ()
    return [pid]
  | fuel + 1, input, c :: cs => do
    match ← call .pipe with
    | .pair reader writer =>
      let pid ← forkShell do
        let _ ← call (.close reader)
        match input with
        | some fd =>
          let _ ← call (.duplicate fd 0)
          if fd ≠ 0 then let _ ← call (.close fd)
        | none => pure ()
        let _ ← call (.duplicate writer 1)
        if writer ≠ 1 then let _ ← call (.close writer)
        childShell fuel c
      match input with
      | some fd => let _ ← call (.close fd)
      | none => pure ()
      let _ ← call (.close writer)
      return pid :: (← stages fuel (some reader) cs)
    | _ => return []

/-- Goes on with a loop; `status` is what its body left last. -/
def loop : Nat → Bool → UInt8 → Command → Command → Sh Unit
  | 0, _, _, _, _ => return
  | fuel + 1, isUntil, status, condition, body => do
    let goesOn ← round do
      tested (run fuel false condition)
    if !goesOn then return
    if ((← get).status = 0) = isUntil then
      setStatus status
      return
    let goesOn ← round (run fuel false body)
    if goesOn then loop fuel isUntil (← get).status condition body

/-- Goes on with a loop over texts. -/
def each : Nat → String → Command → List String → Sh Unit
  | 0, _, _, _ | _, _, _, [] => return
  | fuel + 1, name, body, v :: vs => do
    modify (·.setVariable name v)
    if ← round (run fuel false body) then each fuel name body vs

/-- Carries out the first clause with a pattern that matches a text. -/
def choose : Nat → Bool → String → List (List Word × Command) → Sh Unit
  | 0, _, _, _ | _, _, _, [] => return
  | fuel + 1, isFinal, text, (patterns, body) :: rest => do
    let mut isChosen := false
    for p in patterns do
      if !isChosen then
        let es := Pattern.ofGlyphs (Mark.glyphs (← wordMarks fuel p))
        isChosen := Pattern.isMatch es text.toList
    if isChosen then run fuel isFinal body else choose fuel isFinal text rest

/-- Sets up redirections. Tells whether all could be. -/
def redirectAll : Nat → List Redirect → Sh Bool
  | 0, _ | _, [] => return true
  | fuel + 1, .mk fd kind word :: rest => do
    let text ← wordText fuel word
    let isDone ← match kind with
      | .input => connect fd text .read
      | .output => connect fd text .write
      | .append => connect fd text .append
      | .inputOutput => connect fd text .readWrite
      | .copy => copyDescriptor fd text
      | .here => connectText fd text
    if isDone then redirectAll fuel rest else return false

/-- The values of assignments. -/
def settings : Nat → List (String × Word) → Sh (List (String × String))
  | 0, _ | _, [] => return []
  | fuel + 1, (x, w) :: rest => do
    let v ← wordText fuel w
    return (x, v) :: (← settings fuel rest)

def simple : Nat → Bool → List (String × Word) → List Word → List Redirect → Sh Unit
  | 0, _, _, _, _ => return
  | fuel + 1, isFinal, assignments, words, redirects => do
    let fields ← wordFields fuel words
    match fields with
    | [] =>
      for (x, v) in ← settings fuel assignments do modify (·.setVariable x v)
      withDescriptors do
        let isDone ← redirectAll fuel redirects
        let status := (← get).outputStatus.getD 0
        setStatus (if isDone then status else 2)
    | "exec" :: arguments =>
      if !(← redirectAll fuel redirects) then
        setStatus 2
        throw .exits
      let values ← settings fuel assignments
      if arguments.isEmpty then
        for (x, v) in values do modify (·.setVariable x v)
        setStatus 0
      else becomeProgram arguments (values ++ (← get).environment) "exec: "
    | name :: arguments =>
      withDescriptors do
        if ← redirectAll fuel redirects then
          let values ← settings fuel assignments
          named fuel isFinal values name arguments
        else
          setStatus 2
          if Builtin.isSpecial name then throw .exits

/-- Carries out a command by its name. -/
def named : Nat → Bool → List (String × String) → String → List String → Sh Unit
  | 0, _, _, _, _ => return
  | fuel + 1, isFinal, values, name, arguments => do
    let s ← get
    match s.functions.lookup name with
    | some body => function fuel values body arguments
    | none =>
      if name = "eval" then
        setStatus 0
        runText fuel (" ".intercalate arguments)
      else if name = "." then source fuel arguments
      else if name = "command" || name = "type" then lookUp fuel isFinal values name arguments
      else
        match Builtin.all.lookup name with
        | some builtin =>
          let before := values.map fun v ↦ (v.1, s.valueOf? v.1)
          for (x, v) in values do modify (·.setVariable x v)
          setStatus (← builtin arguments)
          if !Builtin.isSpecial name then
            for (x, v) in before do modify (·.restoreVariable x v)
        | none => external fuel isFinal values name arguments

def external : Nat → Bool → List (String × String) → String → List String → Sh Unit
  | 0, _, _, _, _ => return
  | _ + 1, isFinal, values, name, arguments => do
    let s ← get
    let environment := values ++ s.environment.filter fun v ↦ (values.lookup v.1).isNone
    if isFinal && s.traps.isEmpty then becomeProgram (name :: arguments) environment ""
    else
      let directories := ((values.lookup "PATH").map (·.splitOn ":")).getD s.searchPath
      match ← act (Launch.search name directories) with
      | .missing =>
        complain (name ++ (if name.isEmpty then ": Permission denied" else ": not found"))
        setStatus 127
      | _ =>
        let pid ← forkShell do
          enterChild
          becomeProgram (name :: arguments) environment ""
        setStatus (← waitAloud pid)

def function : Nat → List (String × String) → Command → List String → Sh Unit
  | 0, _, _, _ => return
  | fuel + 1, values, body, arguments => do
    let s ← get
    let outer := s.arguments
    let loops := s.loops
    let before := values.map fun v ↦ (v.1, s.valueOf? v.1)
    for (x, v) in values do modify (·.setVariable x v)
    modify fun s ↦ { s with arguments := arguments, locals := [] :: s.locals, loops := 0 }
    let leaveFunction : Sh Unit := modify fun s ↦
      let s := (s.locals.head?.getD []).foldl (fun s (x, v) ↦ s.restoreVariable x v) s
      let s := before.foldl (fun s (x, v) ↦ s.restoreVariable x v) s
      { s with arguments := outer, locals := s.locals.drop 1, loops := loops }
    tryCatch (run fuel false body) fun j ↦
      match j with
      | .returns => return
      | j => do
        leaveFunction
        throw j
    leaveFunction

/-- Carries out the commands of a file. -/
def source : Nat → List String → Sh Unit
  | 0, _ => return
  | fuel + 1, arguments => do
    let path := arguments.head?.getD ""
    match ← call (.openFile (RawText.toText path) .read) with
    | .number fd =>
      let bytes ← readToEnd fd Act.boundless .empty
      let _ ← call (.close fd)
      setStatus 0
      tryCatch (runText fuel (RawText.ofBytes bytes)) fun j ↦ if j = .returns then return else throw j
    | _ => abort 2 (".: cannot open " ++ path ++ ": No such file")

/-- Finds out what a name stands for, or carries out a command that is not a function. -/
def lookUp : Nat → Bool → List (String × String) → String → List String → Sh Unit
  | 0, _, _, _, _ => return
  | fuel + 1, isFinal, values, kind, arguments => do
    let s ← get
    match kind, arguments with
    | "command", "-v" :: name :: _ =>
      if (s.functions.lookup name).isSome || (Builtin.all.lookup name).isSome then
        setStatus (← Builtin.print "command" (name ++ "\n"))
      else
        match ← act (Launch.search name s.searchPath) with
        | .at path => setStatus (← Builtin.print "command" (path ++ "\n"))
        | _ => setStatus 127
    | "command", name :: rest =>
      modify ({ · with functions := s.functions.filter (·.1 ≠ name) })
      named fuel isFinal values name rest
      modify ({ · with functions := s.functions })
    | "type", name :: _ =>
      if (s.functions.lookup name).isSome then
        setStatus (← Builtin.print "type" (name ++ " is a shell function\n"))
      else if (Builtin.all.lookup name).isSome then
        let sort := if Builtin.isSpecial name then " is a special shell builtin\n"
          else " is a shell builtin\n"
        setStatus (← Builtin.print "type" (name ++ sort))
      else
        match ← act (Launch.search name s.searchPath) with
        | .at path => setStatus (← Builtin.print "type" (name ++ " is " ++ path ++ "\n"))
        | _ =>
          let _ ← put 1 (name ++ ": not found\n")
          setStatus 127
    | _, _ => setStatus 0

end

end Conformance.Machine.Shell
