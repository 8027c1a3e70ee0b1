import Conformance.Machine.Shell.Source
/-!
# Reading shell scripts

A script is read one complete command at a time, so what stands before an error is carried out. The
functions that read commands and words call each other; a bound on the depth of their calls stands
first.
-/

namespace Conformance.Machine.Shell

namespace Reader

mutual

/-- Reads the parts of a text up to where it ends, and goes past its closing mark. `parts` are those
read already, the latest first. -/
def parts (quoting : Quoting) : Nat → Word → Reader Word
  | 0, _ => fail "Syntax error: nested too deeply"
  | fuel + 1, ws => do
    let quoted := quoting.isQuoted
    match ← peek with
    | none =>
      match quoting with
      | .none | .here => return ws.reverse
      | .double => fail "Syntax error: Unterminated quoted string"
      | .braces _ => fail "Syntax error: Missing '\x7d'"
      | .arithmetic _ => fail "Syntax error: Missing '))'"
    | some '\\' =>
      match ← peekAt 1 with
      | none => skip 1; parts quoting fuel (pushChar true '\\' ws)
      | some '\n' => skip 2; parts quoting fuel ws
      | some c =>
        skip 2
        let escapes := !quoted || c == '$' || c == '\x60' || c == '\\' ||
          (c == '"' && quoting ≠ .here) || (c == '\x7d' && quoting = .braces true)
        if escapes then parts quoting fuel (pushChar true c ws)
        else parts quoting fuel (pushChar true c (pushChar true '\\' ws))
    | some '\'' =>
      if quoted then
        skip 1
        parts quoting fuel (pushChar true '\'' ws)
      else
        let text := ((← get).rest.drop 1).takeWhile (· ≠ '\'')
        if (((← get).rest.drop 1).drop text.length).isEmpty then
          skip (text.length + 1)
          fail "Syntax error: Unterminated quoted string"
        skip (text.length + 2)
        parts quoting fuel (.literal true (String.ofList text) :: ws)
    | some '"' =>
      match quoting with
      | .double => skip 1; return ws.reverse
      | .here => skip 1; parts quoting fuel (pushChar true '"' ws)
      | _ =>
        skip 1
        let inner ← parts .double fuel []
        let inner := if inner.isEmpty then [.literal true ""] else inner
        parts quoting fuel (inner.reverse ++ ws)
    | some '$' => do
      let p ← dollar quoted fuel
      parts quoting fuel (p :: ws)
    | some '\x60' =>
      match backquoted (quoting = .double) ((← get).rest.drop 1) with
      | none => fail "Syntax error: EOF in backquote substitution"
      | some (text, n) => do
        let line := (← get).line
        skip (n + 1)
        match (program fuel).run ⟨text, line⟩ with
        | .ok (body, _) => parts quoting fuel (.output quoted body :: ws)
        | .error e => throw e
    | some c =>
      match quoting with
      | .none => if endsWord c then return ws.reverse
      | .braces _ =>
        if c == '\x7d' then
          skip 1
          return ws.reverse
      | .arithmetic 0 =>
        if c == ')' then
          if (← peekAt 1) = some ')' then
            skip 2
            return ws.reverse
          else fail "Syntax error: Missing '))'"
      | _ => pure ()
      skip 1
      let inside := match quoting, c with
        | .arithmetic d, '(' => .arithmetic (d + 1)
        | .arithmetic d, ')' => .arithmetic (d - 1)
        | q, _ => q
      parts inside fuel (pushChar quoted c ws)

/-- Reads what a dollar sign begins. -/
def dollar (quoted : Bool) : Nat → Reader Part
  | 0 => fail "Syntax error: nested too deeply"
  | fuel + 1 => do
    skip 1
    match ← peek with
    | some '(' =>
      if (← peekAt 1) = some '(' then
        skip 2
        return .arithmetic quoted (← parts (.arithmetic 0) fuel [])
      skip 1
      let body ← compound fuel
      skipBlanks
      if (← peek) ≠ some ')' then unexpected
      skip 1
      return .output quoted body
    | some '\x7b' =>
      skip 1
      let isLength := (← peek) = some '#' && ((← peekAt 1).any fun c ↦ c ≠ '\x7d')
      if isLength then skip 1
      let rest := (← get).rest
      let name := match rest with
        | c :: r =>
          if isNameChar c && !c.isDigit then rest.takeWhile isNameChar
          else if c.isDigit then rest.takeWhile Char.isDigit
          else if "@*#?-$!".toList.contains c then [c] else (fun _ ↦ []) r
        | [] => []
      if rest.isEmpty then fail "Syntax error: Missing '\x7d'"
      if name.isEmpty then fail "Bad substitution"
      skip name.length
      let name := String.ofList name
      if isLength then
        if (← peek) ≠ some '\x7d' then fail "Bad substitution"
        skip 1
        return .parameter quoted name .length []
      let isColon := (← peek) = some ':'
      if isColon then skip 1
      match ← peek with
      | some '\x7d' =>
        if isColon then fail "Bad substitution"
        skip 1
        return .parameter quoted name .none []
      | some '-' => skip 1; return .parameter quoted name (.default isColon) (← parts (.braces quoted) fuel [])
      | some '=' => skip 1; return .parameter quoted name (.assign isColon) (← parts (.braces quoted) fuel [])
      | some '?' => skip 1; return .parameter quoted name (.require isColon) (← parts (.braces quoted) fuel [])
      | some '+' => skip 1; return .parameter quoted name (.alternative isColon) (← parts (.braces quoted) fuel [])
      | some '#' =>
        let isLongest := (← peekAt 1) = some '#'
        skip (if isLongest then 2 else 1)
        return .parameter quoted name (.trimStart isLongest) (← parts (.braces false) fuel [])
      | some '%' =>
        let isLongest := (← peekAt 1) = some '%'
        skip (if isLongest then 2 else 1)
        return .parameter quoted name (.trimEnd isLongest) (← parts (.braces false) fuel [])
      | _ => fail "Bad substitution"
    | some c =>
      if isNameChar c && !c.isDigit then
        let name := (← get).rest.takeWhile isNameChar
        skip name.length
        return .parameter quoted (String.ofList name) .none []
      else if c.isDigit || "@*#?-$!".toList.contains c then
        skip 1
        return .parameter quoted (String.singleton c) .none []
      else return .literal quoted "$"
    | none => return .literal quoted "$"

/-- Reads a redirection, after the number of its descriptor. -/
def redirect (fd : Option Nat) : Nat → Reader Redirect
  | 0 => fail "Syntax error: nested too deeply"
  | fuel + 1 => do
    let some o ← operator? | unexpected
    let kind : RedirectKind ← match o with
      | "<" => pure .input
      | ">" => pure .output
      | ">|" => pure .output
      | ">>" => pure .append
      | "<>" => pure .inputOutput
      | "<&" => pure .copy
      | ">&" => pure .copy
      | "<<" => pure .here
      | "<<-" => pure .here
      | _ => unexpected
    skip o.length
    skipBlanks
    if (← peek).isNone || (← peek).any endsWord then unexpected
    let w ← parts .none fuel []
    let standard := if o.startsWith "<" then 0 else 1
    if kind = .here then
      let (delimiter, isQuoted) := plainText w
      let text ← hereText delimiter (o = "<<-")
      if isQuoted then return .mk (fd.getD standard) .here [.literal true (String.ofList text)]
      let line := (← get).line
      match (parts .here fuel []).run ⟨text, line⟩ with
      | .ok (w, _) => return .mk (fd.getD standard) .here w
      | .error e => throw e
    return .mk (fd.getD standard) kind w

/-- Reads the redirections after a compound command. -/
def redirects : Nat → Reader (List Redirect)
  | 0 => fail "Syntax error: nested too deeply"
  | fuel + 1 => do
    skipBlanks
    let rest := (← get).rest
    let digits := rest.takeWhile Char.isDigit
    let next := (rest.drop digits.length).head?
    if next = some '<' || next = some '>' then
      skip digits.length
      let r ← redirect (String.ofList digits).toNat? fuel
      return r :: (← redirects fuel)
    else return []

/-- Reads the rest of a simple command; `assignments`, `words` and `found` are read already, the
latest first. -/
def simple (line : Nat) : Nat → List (String × Word) → List Word → List Redirect → Reader Command
  | 0, _, _, _ => fail "Syntax error: nested too deeply"
  | fuel + 1, assignments, words, found => do
    skipBlanks
    let rest := (← get).rest
    let digits := rest.takeWhile Char.isDigit
    let next := (rest.drop digits.length).head?
    if next = some '<' || next = some '>' then
      skip digits.length
      let r ← redirect (String.ofList digits).toNat? fuel
      simple line fuel assignments words (r :: found)
    else if (← peek).isNone || (← peek).any endsWord then
      if (← peek) = some '(' && words.length = 1 && assignments.isEmpty && found.isEmpty then
        skip 1
        skipBlanks
        if (← peek) ≠ some ')' then unexpected
        skip 1
        skipLines (rest.length + 1)
        match words.head?.bind bare? with
        | some name =>
          if isName name then return .definition name (← single fuel)
          else fail "Syntax error: Bad function name"
        | none => fail "Syntax error: Bad function name"
      else if (← peek) = some '(' then unexpected
      else return .simple line assignments.reverse words.reverse found.reverse
    else
      let name := rest.takeWhile isNameChar
      let isAssignment := words.isEmpty && isName (String.ofList name) &&
        (rest.drop name.length).head? = some '='
      if isAssignment then
        skip (name.length + 1)
        let w ← parts .none fuel []
        simple line fuel ((String.ofList name, w) :: assignments) words found
      else
        let w ← parts .none fuel []
        simple line fuel assignments (w :: words) found

/-- Reads a command that is no pipeline. -/
def single : Nat → Reader Command
  | 0 => fail "Syntax error: nested too deeply"
  | fuel + 1 => do
    skipBlanks
    let finish (c : Command) : Reader Command := do
      let rs ← redirects fuel
      return if rs.isEmpty then c else .redirected c rs
    if (← peek) = some '(' then
      skip 1
      let body ← compound fuel
      skipBlanks
      if (← peek) ≠ some ')' then unexpected
      skip 1
      return ← finish (.subshell body)
    let line := (← get).line
    match ← keyword? with
    | some "\x7b" =>
      skip 1
      let body ← compound fuel
      expect "\x7d"
      finish body
    | some "if" =>
      skip 2
      finish (← conditional fuel)
    | some "while" =>
      skip 5
      let condition ← compound fuel
      finish (.loop false condition (← doGroup fuel))
    | some "until" =>
      skip 5
      let condition ← compound fuel
      finish (.loop true condition (← doGroup fuel))
    | some "for" =>
      skip 3
      skipBlanks
      let some name ← keyword? | fail "Syntax error: Bad for loop variable"
      if !isName name then fail "Syntax error: Bad for loop variable"
      skip name.length
      skipLines ((← get).rest.length + 1)
      let words : Option (List Word) ←
        if (← keyword?) = some "in" then do
          skip 2
          pure (some (← wordList fuel))
        else pure none
      skipBlanks
      if (← peek) = some ';' then skip 1
      skipLines ((← get).rest.length + 1)
      finish (.each name words (← doGroup fuel))
    | some "case" =>
      skip 4
      skipBlanks
      let w ← parts .none fuel []
      skipLines ((← get).rest.length + 1)
      expect "in"
      let clauses ← clauseList fuel
      finish (.choice w clauses)
    | some w => if closers.contains w then unexpected else simple line fuel [] [] []
    | none =>
      match ← operator? with
      | some "<" | some ">" | some ">>" | some "<<" | some "<&" | some ">&" | some "<>"
      | some ">|" | some "<<-" => simple line fuel [] [] []
      | some _ => unexpected
      | none => if (← peek).isNone then unexpected else simple line fuel [] [] []

def wordList : Nat → Reader (List Word)
  | 0 => fail "Syntax error: nested too deeply"
  | fuel + 1 => do
    skipBlanks
    if (← peek).isNone || (← peek).any endsWord then return []
    let w ← parts .none fuel []
    return w :: (← wordList fuel)

/-- Reads the body of a loop. -/
def doGroup : Nat → Reader Command
  | 0 => fail "Syntax error: nested too deeply"
  | fuel + 1 => do
    expect "do"
    let body ← compound fuel
    expect "done"
    return body

/-- Reads a conditional after its first keyword. -/
def conditional : Nat → Reader Command
  | 0 => fail "Syntax error: nested too deeply"
  | fuel + 1 => do
    let condition ← compound fuel
    expect "then"
    let yes ← compound fuel
    skipBlanks
    match ← keyword? with
    | some "elif" =>
      skip 4
      return .conditional condition yes (← conditional fuel)
    | some "else" =>
      skip 4
      let no ← compound fuel
      expect "fi"
      return .conditional condition yes no
    | _ =>
      expect "fi"
      return .conditional condition yes .empty

/-- Reads the clauses of a choice, with its end. -/
def clauseList : Nat → Reader (List (List Word × Command))
  | 0 => fail "Syntax error: nested too deeply"
  | fuel + 1 => do
    skipLines ((← get).rest.length + 1)
    if (← keyword?) = some "esac" then
      skip 4
      return []
    if (← peek) = some '(' then skip 1
    let patterns ← patternList fuel
    let rest := (← get).rest
    skipLines (rest.length + 1)
    let isEmpty := (← operator?) = some ";;" || (← keyword?) = some "esac"
    let body ← if isEmpty then pure Command.empty else compound fuel
    skipBlanks
    if (← operator?) = some ";;" then
      skip 2
      return (patterns, body) :: (← clauseList fuel)
    else
      skipLines (rest.length + 1)
      if (← get).rest.isEmpty then
        fail "Syntax error: end of file unexpected (expecting \";;\")"
      expect "esac"
      return [(patterns, body)]

/-- Reads the patterns of a clause, with the closing parenthesis. -/
def patternList : Nat → Reader (List Word)
  | 0 => fail "Syntax error: nested too deeply"
  | fuel + 1 => do
    skipBlanks
    let w ← parts .none fuel []
    skipBlanks
    match ← peek with
    | some '|' => skip 1; return w :: (← patternList fuel)
    | some ')' => skip 1; return [w]
    | _ => unexpected

/-- Reads the further stages of a pipeline. -/
def stages : Nat → Reader (List Command)
  | 0 => fail "Syntax error: nested too deeply"
  | fuel + 1 => do
    let first ← single fuel
    skipBlanks
    if (← operator?) = some "|" then
      skip 1
      skipLines ((← get).rest.length + 1)
      return first :: (← stages fuel)
    else return [first]

/-- Reads a pipeline, perhaps negated. -/
def pipeline : Nat → Reader Command
  | 0 => fail "Syntax error: nested too deeply"
  | fuel + 1 => do
    skipBlanks
    if (← keyword?) = some "!" then
      skip 1
      return .not (← pipeline fuel)
    match ← stages fuel with
    | [c] => return c
    | cs => return .pipeline cs

/-- Reads pipelines joined by `&&` and `||`, after the first. -/
def joined : Nat → Command → Reader Command
  | 0, _ => fail "Syntax error: nested too deeply"
  | fuel + 1, first => do
    skipBlanks
    match ← operator? with
    | some "&&" =>
      skip 2
      skipLines ((← get).rest.length + 1)
      joined fuel (.andThen first (← pipeline fuel))
    | some "||" =>
      skip 2
      skipLines ((← get).rest.length + 1)
      joined fuel (.orElse first (← pipeline fuel))
    | _ => return first

/-- Whether nothing more of a list of commands follows here. -/
def isListEnd : Reader Bool := do
  skipBlanks
  if (← peek).isNone then return true
  match ← operator? with
  | some ")" | some ";;" => return true
  | _ =>
    match ← keyword? with
    | some w => return closers.contains w
    | none => return false

def commandLine : Nat → Reader Command
  | 0 => fail "Syntax error: nested too deeply"
  | fuel + 1 => do
    let first ← joined fuel (← pipeline fuel)
    skipBlanks
    match ← operator? with
    | some "&" =>
      skip 1
      more fuel (.background first)
    | some ";" =>
      skip 1
      more fuel first
    | _ => return first

/-- Reads on after a separator within a line. -/
def more : Nat → Command → Reader Command
  | 0, _ => fail "Syntax error: nested too deeply"
  | fuel + 1, first => do
    if ← isListEnd then return first
    if (← peek) = some '\n' then return first
    return .sequence first (← commandLine fuel)

/-- Reads the commands of a compound command, over several lines. -/
def compound : Nat → Reader Command
  | 0 => fail "Syntax error: nested too deeply"
  | fuel + 1 => do
    skipLines ((← get).rest.length + 1)
    let first ← commandLine fuel
    furtherLines fuel first

/-- Reads further lines of a compound command. -/
def furtherLines : Nat → Command → Reader Command
  | 0, _ => fail "Syntax error: nested too deeply"
  | fuel + 1, first => do
    skipLines ((← get).rest.length + 1)
    if ← isListEnd then return first
    let next ← commandLine fuel
    furtherLines fuel (.sequence first next)

def program : Nat → Reader Command
  | 0 => fail "Syntax error: nested too deeply"
  | fuel + 1 => do
    skipLines ((← get).rest.length + 1)
    if (← get).rest.isEmpty then return .empty
    let c ← compound fuel
    if (← get).rest.isEmpty then return c else unexpected

end

/-- Reads the next complete command of a script, if there is one. It ends with its line. -/
def next? : Reader (Option Command) := do
  let fuel := 16 * (← get).rest.length + 64
  skipLines fuel
  if (← get).rest.isEmpty then return none
  let c ← commandLine fuel
  skipBlanks
  match ← peek with
  | none => return some c
  | some '\n' =>
    skip 1
    return some c
  | some _ => unexpected

end Reader

end Conformance.Machine.Shell
