import Conformance.Machine.Shell.Command
/-!
# The source of a script

What a reader of shell scripts takes from the source: characters, blanks, line breaks, operators,
keywords, and the texts that stand between marks of their own. A reader goes from the source that is
still to be read to the rest, or fails at a line.
-/

namespace Conformance.Machine.Shell

/-- What is still to be read of a script. -/
structure Source where
  rest : List Char
  /-- The number of the current line, from one. -/
  line : Nat

/-- Why a script cannot be read on. -/
structure ReadError where
  line : Nat
  text : String

/-- A function that reads a source. -/
abbrev Reader := StateT Source (Except ReadError)

namespace Reader

/-! ## Characters -/

def peek : Reader (Option Char) := do return (← get).rest.head?

/-- The character after the next `n`. -/
def peekAt (n : Nat) : Reader (Option Char) := do return ((← get).rest.drop n).head?

def skip (n : Nat) : Reader Unit := modify fun s ↦
  { s with rest := s.rest.drop n, line := s.line + (s.rest.take n).count '\n' }

def fail {α : Type} (text : String) : Reader α := do throw ⟨(← get).line, text⟩

/-- Goes past blanks, joined lines and a comment. -/
def skipBlanks : Reader Unit := modify fun s ↦
  let (rest, joined) := go s.rest
  ⟨rest, s.line + joined⟩
where
  /-- The rest after blanks, with the number of joined lines. -/
  go : List Char → List Char × Nat
    | '\\' :: '\n' :: r => let (r, n) := go r; (r, n + 1)
    | c :: r =>
      if c == ' ' || c == '\t' then go r
      else if c == '#' then (r.dropWhile (· ≠ '\n'), 0)
      else (c :: r, 0)
    | [] => ([], 0)

/-- Whether a character ends an unquoted word. -/
def endsWord (c : Char) : Bool :=
  [' ', '\t', '\n', ';', '&', '|', '<', '>', '(', ')'].contains c

def isNameChar (c : Char) : Bool := c.isAlphanum || c == '_'

def isName (s : String) : Bool :=
  match s.toList with
  | [] => false
  | c :: r => !c.isDigit && isNameChar c && r.all isNameChar

/-- The unquoted text of a word, if it has no other parts. -/
def bare? : Word → Option String
  | [.literal false s] => some s
  | _ => none

/-- The text of a word that stands for itself, and whether some of it is quoted. -/
def plainText (w : Word) : String × Bool :=
  w.foldl (fun (s, q) p ↦ match p with
    | .literal isQuoted t => (s ++ t, q || isQuoted)
    | _ => (s, q)) ("", false)

/-- Goes past line breaks, and blanks and comments between them. -/
def skipLines : Nat → Reader Unit
  | 0 => return
  | fuel + 1 => do
    skipBlanks
    if (← peek) = some '\n' then
      skip 1
      skipLines fuel

/-- The operator at the front of the source. -/
def operator? : Reader (Option String) := do
  let s := (← get).rest
  let starts (t : String) : Bool := t.toList.isPrefixOf s
  return ["&&", "||", ";;", "<<-", "<<", "<&", ">&", "<>", ">>", ">|", ";", "&", "|", "<", ">",
    "(", ")", "\n"].find? starts

/-- The unquoted word at the front of the source, if it is nothing else. -/
def keyword? : Reader (Option String) := do
  let s := (← get).rest
  let w := s.takeWhile (!endsWord ·)
  if w.isEmpty || w.any (['\'', '"', '\\', '$', '\x60'].contains ·) then return none
  return some (String.ofList w)

/-- Goes past a keyword, which must be there. -/
def expect (word : String) : Reader Unit := do
  skipBlanks
  if (← keyword?) = some word then skip word.length
  else
    match ← keyword? with
    | some w => fail ("Syntax error: \"" ++ w ++ "\" unexpected (expecting \"" ++ word ++ "\")")
    | none =>
      match ← operator? with
      | some "\n" => fail ("Syntax error: newline unexpected (expecting \"" ++ word ++ "\")")
      | some o => fail ("Syntax error: \"" ++ o ++ "\" unexpected (expecting \"" ++ word ++ "\")")
      | none => fail ("Syntax error: end of file unexpected (expecting \"" ++ word ++ "\")")

/-- Fails at whatever comes next. -/
def unexpected {α : Type} : Reader α := do
  match ← operator? with
  | some "\n" => fail "Syntax error: newline unexpected"
  | some o => fail ("Syntax error: \"" ++ o ++ "\" unexpected")
  | none =>
    match ← keyword? with
    | some w => fail ("Syntax error: \"" ++ w ++ "\" unexpected")
    | none =>
      if (← get).rest.isEmpty then fail "Syntax error: end of file unexpected"
      else fail "Syntax error: word unexpected"

/-- The keywords that end a list of commands. -/
def closers : List String := ["then", "else", "elif", "fi", "do", "done", "esac", "\x7d"]

/-- A text of an unquoted part, joined to the part before it. -/
def pushChar (isQuoted : Bool) (c : Char) : Word → Word
  | .literal q s :: r =>
    if q = isQuoted then .literal q (s.push c) :: r
    else .literal isQuoted (String.singleton c) :: .literal q s :: r
  | r => .literal isQuoted (String.singleton c) :: r

/-- The lines of a text up to a delimiter line, and the text after it. -/
def takeHere (delimiter : String) (stripsTabs : Bool) :
    Nat → List Char → List Char × List Char
  | 0, cs => ([], cs)
  | fuel + 1, cs =>
    if cs.isEmpty then ([], [])
    else
      let line := cs.takeWhile (· ≠ '\n')
      let rest := (cs.dropWhile (· ≠ '\n')).drop 1
      let line := if stripsTabs then line.dropWhile (· == '\t') else line
      if String.ofList line = delimiter then ([], rest)
      else
        let (body, rest) := takeHere delimiter stripsTabs fuel rest
        (line ++ '\n' :: body, rest)

/-- Takes the text of a here-document out of the source: it begins after the current line. -/
def hereText (delimiter : String) (stripsTabs : Bool) : Reader (List Char) := do
  let s ← get
  let line := s.rest.takeWhile (· ≠ '\n')
  let after := (s.rest.dropWhile (· ≠ '\n')).drop 1
  let (body, rest) := takeHere delimiter stripsTabs (after.length + 1) after
  set { s with rest := line ++ '\n' :: rest }
  return body

/-- Where the parts of a text come from. -/
inductive Quoting where
  /-- An unquoted word. -/
  | none
  /-- Between double quotes. -/
  | double
  /-- The word of a parameter expansion, up to its closing brace. -/
  | braces (isQuoted : Bool)
  /-- An arithmetic expression, up to two closing parentheses. -/
  | arithmetic (depth : Nat)
  /-- A here-document. -/
  | here
  deriving DecidableEq

/-- Whether the parts of a text are quoted. -/
def Quoting.isQuoted : Quoting → Bool
  | .none => false
  | .double => true
  | .braces q => q
  | .arithmetic _ => true
  | .here => true

/-- The text of a backquoted command, and its length with the closing quote. -/
def backquoted (isQuoted : Bool) : List Char → Option (List Char × Nat)
  | [] => none
  | '\x60' :: _ => some ([], 1)
  | '\\' :: c :: r => do
    let (t, n) ← backquoted isQuoted r
    if c == '\x60' || c == '\\' || c == '$' || (isQuoted && c == '"') then return (c :: t, n + 2)
    else return ('\\' :: c :: t, n + 2)
  | c :: r => do
    let (t, n) ← backquoted isQuoted r
    return (c :: t, n + 1)

end Reader

end Conformance.Machine.Shell
