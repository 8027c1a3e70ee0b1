import Conformance.Yaml.Block
import Conformance.Yaml.Plain
import Conformance.Yaml.Quoted
import Conformance.Yaml.Tag
/-!
# Tokens of a YAML text

The text is cut into tokens from left to right. Indentation becomes tokens too: a collection that
begins deeper than the enclosing one is opened, and one that the text has left is closed.

## Keys

A key needs no mark of its own, so whether a scalar or a bracket begins a key is known only at the
colon after it. Every place where a key may begin is therefore remembered as a *candidate*, one for
each level of brackets. At a colon the candidate of the level becomes a key: the key's token, and
that of a mapping if one begins there, are put in front of what was read since. A candidate lapses
at the end of its line and after 1024 characters; where only a key can stand, that is an error.
-/

namespace Conformance.Yaml

/-- How a scalar is written. -/
inductive Style where
  | plain
  /-- In single or in double quotes. -/
  | quoted
  /-- A block that keeps its lines. -/
  | literal
  /-- A block whose lines are joined. -/
  | folded
  deriving DecidableEq, Repr

/-- What a token is. -/
inductive Token.Kind where
  | directive (d : Directive)
  | documentStart
  | documentEnd
  | blockSequenceStart
  | blockMappingStart
  /-- The end of a collection that is marked by indentation. -/
  | blockEnd
  | flowSequenceStart
  | flowSequenceEnd
  | flowMappingStart
  | flowMappingEnd
  /-- The dash before an item. -/
  | item
  /-- The comma between items in brackets. -/
  | comma
  | key
  | value
  | alias (name : String)
  | anchor (name : String)
  | tag (text : TagText)
  | scalar (style : Style) (text : String)
  | streamEnd
  deriving DecidableEq, Repr

/-- A token with the places where it begins and ends. -/
structure Token where
  kind : Token.Kind
  start : Mark
  stop : Mark
  deriving DecidableEq, Repr

/-- A place where a key may have begun. -/
structure Candidate where
  mark : Mark
  /-- Whether only a key can stand there. -/
  isRequired : Bool
  /-- How many tokens were read before it. -/
  position : Nat
  deriving DecidableEq, Repr

/-- How many characters a key may have that is not marked as one. -/
def longestKey : Nat := 1024

/-- Whether a candidate can no longer become a key at a given place. -/
def Candidate.hasLapsed (k : Candidate) (m : Mark) : Bool :=
  k.mark.line < m.line || k.mark.index + longestKey < m.index

/-- A text partway through being cut into tokens. -/
structure Tokenizer where
  cursor : Cursor
  tokens : Array Token
  /-- The candidate of the current level of brackets. -/
  candidate : Option Candidate
  /-- The candidates of the levels around it, from the inside out. -/
  outerCandidates : List (Option Candidate)
  /-- The column of the innermost collection that is marked by indentation, `-1` outside all. -/
  indent : Int
  /-- The columns around it, from the inside out. -/
  outerIndents : List Int
  /-- Whether a key may begin here. -/
  allowsKey : Bool
  deriving Repr

namespace Tokenizer

def ofText (cs : List Char) : Tokenizer := ⟨.ofText cs, #[], none, [], -1, [], true⟩

def inFlow (s : Tokenizer) : Bool := !s.outerCandidates.isEmpty

def push (s : Tokenizer) (kind : Token.Kind) (start stop : Mark) : Tokenizer :=
  { s with tokens := s.tokens.push ⟨kind, start, stop⟩ }

/-- Adds the token made of the next `n` characters. -/
def take (s : Tokenizer) (kind : Token.Kind) (n : Nat) : Tokenizer :=
  let c := s.cursor.advance n
  { s.push kind s.cursor.mark c.mark with cursor := c }

/-- Puts tokens without length in front of those from a given position on. -/
def insert (s : Tokenizer) (position : Nat) (kinds : List Token.Kind) (m : Mark) : Tokenizer :=
  let before := s.tokens.toList.take position
  let after := s.tokens.toList.drop position
  { s with tokens := (before ++ kinds.map (Token.mk · m m) ++ after).toArray }

/-! ## Candidates -/

/-- Gives up the candidate of the current level. -/
def dropCandidate (s : Tokenizer) : Option Tokenizer :=
  if s.candidate.any (·.isRequired) then none else some { s with candidate := none }

/-- Notes that a key may begin at the cursor, if it may. -/
def saveCandidate (s : Tokenizer) : Option Tokenizer :=
  if s.allowsKey then do
    let isRequired := !s.inFlow && s.indent == s.cursor.mark.column
    let s ← s.dropCandidate
    return { s with candidate := some ⟨s.cursor.mark, isRequired, s.tokens.size⟩ }
  else some s

/-- A candidate, unless it has lapsed. A required one must not. -/
def refresh (m : Mark) : Option Candidate → Option (Option Candidate)
  | none => some none
  | some k => if k.hasLapsed m then if k.isRequired then none else some none else some (some k)

/-- Gives up all candidates that have lapsed. -/
def dropLapsed (s : Tokenizer) : Option Tokenizer := do
  let candidate ← refresh s.cursor.mark s.candidate
  let outerCandidates ← s.outerCandidates.mapM (refresh s.cursor.mark)
  return { s with candidate, outerCandidates }

/-! ## Indentation -/

/-- Makes a column the current one if it lies deeper and no brackets are open. Tells whether a
collection begins there. -/
def deepen (s : Tokenizer) (column : Nat) : Bool × Tokenizer :=
  if !s.inFlow && s.indent < column then
    (true, { s with indent := column, outerIndents := s.indent :: s.outerIndents })
  else (false, s)

/-- Opens a collection at the cursor if it lies deeper than the current one. -/
def openCollection (s : Tokenizer) (kind : Token.Kind) : Tokenizer :=
  match s.deepen s.cursor.mark.column with
  | (true, s) => s.push kind s.cursor.mark s.cursor.mark
  | (false, s) => s

/-- Closes the collections that lie deeper than a column, from the inside out. -/
def closeDeeper (column : Int) (m : Mark) :
    Int → List Int → Array Token → Int × List Int × Array Token
  | indent, [], tokens => (indent, [], tokens)
  | indent, outer :: rest, tokens =>
    if column < indent then closeDeeper column m outer rest (tokens.push ⟨.blockEnd, m, m⟩)
    else (indent, outer :: rest, tokens)

/-- Closes the collections that the text has left by going back to a column. -/
def close (s : Tokenizer) (column : Int) : Tokenizer :=
  if s.inFlow then s
  else
    let (indent, outerIndents, tokens) :=
      closeDeeper column s.cursor.mark s.indent s.outerIndents s.tokens
    { s with indent, outerIndents, tokens }

/-! ## Between tokens -/

/-- Skips blanks, comments and line breaks. Tabs count as blanks where no key may begin. Each turn
ends a line. -/
def skipSpaceFrom : Nat → Tokenizer → Tokenizer
  | 0, s => s
  | fuel + 1, s =>
    let c := s.cursor.skip fun d ↦ d == ' ' || (d == '\t' && (s.inFlow || !s.allowsKey))
    let c := if c.rest.head? = some '#' then c.skip (!isBreak ·) else c
    match c.takeBreak with
    | (some _, c) => skipSpaceFrom fuel { s with cursor := c, allowsKey := s.allowsKey || !s.inFlow }
    | (none, c) => { s with cursor := c }

/-- Skips to the next token, and a byte order mark at the start of the text. -/
def skipSpace (s : Tokenizer) : Tokenizer :=
  let c := s.cursor
  let c := if c.mark.index = 0 && c.rest.head? = some '\uFEFF' then c.advance 1 else c
  skipSpaceFrom (c.rest.length + 1) { s with cursor := c }

/-- Goes to the next token and draws the consequences of its place. -/
def settle (s : Tokenizer) : Option Tokenizer := do
  let s ← s.skipSpace.dropLapsed
  return s.close s.cursor.mark.column

/-! ## The tokens -/

/-- Ends everything that is open, where a document begins or ends. -/
def endDocument (s : Tokenizer) : Option Tokenizer := do
  let s ← (s.close (-1)).dropCandidate
  return { s with allowsKey := false }

/-- The end of the text. It counts as the start of a line. -/
def finish (s : Tokenizer) : Option (Array Token) := do
  let m := s.cursor.mark
  let m := if m.column = 0 then m else m.newLine 0
  let s ← { s with cursor := { s.cursor with mark := m } }.endDocument
  return (s.push .streamEnd m m).tokens

def directive (s : Tokenizer) : Option Tokenizer := do
  let s ← s.endDocument
  let (d, c) ← Directive.scan? s.cursor
  return { s.push (.directive d) s.cursor.mark c.mark with cursor := c }

def documentLine (s : Tokenizer) (kind : Token.Kind) : Option Tokenizer := do
  return (← s.endDocument).take kind 3

def openFlow (s : Tokenizer) (kind : Token.Kind) : Option Tokenizer := do
  let s ← s.saveCandidate
  let inside := { s with
    candidate := none, outerCandidates := s.candidate :: s.outerCandidates, allowsKey := true }
  return inside.take kind 1

def closeFlow (s : Tokenizer) (kind : Token.Kind) : Option Tokenizer := do
  let s ← s.dropCandidate
  let outside := match s.outerCandidates with
    | [] => s
    | k :: rest => { s with candidate := k, outerCandidates := rest }
  return { outside with allowsKey := false }.take kind 1

def comma (s : Tokenizer) : Option Tokenizer := do
  let s ← s.dropCandidate
  return { s with allowsKey := true }.take .comma 1

/-- Reads the dash before an item. -/
def item (s : Tokenizer) : Option Tokenizer := do
  if !s.inFlow && !s.allowsKey then none
  let s ← (s.openCollection .blockSequenceStart).dropCandidate
  return { s with allowsKey := true }.take .item 1

/-- Reads the question mark before a key. -/
def key (s : Tokenizer) : Option Tokenizer := do
  if !s.inFlow && !s.allowsKey then none
  let s ← (s.openCollection .blockMappingStart).dropCandidate
  return { s with allowsKey := !s.inFlow }.take .key 1

/-- Reads the colon before a value. -/
def value (s : Tokenizer) : Option Tokenizer :=
  match s.candidate with
  | some k =>
    let (isDeeper, s) := s.deepen k.mark.column
    let kinds := if isDeeper then [.blockMappingStart, .key] else [.key]
    some ({ s.insert k.position kinds k.mark with
      candidate := none, allowsKey := false }.take .value 1)
  | none =>
    if !s.inFlow && !s.allowsKey then none
    else some ({ s.openCollection .blockMappingStart with allowsKey := !s.inFlow }.take .value 1)

/-- Adds a token that was read from the cursor up to `c`, after which no key may begin. -/
def finishAtom (s : Tokenizer) (kind : Token.Kind) (c : Cursor) : Tokenizer :=
  { s.push kind s.cursor.mark c.mark with cursor := c, allowsKey := false }

def anchor (s : Tokenizer) : Option Tokenizer := do
  let s ← s.saveCandidate
  let (name, c) ← anchorName? s.cursor
  return s.finishAtom (.anchor name) c

def reference (s : Tokenizer) : Option Tokenizer := do
  let s ← s.saveCandidate
  let (name, c) ← anchorName? s.cursor
  return s.finishAtom (.alias name) c

def tag (s : Tokenizer) : Option Tokenizer := do
  let s ← s.saveCandidate
  let (text, c) ← Tag.scan? s.inFlow s.cursor
  return s.finishAtom (.tag text) c

/-- Reads a block scalar. A key may begin after it. -/
def block (s : Tokenizer) (isLiteral : Bool) : Option Tokenizer := do
  let s ← s.dropCandidate
  let (text, c) ← Block.scan isLiteral s.indent s.cursor
  let style : Style := if isLiteral then .literal else .folded
  return { s.finishAtom (.scalar style (String.ofList text)) c with allowsKey := true }

def quoted (s : Tokenizer) (isSingle : Bool) : Option Tokenizer := do
  let s ← s.saveCandidate
  let (text, c) ← Quoted.scan isSingle s.cursor
  return s.finishAtom (.scalar .quoted (String.ofList text)) c

/-- Reads a plain scalar. A key may begin after it if it ended with its line. -/
def plain (s : Tokenizer) : Option Tokenizer := do
  let s ← s.saveCandidate
  let p ← Plain.scan s.inFlow (s.indent + 1) s.cursor
  return { s.finishAtom (.scalar .plain (String.ofList p.text)) p.cursor with
    allowsKey := p.isPastBreak }

/-- Reads the token that begins with the character `c` before the text `r`. -/
def token (s : Tokenizer) (c : Char) (r : List Char) : Option Tokenizer :=
  if s.cursor.mark.column = 0 && c == '%' then s.directive
  else if s.cursor.startsTriple '-' then s.documentLine .documentStart
  else if s.cursor.startsTriple '.' then s.documentLine .documentEnd
  else if c == '[' then s.openFlow .flowSequenceStart
  else if c == '{' then s.openFlow .flowMappingStart
  else if c == ']' then s.closeFlow .flowSequenceEnd
  else if c == '}' then s.closeFlow .flowMappingEnd
  else if c == ',' then s.comma
  else if c == '-' && startsSpace r then s.item
  else if c == '?' && (s.inFlow || startsSpace r) then s.key
  else if c == ':' && (s.inFlow || startsSpace r) then s.value
  else if c == '*' then s.reference
  else if c == '&' then s.anchor
  else if c == '!' then s.tag
  else if c == '|' && !s.inFlow then s.block true
  else if c == '>' && !s.inFlow then s.block false
  else if c == '\'' then s.quoted true
  else if c == '"' then s.quoted false
  else if Plain.canStart s.inFlow c r then s.plain
  else none

/-- Reads all further tokens. Each turn reads at least one character. -/
def run : Nat → Tokenizer → Option (Array Token)
  | 0, _ => none
  | fuel + 1, s => do
    let s ← s.settle
    match s.cursor.rest with
    | [] => s.finish
    | c :: r => run fuel (← s.token c r)

end Tokenizer

/-- The tokens of a text, if it can be cut into tokens. -/
def tokens? (cs : List Char) : Option (List Token) :=
  if cs.all isPermitted then
    ((Tokenizer.ofText cs).run (cs.length + 1)).map (·.toList)
  else none

end Conformance.Yaml
