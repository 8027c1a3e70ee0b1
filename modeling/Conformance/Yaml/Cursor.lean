/-!
# Places in a YAML text

A YAML text is read from left to right by a cursor, which holds what is still to be read and the
mark of the place. Marks count lines and columns from zero, in characters; a carriage return with
the line feed after it is one line break, but two characters of the index.

There are five line breaks. Within a scalar the first four all stand for a line feed; the line
separator and the paragraph separator stand for themselves.
-/

namespace Conformance.Yaml

/-- A place in a text. -/
structure Mark where
  /-- The characters before it. -/
  index : Nat
  /-- The lines before it. -/
  line : Nat
  /-- The characters before it on its line. -/
  column : Nat
  deriving DecidableEq, Repr

/-- The place `n` characters further on the same line. -/
def Mark.advance (m : Mark) (n : Nat) : Mark := ⟨m.index + n, m.line, m.column + n⟩

/-- The start of the next line, after a line break of `n` characters. -/
def Mark.newLine (m : Mark) (n : Nat) : Mark := ⟨m.index + n, m.line + 1, 0⟩

/-! ## Characters -/

/-- Whether a text may hold a character at all. -/
def isPermitted (c : Char) : Bool :=
  let n := c.toNat
  n == 0x09 || n == 0x0A || n == 0x0D || (0x20 ≤ n && n ≤ 0x7E) || n == 0x85 ||
    (0xA0 ≤ n && n ≤ 0xFFFD) || 0x10000 ≤ n

/-- Whether a character separates words on a line. -/
def isBlank (c : Char) : Bool := c == ' ' || c == '\t'

def isBreak (c : Char) : Bool :=
  c == '\n' || c == '\r' || c == '\u0085' || c == '\u2028' || c == '\u2029'

/-- Whether a character is a blank or ends a line. -/
def isSpace (c : Char) : Bool := isBlank c || isBreak c

/-- What a single line break stands for within a scalar. -/
def breakValue (c : Char) : Char := if c == '\u2028' || c == '\u2029' then c else '\n'

/-- Whether a character may be part of a name: of an anchor, a directive or a tag handle. -/
def isNameChar (c : Char) : Bool := c.isAlphanum || c == '-' || c == '_'

/-- Whether a text is at its end, at a blank or at a line break. -/
def startsSpace : List Char → Bool
  | [] => true
  | c :: _ => isSpace c

/-- Whether a text is at its end or at a line break. -/
def startsBreak : List Char → Bool
  | [] => true
  | c :: _ => isBreak c

/-! ## Cursors -/

/-- What is still to be read, and where it begins. -/
structure Cursor where
  rest : List Char
  mark : Mark
  deriving DecidableEq, Repr

namespace Cursor

def ofText (cs : List Char) : Cursor := ⟨cs, ⟨0, 0, 0⟩⟩

def advance (c : Cursor) (n : Nat) : Cursor := ⟨c.rest.drop n, c.mark.advance n⟩

/-- The cursor past the characters of the line that satisfy `p`, and these characters. -/
def span (p : Char → Bool) (c : Cursor) : List Char × Cursor :=
  let run := c.rest.takeWhile p
  (run, ⟨c.rest.dropWhile p, c.mark.advance run.length⟩)

/-- The cursor past the characters of the line that satisfy `p`. -/
def skip (p : Char → Bool) (c : Cursor) : Cursor := (c.span p).2

/-- What the line break at the cursor stands for, if there is one, and the cursor past it. -/
def takeBreak (c : Cursor) : Option Char × Cursor :=
  match c.rest with
  | '\r' :: '\n' :: r => (some '\n', ⟨r, c.mark.newLine 2⟩)
  | d :: r => if isBreak d then (some (breakValue d), ⟨r, c.mark.newLine 1⟩) else (none, c)
  | [] => (none, c)

/-- Whether a line begins here with three of the character `d` and a space. -/
def startsTriple (c : Cursor) (d : Char) : Bool :=
  c.mark.column == 0 && c.rest.take 3 == [d, d, d] && startsSpace (c.rest.drop 3)

/-- Whether the cursor is at a line that starts or ends a document. -/
def atDocumentLine (c : Cursor) : Bool := c.startsTriple '-' || c.startsTriple '.'

/-- The cursor at the end of its line: past blanks and past a comment. Something else on the line
is an error. -/
def finishLine? (c : Cursor) : Option Cursor :=
  let c := c.skip isBlank
  let c := if c.rest.head? = some '#' then c.skip (!isBreak ·) else c
  if startsBreak c.rest then some c else none

end Cursor

end Conformance.Yaml
