import Conformance.Yaml.Cursor
/-!
# Block scalars

A block scalar is a header and the indented lines below it. A literal block keeps its lines; a
folded one joins neighbouring lines that do not begin with a blank by a space. The header may give
the indentation, and says whether the line breaks at the end are stripped, clipped to one or kept.
-/

namespace Conformance.Yaml.Block

/-- What happens to the line breaks at the end of a block. -/
inductive Chomp where
  | strip
  | clip
  | keep
  deriving DecidableEq, Repr

/-- What follows the indicator of a block on its line. -/
structure Header where
  chomp : Chomp
  /-- The indentation beyond the enclosing one; zero if it is to be found out. -/
  increment : Nat
  deriving DecidableEq, Repr

/-- The chomping indicator at the cursor. -/
def chomp? (c : Cursor) : Option (Chomp × Cursor) :=
  match c.rest with
  | '+' :: _ => some (.keep, c.advance 1)
  | '-' :: _ => some (.strip, c.advance 1)
  | _ => none

/-- The indentation indicator at the cursor, zero if there is none. The digit zero is an error. -/
def increment? (c : Cursor) : Option (Nat × Cursor) :=
  match c.rest with
  | d :: _ =>
    if d == '0' then none
    else if d.isDigit then some (d.toNat - '0'.toNat, c.advance 1)
    else some (0, c)
  | [] => some (0, c)

/-- The header at the cursor. The two indicators may come in either order. -/
def header? (c : Cursor) : Option (Header × Cursor) :=
  match chomp? c with
  | some (chomp, c) => do
    let (increment, c) ← increment? c
    return (⟨chomp, increment⟩, c)
  | none => do
    let (increment, c) ← increment? c
    if increment = 0 then return (⟨.clip, 0⟩, c)
    match chomp? c with
    | some (chomp, c) => return (⟨chomp, increment⟩, c)
    | none => return (⟨.clip, increment⟩, c)

/-- Empty lines and indentation that were read. -/
structure Margin where
  /-- The line breaks. -/
  breaks : List Char
  /-- The greatest column that was reached. -/
  widest : Nat
  cursor : Cursor
  deriving DecidableEq, Repr

/-- Reads empty lines, and the indentation of the line after them up to the column `indent`, or any
indentation if `indent` is zero. A tab within the indentation is an error. -/
def margin (indent widest : Nat) (breaks : List Char) (m : Mark) : List Char → Option Margin
  | [] => some ⟨breaks, widest, ⟨[], m⟩⟩
  | '\r' :: '\n' :: r => margin indent widest (breaks ++ ['\n']) (m.newLine 2) r
  | c :: r =>
    let isInside := indent == 0 || m.column < indent
    if isBreak c then margin indent widest (breaks ++ [breakValue c]) (m.newLine 1) r
    else if c == ' ' && isInside then
      margin indent (max widest (m.column + 1)) breaks (m.advance 1) r
    else if c == '\t' && isInside then none
    else some ⟨breaks, widest, ⟨c :: r, m⟩⟩

/-- A block partway through. -/
structure Partial where
  text : List Char
  /-- The line break after the last line. -/
  lineBreak : Option Char
  /-- The line breaks of the empty lines after it. -/
  breaks : List Char
  /-- Whether the last line began with a blank. -/
  wasIndented : Bool
  deriving DecidableEq, Repr

/-- What stands between the last line and the next, which begins with a blank or not. -/
def Partial.joint (p : Partial) (isLiteral isIndented : Bool) : List Char :=
  if !isLiteral && p.lineBreak = some '\n' && !p.wasIndented && !isIndented then
    if p.breaks.isEmpty then [' '] else p.breaks
  else p.lineBreak.toList ++ p.breaks

/-- The text of a block that has ended. -/
def Partial.finish (p : Partial) : Chomp → List Char
  | .strip => p.text
  | .clip => p.text ++ p.lineBreak.toList
  | .keep => p.text ++ p.lineBreak.toList ++ p.breaks

/-- Reads the further lines of a block whose lines begin at the column `indent`. -/
def lines (isLiteral : Bool) (indent : Nat) : Nat → Partial → Cursor → Option (Partial × Cursor)
  | 0, _, _ => none
  | fuel + 1, p, c =>
    match c.rest with
    | [] => some (p, c)
    | d :: _ =>
      if c.mark.column = indent then do
        let isIndented := isBlank d
        let (line, c) := c.span (!isBreak ·)
        let (lineBreak, c) := c.takeBreak
        let next ← margin indent 0 [] c.mark c.rest
        let text := p.text ++ p.joint isLiteral isIndented ++ line
        lines isLiteral indent fuel ⟨text, lineBreak, next.breaks, isIndented⟩ next.cursor
      else some (p, c)

/-- Reads the block whose indicator is at the cursor. `outer` is the column of the enclosing
collection, `-1` if there is none. -/
def scan (isLiteral : Bool) (outer : Int) (c : Cursor) : Option (List Char × Cursor) := do
  let (header, c) ← header? (c.advance 1)
  let c ← c.finishLine?
  let c := c.takeBreak.2
  let given := if header.increment = 0 then 0 else (max outer 0).toNat + header.increment
  let first ← margin given 0 [] c.mark c.rest
  let indent := if given = 0 then max first.widest (max (outer + 1) 1).toNat else given
  let fuel := first.cursor.rest.length + 1
  let (p, c) ← lines isLiteral indent fuel ⟨[], none, first.breaks, false⟩ first.cursor
  return (p.finish header.chomp, c)

end Conformance.Yaml.Block
