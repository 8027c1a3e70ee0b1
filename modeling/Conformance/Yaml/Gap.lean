import Conformance.Yaml.Cursor
/-!
# Gaps between words

Inside a plain or quoted scalar the words are separated by gaps. Blanks on one line are kept as they
are. A gap that crosses lines is folded: a single line feed becomes a space, and of several line
breaks the first is dropped; blanks around line breaks are dropped too. A first break that is no
line feed is not folded.
-/

namespace Conformance.Yaml

/-- What separates two words of a scalar. -/
inductive Gap where
  /-- Blanks on one line. -/
  | blanks (cs : List Char)
  /-- Line breaks. The first is absent if it was escaped. -/
  | lines (first : Option Char) (more : List Char)
  deriving DecidableEq, Repr

namespace Gap

def isLines : Gap → Bool
  | .blanks _ => false
  | .lines .. => true

def push : Gap → Char → Gap
  | .blanks _, b => .lines (some b) []
  | .lines first more, b => .lines first (more ++ [b])

/-- The text that a gap stands for. -/
def text : Gap → List Char
  | .blanks cs => cs
  | .lines (some '\n') [] => [' ']
  | .lines (some '\n') more => more
  | .lines first more => first.toList ++ more

/-- Reads on in a gap. Past its first line break, a tab left of the column `margin` is an error. -/
def scan (margin : Int) (gap : Gap) (m : Mark) : List Char → Option (Gap × Cursor)
  | [] => some (gap, ⟨[], m⟩)
  | '\r' :: '\n' :: r => scan margin (gap.push '\n') (m.newLine 2) r
  | c :: r =>
    if isBreak c then scan margin (gap.push (breakValue c)) (m.newLine 1) r
    else if isBlank c then
      match gap with
      | .blanks cs => scan margin (.blanks (cs ++ [c])) (m.advance 1) r
      | .lines .. =>
        if c == '\t' && m.column < margin then none else scan margin gap (m.advance 1) r
    else some (gap, ⟨c :: r, m⟩)

end Gap

end Conformance.Yaml
