/-!
# Patterns

A pattern stands for texts: a star for any characters, a question mark for one, brackets for one out
of a set, and anything else for itself. What was quoted in a script stands for itself whatever it is,
so a pattern is made from glyphs, which remember that.
-/

namespace Conformance.Machine.Shell

/-- A character of an expanded word. -/
structure Glyph where
  char : Char
  isQuoted : Bool
  deriving DecidableEq, Repr

def Glyph.text (gs : List Glyph) : String := String.ofList (gs.map (·.char))

namespace Pattern

/-- A part of a pattern. -/
inductive Element where
  | char (c : Char)
  | any
  | star
  | set (isNegated : Bool) (ranges : List (Char × Char))
  deriving DecidableEq, Repr

/-- Whether a part other than a star stands for a character. -/
def Element.admits : Element → Char → Bool
  | .char d, c => c = d
  | .any, _ => true
  | .star, _ => false
  | .set isNegated ranges, c =>
    (ranges.any fun r ↦ r.1.toNat ≤ c.toNat && c.toNat ≤ r.2.toNat) != isNegated

def isMatch : List Element → List Char → Bool
  | [], cs => cs.isEmpty
  | .star :: es, cs => (List.range (cs.length + 1)).any fun k ↦ isMatch es (cs.drop k)
  | e :: es, c :: cs => e.admits c && isMatch es cs
  | _ :: _, [] => false

/-- The ranges that the glyphs between two brackets name. -/
def ranges : List Glyph → List (Char × Char)
  | a :: ⟨'-', false⟩ :: b :: r => (a.char, b.char) :: ranges r
  | a :: r => (a.char, a.char) :: ranges r
  | [] => []

/-- What stands before the closing bracket of a set, and what after it. A bracket that comes first
does not close the set. -/
def splitSet (gs : List Glyph) : Option (List Glyph × List Glyph) :=
  let first := gs.take 1
  let more := (gs.drop 1).takeWhile (· ≠ ⟨']', false⟩)
  let rest := gs.drop (first.length + more.length)
  if rest.isEmpty then none else some (first ++ more, rest.drop 1)

/-- Reads a pattern. A bracket without its partner stands for itself. -/
def elements : Nat → List Glyph → List Element
  | 0, _ | _, [] => []
  | fuel + 1, ⟨'*', false⟩ :: r => .star :: elements fuel r
  | fuel + 1, ⟨'?', false⟩ :: r => .any :: elements fuel r
  | fuel + 1, ⟨'[', false⟩ :: r =>
    let isNegated := r.head? = some ⟨'!', false⟩
    match splitSet (if isNegated then r.drop 1 else r) with
    | some (body, rest) => .set isNegated (ranges body) :: elements fuel rest
    | none => .char '[' :: elements fuel r
  | fuel + 1, g :: r => .char g.char :: elements fuel r

/-- The pattern that glyphs spell. -/
def ofGlyphs (gs : List Glyph) : List Element := elements gs.length gs

/-- Whether glyphs spell a pattern that could stand for another text. -/
def isOpen (gs : List Glyph) : Bool :=
  (ofGlyphs gs).any fun e ↦ match e with
    | .char _ => false
    | _ => true

/-- A text without a beginning that matches a pattern. -/
def trimStart (p : List Element) (isLongest : Bool) (cs : List Char) : List Char :=
  let lengths := List.range (cs.length + 1)
  let k := (if isLongest then lengths.reverse else lengths).find? fun k ↦ isMatch p (cs.take k)
  cs.drop (k.getD 0)

/-- A text without an end that matches a pattern. -/
def trimEnd (p : List Element) (isLongest : Bool) (cs : List Char) : List Char :=
  let lengths := List.range (cs.length + 1)
  let k := (if isLongest then lengths else lengths.reverse).find? fun k ↦ isMatch p (cs.drop k)
  cs.take (k.getD cs.length)

end Pattern

end Conformance.Machine.Shell
