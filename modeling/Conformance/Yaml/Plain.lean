import Conformance.Yaml.Gap
/-!
# Plain scalars

A plain scalar has no quotes. It ends before a comment, before a colon with a space after it, where
the text is indented too little, and inside brackets before a bracket or a comma.
-/

namespace Conformance.Yaml.Plain

/-- Whether a character belongs to brackets and so ends a word inside them. -/
def isFlowIndicator (c : Char) : Bool :=
  c == ',' || c == '[' || c == ']' || c == '{' || c == '}'

/-- Whether a plain scalar may begin with the character `c` before the text `r`. -/
def canStart (inFlow : Bool) (c : Char) (r : List Char) : Bool :=
  let reserved := "-?:,[]\x7b\x7d#&*!|>'\"%@\x60".toList
  !(isSpace c || reserved.contains c) ||
    (c == '-' && !(r.head?.any isBlank)) ||
    (!inFlow && (c == '?' || c == ':') && !startsSpace r)

/-- The word at the start of a text, and the rest. Inside brackets, a colon right before a bracket,
a comma or a question mark is an error. -/
def word (inFlow : Bool) : List Char → Option (List Char × List Char)
  | [] => some ([], [])
  | c :: r =>
    if isSpace c then some ([], c :: r)
    else if c == ':' then
      if inFlow && r.head?.any fun d ↦ d == '?' || isFlowIndicator d then none
      else if startsSpace r then some ([], c :: r)
      else (word inFlow r).map fun (w, s) ↦ (c :: w, s)
    else if inFlow && isFlowIndicator c then some ([], c :: r)
    else (word inFlow r).map fun (w, s) ↦ (c :: w, s)

/-- A plain scalar that was read. -/
structure Scanned where
  text : List Char
  cursor : Cursor
  /-- Whether the cursor has crossed a line break since the last word. -/
  isPastBreak : Bool
  deriving DecidableEq, Repr

/-- Reads on in a plain scalar: `text` is read already, and `gap` lies between it and the cursor.
`margin` is the least column of a further line. Each turn reads a word. -/
def scanFrom (inFlow : Bool) (margin : Int) : Nat → List Char → Gap → Cursor → Option Scanned
  | 0, _, _, _ => none
  | fuel + 1, text, gap, c => do
    if c.atDocumentLine || c.rest.head? = some '#' then return ⟨text, c, gap.isLines⟩
    let (w, r) ← word inFlow c.rest
    if w.isEmpty then return ⟨text, c, gap.isLines⟩
    let text := text ++ gap.text ++ w
    let m := c.mark.advance w.length
    let (gap, c) ← Gap.scan margin (.blanks []) m r
    if gap = .blanks [] then return ⟨text, c, false⟩
    if !inFlow && c.mark.column < margin then return ⟨text, c, gap.isLines⟩
    scanFrom inFlow margin fuel text gap c

def scan (inFlow : Bool) (margin : Int) (c : Cursor) : Option Scanned :=
  scanFrom inFlow margin (c.rest.length + 1) [] (.blanks []) c

end Conformance.Yaml.Plain
