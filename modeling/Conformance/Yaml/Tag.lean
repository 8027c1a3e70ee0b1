import Conformance.Json.Scan
import Conformance.Yaml.Cursor
/-!
# Tags, anchors and directives

A tag is written as a handle and a suffix, as a bare suffix, or verbatim between angle brackets. A
directive at the start of a document gives the version of YAML or says what a handle stands for.
-/

namespace Conformance.Yaml

/-- A tag as it is written. -/
structure TagText where
  /-- The handle; empty if the tag is verbatim. -/
  handle : String
  suffix : String
  deriving DecidableEq, Repr

inductive Directive where
  | version (major minor : Nat)
  /-- What a tag handle stands for. -/
  | handle (name expansion : String)
  deriving DecidableEq, Repr

namespace Tag

/-- Whether a character may be part of a tag. Commas and brackets may only where `isWide`. -/
def isUriChar (isWide : Bool) (c : Char) : Bool :=
  isNameChar c || ";/?:@&=+$.%!~*'()".toList.contains c ||
    (isWide && (c == ',' || c == '[' || c == ']'))

/-- The byte written as a percent sign and two hexadecimal digits at the start of a text. -/
def percentByte? : List Char → Option (Nat × List Char)
  | '%' :: a :: b :: r => do return (16 * (← Json.hexDigit? a) + (← Json.hexDigit? b), r)
  | _ => none

/-- The continuation bytes that a first byte asks for. -/
def continuations? (b : Nat) : Option Nat :=
  if b < 0x80 then some 0
  else if b / 0x20 = 6 then some 1
  else if b / 0x10 = 14 then some 2
  else if b / 8 = 30 then some 3
  else none

/-- The text after `n` escaped continuation bytes. -/
def skipContinuations : Nat → List Char → Option (List Char)
  | 0, cs => some cs
  | n + 1, cs => do
    let (b, r) ← percentByte? cs
    if b / 0x40 = 2 then skipContinuations n r else none

/-- The character written in escaped bytes at the start of a text. Characters past ASCII are only
told apart from ASCII ones. -/
def escapedChar? (cs : List Char) : Option (Char × List Char) := do
  let (b, r) ← percentByte? cs
  let n ← continuations? b
  return (if n = 0 then Char.ofNat b else '\uFFFD', ← skipContinuations n r)

/-- The run of tag characters at the start of a text with its escapes resolved, and the rest. Each
turn reads a character. -/
def uriFrom (isWide : Bool) : Nat → List Char → Option (List Char × List Char)
  | 0, _ => none
  | fuel + 1, cs =>
    match cs with
    | [] => some ([], [])
    | c :: r =>
      if !isUriChar isWide c then some ([], cs)
      else do
        let (d, r) ← if c == '%' then escapedChar? cs else some (c, r)
        let (ds, s) ← uriFrom isWide fuel r
        return (d :: ds, s)

/-- The run of tag characters at the cursor and the cursor past it. -/
def uri? (isWide : Bool) (c : Cursor) : Option (List Char × Cursor) := do
  let (cs, r) ← uriFrom isWide (c.rest.length + 1) c.rest
  return (cs, ⟨r, c.mark.advance (c.rest.length - r.length)⟩)

/-- What stands at the cursor after an exclamation mark: name characters, then perhaps another
exclamation mark. -/
def handle (c : Cursor) : List Char × Cursor :=
  let (name, c) := (c.advance 1).span isNameChar
  if c.rest.head? = some '!' then ('!' :: name ++ ['!'], c.advance 1) else ('!' :: name, c)

/-- Reads a verbatim tag, from its exclamation mark on. -/
def verbatim? (c : Cursor) : Option (TagText × Cursor) := do
  let (suffix, c) ← uri? true (c.advance 2)
  if suffix.isEmpty || c.rest.head? ≠ some '>' then none
  return (⟨"", String.ofList suffix⟩, c.advance 1)

/-- Reads a tag that is not verbatim. What looks like a handle but does not end in an exclamation
mark belongs to the suffix. A lone exclamation mark is a tag of its own. -/
def shorthand? (c : Cursor) : Option (TagText × Cursor) := do
  let (name, c) := handle c
  let (suffix, c) ← uri? false c
  if name.length > 1 && name.getLast? = some '!' then
    if suffix.isEmpty then none
    return (⟨String.ofList name, String.ofList suffix⟩, c)
  else
    let suffix := name.drop 1 ++ suffix
    return (if suffix.isEmpty then ⟨"", "!"⟩ else ⟨"!", String.ofList suffix⟩, c)

/-- Reads the tag at the cursor. A space must follow, or inside brackets a comma. -/
def scan? (inFlow : Bool) (c : Cursor) : Option (TagText × Cursor) := do
  let (tag, c) ← if (c.rest.drop 1).head? = some '<' then verbatim? c else shorthand? c
  if startsSpace c.rest || (inFlow && c.rest.head? = some ',') then return (tag, c) else none

/-- The handles that need no directive. -/
def standardHandles : List (String × String) :=
  [("!", "!"), ("!!", "tag:yaml.org,2002:")]

/-- The full text of a tag, if its handle stands for something. -/
def expand? (handles : List (String × String)) (tag : TagText) : Option String :=
  if tag.handle = "" then some tag.suffix
  else (handles.lookup tag.handle).map (· ++ tag.suffix)

end Tag

/-- Reads the name of the anchor or alias whose indicator is at the cursor. -/
def anchorName? (c : Cursor) : Option (String × Cursor) :=
  let (name, c) := (c.advance 1).span isNameChar
  let isEnded := startsSpace c.rest || c.rest.head?.any ("?:,]\x7d%@\x60".toList.contains ·)
  if name.isEmpty || !isEnded then none else some (String.ofList name, c)

namespace Directive

/-- Reads a part of a version number, of at most nine digits. -/
def number? (c : Cursor) : Option (Nat × Cursor) :=
  let (ds, c) := c.span Char.isDigit
  if ds.isEmpty || 9 < ds.length then none
  else some (ds.foldl (fun n d ↦ 10 * n + (d.toNat - '0'.toNat)) 0, c)

def version? (c : Cursor) : Option (Directive × Cursor) := do
  let (major, c) ← number? (c.skip isBlank)
  if c.rest.head? ≠ some '.' then none
  let (minor, c) ← number? (c.advance 1)
  return (.version major minor, c)

/-- Reads a handle and what it stands for. -/
def handle? (c : Cursor) : Option (Directive × Cursor) := do
  let c := c.skip isBlank
  if c.rest.head? ≠ some '!' then none
  let (name, c) := Tag.handle c
  if name.length > 1 && name.getLast? ≠ some '!' then none
  if !c.rest.head?.any isBlank then none
  let (expansion, c) ← Tag.uri? true (c.skip isBlank)
  if expansion.isEmpty || !startsSpace c.rest then none
  return (.handle (String.ofList name) (String.ofList expansion), c)

/-- Reads the directive at the cursor with its whole line. Other directives than the two known ones
are errors. -/
def scan? (c : Cursor) : Option (Directive × Cursor) := do
  let (name, c) := (c.advance 1).span isNameChar
  if !startsSpace c.rest then none
  let (directive, c) ←
    if name = "YAML".toList then version? c
    else if name = "TAG".toList then handle? c
    else none
  let c ← c.finishLine?
  return (directive, c.takeBreak.2)

end Directive

end Conformance.Yaml
