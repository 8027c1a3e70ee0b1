import Conformance.Json.Scan
import Conformance.Yaml.Gap
/-!
# Quoted scalars

Between single quotes a quote is written twice and nothing else is special. Between double quotes a
backslash begins an escape; before a line break it joins the lines without a space. Line breaks are
folded as between plain words.
-/

namespace Conformance.Yaml.Quoted

/-- What a one-letter escape stands for. -/
def letterEscape? : Char → Option Char
  | '0' => some '\x00'
  | 'a' => some '\x07'
  | 'b' => some '\x08'
  | 't' => some '\t'
  | '\t' => some '\t'
  | 'n' => some '\n'
  | 'v' => some '\x0b'
  | 'f' => some '\x0c'
  | 'r' => some '\r'
  | 'e' => some '\x1b'
  | ' ' => some ' '
  | '"' => some '"'
  | '/' => some '/'
  | '\\' => some '\\'
  | 'N' => some '\u0085'
  | '_' => some '\u00a0'
  | 'L' => some '\u2028'
  | 'P' => some '\u2029'
  | _ => none

/-- How many hexadecimal digits follow the letter of a code point escape. -/
def codeWidth? : Char → Option Nat
  | 'x' => some 2
  | 'u' => some 4
  | 'U' => some 8
  | _ => none

/-- The number written with exactly `n` hexadecimal digits at the start of a text. -/
def hexNumber (n : Nat) (cs : List Char) : Option Nat :=
  if (cs.take n).length = n then
    (cs.take n).foldlM (fun value c ↦ (Json.hexDigit? c).map (16 * value + ·)) 0
  else none

/-- The character that an escape stands for, read after its backslash, and the escape's length. -/
def escape? : List Char → Option (Char × Nat)
  | [] => none
  | c :: r =>
    match letterEscape? c with
    | some d => some (d, 1)
    | none => do
      let width ← codeWidth? c
      let value ← hexNumber width r
      if h : value.isValidChar then some (Char.ofNatAux value h, width + 1) else none

/-- What ends a word of a quoted scalar. -/
inductive Stop where
  /-- The closing quote. -/
  | quote
  /-- A blank or a line break, or the end of the text. -/
  | space
  /-- A line break with a backslash before it. -/
  | joinedLine
  deriving DecidableEq, Repr

def singleWord (m : Mark) : List Char → List Char × Stop × Cursor
  | [] => ([], .space, ⟨[], m⟩)
  | '\'' :: '\'' :: r =>
    let (w, stop, c) := singleWord (m.advance 2) r
    ('\'' :: w, stop, c)
  | c :: r =>
    if c == '\'' then ([], .quote, ⟨c :: r, m⟩)
    else if isSpace c then ([], .space, ⟨c :: r, m⟩)
    else
      let (w, stop, d) := singleWord (m.advance 1) r
      (c :: w, stop, d)

def doubleWord : Nat → Cursor → Option (List Char × Stop × Cursor)
  | 0, _ => none
  | fuel + 1, c =>
    match c.rest with
    | [] => some ([], .space, c)
    | d :: r =>
      if d == '"' then some ([], .quote, c)
      else if isSpace d then some ([], .space, c)
      else if d == '\\' then
        if r.head?.any isBreak then some ([], .joinedLine, (c.advance 1).takeBreak.2)
        else do
          let (e, n) ← escape? r
          let (w, stop, c) ← doubleWord fuel (c.advance (n + 1))
          return (e :: w, stop, c)
      else do
        let (w, stop, c) ← doubleWord fuel (c.advance 1)
        return (d :: w, stop, c)

/-- The word at the cursor, of a scalar in the given quotes. -/
def word (isSingle : Bool) (c : Cursor) : Option (List Char × Stop × Cursor) :=
  if isSingle then some (singleWord c.mark c.rest) else doubleWord (c.rest.length + 1) c

/-- Reads on in a quoted scalar, whose text so far is `text`, to past its closing quote. Each turn
reads a word and the gap after it. -/
def scanFrom (isSingle : Bool) : Nat → List Char → Cursor → Option (List Char × Cursor)
  | 0, _, _ => none
  | fuel + 1, text, c => do
    if c.atDocumentLine || c.rest.isEmpty then none
    let (w, stop, c) ← word isSingle c
    let text := text ++ w
    let gap := if stop = .joinedLine then Gap.lines none [] else .blanks []
    if c.rest.head? = some (if isSingle then '\'' else '"') then return (text, c.advance 1)
    let (gap, c) ← Gap.scan 0 gap c.mark c.rest
    scanFrom isSingle fuel (text ++ gap.text) c

/-- Reads the quoted scalar whose opening quote is at the cursor. -/
def scan (isSingle : Bool) (c : Cursor) : Option (List Char × Cursor) :=
  scanFrom isSingle (c.rest.length + 1) [] (c.advance 1)

end Conformance.Yaml.Quoted
