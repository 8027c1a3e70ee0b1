import Conformance.Number.Decimal
/-!
# Reading JSON from left to right

JSON is read in one pass, and the first problem met from the left decides: the text *ends* where more
was due, or it is *malformed*. A reader takes the characters still to be read and gives what it
found together with the shorter rest, so that every loop over a text ends because the text does.

Reading and skipping are different. A string that is read must have well-paired surrogate escapes,
and a number that is read must lie in the range of doubles; one that is skipped must only look like
JSON.
-/

namespace Conformance.Json

/-- Why a text cannot be read as JSON. -/
inductive Failure where
  /-- The text ends where more was due. -/
  | truncated
  /-- The text is not JSON. -/
  | malformed
  deriving DecidableEq, Repr

/-- A proper remainder of a text. -/
abbrev Rest (cs : List Char) := { r : List Char // r.length < cs.length }

/-- A remainder of a remainder. -/
def Rest.trans {cs : List Char} (r : Rest cs) (s : Rest r.1) : Rest cs :=
  ⟨s.1, Nat.lt_trans s.2 r.2⟩

/-- A remainder of a text with one more character in front. -/
def Rest.cons {cs : List Char} (c : Char) (r : Rest cs) : Rest (c :: cs) :=
  ⟨r.1, Nat.lt_succ_of_lt r.2⟩

/-- The rest after the first character. -/
def Rest.tail (c : Char) (cs : List Char) : Rest (c :: cs) :=
  ⟨cs, Nat.lt_succ_self _⟩

/-- A remainder of a text, perhaps all of it. -/
abbrev Tail (cs : List Char) := { r : List Char // r.length ≤ cs.length }

/-- All of a text. -/
def Tail.whole (cs : List Char) : Tail cs := ⟨cs, Nat.le_refl _⟩

/-- A proper remainder among all remainders. -/
def Rest.toTail {cs : List Char} (r : Rest cs) : Tail cs := ⟨r.1, Nat.le_of_lt r.2⟩

/-- Whether a character is JSON white space. -/
def isSpace (c : Char) : Bool :=
  c == ' ' || c == '\n' || c == '\t' || c == '\r'

/-- A text without its leading white space. -/
def skipSpace (cs : List Char) : List Char := cs.dropWhile isSpace

theorem length_dropWhile_le {α : Type} (p : α → Bool) (xs : List α) :
    (xs.dropWhile p).length ≤ xs.length :=
  (List.dropWhile_sublist p).length_le

theorem length_skipSpace_le (cs : List Char) : (skipSpace cs).length ≤ cs.length :=
  length_dropWhile_le _ _

/-- What follows a character behind leading white space is a proper remainder. -/
theorem length_lt_of_skipSpace {cs r : List Char} {c : Char} (h : skipSpace cs = c :: r) :
    r.length < cs.length := by
  have := length_skipSpace_le cs
  rw [h] at this
  exact this

/-- A remainder of a proper remainder. -/
def Rest.within {cs r : List Char} (rest : Rest r) (h : r.length < cs.length) : Rest cs :=
  ⟨rest.1, Nat.lt_trans rest.2 h⟩

/-- A remainder of a text that is read after its leading white space. -/
def Rest.ofSkipSpace {cs : List Char} (r : Rest (skipSpace cs)) : Rest cs :=
  ⟨r.1, Nat.lt_of_lt_of_le r.2 (length_skipSpace_le cs)⟩

/-! ## Words -/

/-- The rest of a text after the given characters. -/
def word : List Char → (cs : List Char) → Except Failure (Tail cs)
  | [], cs => .ok (.whole cs)
  | _ :: _, [] => .error .truncated
  | w :: ws, c :: cs =>
    if w = c then (word ws cs).map fun r ↦ ⟨r.1, Nat.le_succ_of_le r.2⟩ else .error .malformed

/-! ## Strings -/

def hexDigit? (c : Char) : Option Nat :=
  if '0' ≤ c ∧ c ≤ '9' then some (c.toNat - 48)
  else if 'a' ≤ c ∧ c ≤ 'f' then some (c.toNat - 87)
  else if 'A' ≤ c ∧ c ≤ 'F' then some (c.toNat - 55)
  else none

/-- The number of bytes of a text. -/
def byteLength (cs : List Char) : Nat := cs.foldr (fun c n ↦ c.utf8Size + n) 0

/-- Four hexadecimal digits. The text is truncated if fewer than four bytes are left, whatever they
are. -/
def hex4 (cs : List Char) : Except Failure (Nat × Rest cs) :=
  match cs with
  | a :: b :: c :: d :: r =>
    match hexDigit? a, hexDigit? b, hexDigit? c, hexDigit? d with
    | some a, some b, some c, some d =>
      .ok (((a * 16 + b) * 16 + c) * 16 + d, ⟨r, by simp only [List.length_cons]; omega⟩)
    | _, _, _, _ => .error .malformed
  | cs => if byteLength cs < 4 then .error .truncated else .error .malformed

/-- The character after a backslash that stands for one character, if it is one of those. -/
def shortEscape? (c : Char) : Option Char :=
  match c with
  | '"' => some '"'
  | '\\' => some '\\'
  | '/' => some '/'
  | 'b' => some '\x08'
  | 'f' => some '\x0c'
  | 'n' => some '\n'
  | 'r' => some '\r'
  | 't' => some '\t'
  | _ => none

/-- Whether a code unit opens a surrogate pair. -/
def isHighSurrogate (n : Nat) : Bool := 0xD800 ≤ n && n ≤ 0xDBFF

/-- Whether a code unit closes a surrogate pair. -/
def isLowSurrogate (n : Nat) : Bool := 0xDC00 ≤ n && n ≤ 0xDFFF

/-- The second half of a surrogate pair, with the backslash that introduces it. -/
def lowSurrogate (cs : List Char) : Except Failure (Nat × Rest cs) :=
  match cs with
  | [] => .error .truncated
  | '\\' :: [] => .error .truncated
  | '\\' :: 'u' :: r => do
    let (n, rest) ← hex4 r
    if isLowSurrogate n then .ok (n, (rest.cons 'u').cons '\\') else .error .malformed
  | _ :: _ => .error .malformed

/-- The character of a numeric escape, read after its `u`. -/
def numericEscape (cs : List Char) : Except Failure (Char × Rest cs) := do
  let (n, rest) ← hex4 cs
  if isLowSurrogate n then .error .malformed
  else if isHighSurrogate n then
    let (m, rest') ← lowSurrogate rest.1
    .ok (Char.ofNat (0x10000 + (n - 0xD800) * 0x400 + (m - 0xDC00)), rest.trans rest')
  else .ok (Char.ofNat n, rest)

/-- The character of an escape, read after its backslash. -/
def escape (cs : List Char) : Except Failure (Char × Rest cs) :=
  match cs with
  | [] => .error .truncated
  | c :: r =>
    match shortEscape? c with
    | some x => .ok (x, .tail c r)
    | none =>
      if c = 'u' then (numericEscape r).map fun (x, rest) ↦ (x, rest.cons c)
      else .error .malformed

/-- The rest of an escape that is skipped: surrogates are not looked at. -/
def skipEscape (cs : List Char) : Except Failure (Rest cs) :=
  match cs with
  | [] => .error .truncated
  | c :: r =>
    if (shortEscape? c).isSome then .ok (.tail c r)
    else if c = 'u' then (hex4 r).map fun (_, rest) ↦ rest.cons c
    else .error .malformed

/-- A string, read after its opening quote. -/
def stringBody (cs : List Char) : Except Failure (List Char × Rest cs) :=
  match cs with
  | [] => .error .truncated
  | c :: r =>
    if c = '"' then .ok ([], .tail c r)
    else if c = '\\' then do
      let (x, rest) ← escape r
      let (s, rest') ← stringBody rest.1
      return (x :: s, (rest.trans rest').cons c)
    else if c.toNat < 0x20 then .error .malformed
    else do
      let (s, rest) ← stringBody r
      return (c :: s, rest.cons c)
termination_by cs.length
decreasing_by
  · have := rest.2; simp only [List.length_cons]; omega
  · simp

/-- The rest after a string that is skipped, from behind its opening quote. -/
def skipString (cs : List Char) : Except Failure (Rest cs) :=
  match cs with
  | [] => .error .truncated
  | c :: r =>
    if c = '"' then .ok (.tail c r)
    else if c = '\\' then do
      let rest ← skipEscape r
      let rest' ← skipString rest.1
      return (rest.trans rest').cons c
    else if c.toNat < 0x20 then .error .malformed
    else do
      let rest ← skipString r
      return rest.cons c
termination_by cs.length
decreasing_by
  · have := rest.2; simp only [List.length_cons]; omega
  · simp

/-! ## Numbers -/

def isDigit (c : Char) : Bool := '0' ≤ c && c ≤ '9'

/-- A number as it is spelled, without its sign. -/
structure Numeral where
  /-- The digits before the point. -/
  whole : List Char
  /-- The digits after the point, if there is one. -/
  fraction : Option (List Char)
  /-- The sign and digits of the exponent, if there is one. -/
  exponent : Option (Bool × List Char)
  deriving DecidableEq, Repr

/-- At least one digit. What follows none depends on whether the text ends there: `atEnd` says. -/
def digits (atEnd : Failure) (cs : List Char) : Except Failure (List Char × Rest cs) :=
  match cs with
  | [] => .error atEnd
  | c :: r =>
    if isDigit c then
      .ok (c :: r.takeWhile isDigit,
        ⟨r.dropWhile isDigit, Nat.lt_succ_of_le (length_dropWhile_le _ _)⟩)
    else .error .malformed

/-- The digits before the point: a leading zero stands alone. -/
def wholeDigits (atEnd : Failure) (cs : List Char) : Except Failure (List Char × Rest cs) := do
  let (ds, rest) ← digits atEnd cs
  if ds.head? = some '0' ∧ ds.length ≠ 1 then .error .malformed else .ok (ds, rest)

/-- The exponent part of a numeral, if the text goes on with one. -/
def exponentPart (atEnd : Failure) (cs : List Char) :
    Except Failure (Option (Bool × List Char) × Tail cs) :=
  match cs with
  | c :: r =>
    if c = 'e' ∨ c = 'E' then
      match r with
      | '+' :: r' => (digits atEnd r').map fun (ds, rest) ↦
          (some (false, ds), ((rest.cons '+').cons c).toTail)
      | '-' :: r' => (digits atEnd r').map fun (ds, rest) ↦
          (some (true, ds), ((rest.cons '-').cons c).toTail)
      | r' => (digits atEnd r').map fun (ds, rest) ↦ (some (false, ds), (rest.cons c).toTail)
    else .ok (none, .whole (c :: r))
  | [] => .ok (none, .whole [])

/-- The fraction part of a numeral, if the text goes on with one. -/
def fractionPart (atEnd : Failure) (cs : List Char) :
    Except Failure (Option (List Char) × Tail cs) :=
  match cs with
  | '.' :: r => (digits atEnd r).map fun (ds, rest) ↦
      (some ds, (rest.cons '.').toTail)
  | cs => .ok (none, .whole cs)

/-- A numeral without sign. -/
def numeral (atEnd : Failure) (cs : List Char) : Except Failure (Numeral × Rest cs) := do
  let (whole, rest) ← wholeDigits atEnd cs
  let (fraction, rest') ← fractionPart atEnd rest.1
  let (exponent, rest'') ← exponentPart atEnd rest'.1
  return (⟨whole, fraction, exponent⟩,
    ⟨rest''.1, by have := rest.2; have := rest'.2; have := rest''.2; omega⟩)

def skipNumeral (cs : List Char) : Except Failure (Rest cs) :=
  (numeral .malformed cs).map Prod.snd

/-! ### Values of numerals -/

/-- A number that was read. -/
inductive Number where
  /-- A non-negative integer of 64 bits. -/
  | natural (n : Nat)
  /-- A negative integer of 64 bits. -/
  | negative (n : Nat)
  /-- Any other number, a sign and a double. -/
  | real (isNegative : Bool) (magnitude : Binary64)
  deriving DecidableEq, Repr

def digitValue (c : Char) : Nat := c.toNat - 48

def digitsValue (ds : List Char) : Nat := ds.foldl (fun n c ↦ n * 10 + digitValue c) 0

/-- The digits of a number are gathered in a 64-bit significand: each digit that still fits is
appended, and from the first one that does not on they are left aside. Gives the significand and
the number of digits left aside. -/
def gather (significand : Nat) : List Char → Nat × Nat
  | [] => (significand, 0)
  | d :: ds =>
    let next := significand * 10 + digitValue d
    if next < UInt64.size then gather next ds else (significand, ds.length + 1)

/-- A double scaled by a power of ten: one multiplication or division by a power up to `10 ^ 308`,
after as many divisions by `10 ^ 308` as it takes. Four of those reach zero from any significand.
Gives nothing if the result is past the largest double. -/
def scale (x : Binary64) (e : Int) : Option Binary64 :=
  if 0 ≤ e then
    if x.significand = 0 then some x
    else if 308 < e then none
    else
      let y := x.mul (.ofNat (Nat.pow 10 e.toNat))
      if y.overflows then none else some y
  else
    let k := (-e).toNat
    let blocks := (k - 1) / 308
    let y := (List.range (min blocks 4)).foldl (fun y _ ↦ y.div (.ofNat (Nat.pow 10 308))) x
    if 4 < blocks then some .zero else some (y.div (.ofNat (Nat.pow 10 (k - 308 * blocks))))

/-- The exponent written in a numeral. One beyond 32 bits counts as the greatest of its sign. -/
def writtenExponent (e : Option (Bool × List Char)) : Int :=
  match e with
  | none => 0
  | some (isNegative, ds) =>
    let n := min (digitsValue ds) 0x80000000
    if isNegative then -n else n

/-- The value of a numeral with its sign, if it lies in the range of doubles. -/
def Numeral.value? (isNegative : Bool) (n : Numeral) : Option Number :=
  let (significand, dropped) := gather 0 n.whole
  let isInteger := n.fraction.isNone && n.exponent.isNone
  if isInteger ∧ dropped = 0 ∧ !isNegative then some (.natural significand)
  else if isInteger ∧ dropped = 0 ∧ 1 ≤ significand ∧ significand ≤ 0x8000000000000000 then
    some (.negative significand)
  else
    let fraction := n.fraction.getD []
    let (significand', dropped') := gather significand fraction
    let e : Int := dropped - (fraction.length - dropped' : Nat) + writtenExponent n.exponent
    (scale (.ofNat significand') e).map (.real isNegative)

/-- A number, read from its first character on. -/
def number (cs : List Char) : Except Failure (Number × Rest cs) :=
  match cs with
  | '-' :: r => do
    let (n, rest) ← numeral .truncated r
    match n.value? true with
    | some v => .ok (v, rest.cons '-')
    | none => .error .malformed
  | cs => do
    let (n, rest) ← numeral .truncated cs
    match n.value? false with
    | some v => .ok (v, rest)
    | none => .error .malformed

end Conformance.Json
