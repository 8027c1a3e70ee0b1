import Conformance.Json.Scan
import Conformance.Number.Decimal
import Conformance.Yaml.Document
/-!
# What scalars denote

A plain scalar without a tag denotes nothing, a truth value, a number or a text, by the look of it.
An integer has an optional sign and then decimal digits, or digits of another base after `0x`, `0o`
or `0b`. Decimal digits with a superfluous leading zero are no number at all. An integer that does
not fit into 128 bits is a real number if it is decimal, and a real number past the range of doubles
is a text.
-/

namespace Conformance.Yaml

/-- A real number as a double. -/
inductive RealValue where
  | finite (isNegative : Bool) (magnitude : Binary64)
  | infinite (isNegative : Bool)
  | nan
  deriving DecidableEq, Repr

/-- What a scalar denotes. -/
inductive Denotation where
  | null
  | boolean (b : Bool)
  | integer (i : Int)
  | real (x : RealValue)
  | text (s : String)
  deriving DecidableEq, Repr

/-! ## Integers -/

/-- The value of a digit of a base up to sixteen. -/
def digit? (base : Nat) (c : Char) : Option Nat := (Json.hexDigit? c).filter (· < base)

/-- The number that a run of digits denotes. There is at least one digit. -/
def digits? (base : Nat) : List Char → Option Nat
  | [] => none
  | cs => cs.foldlM (fun n c ↦ (digit? base c).map (base * n + ·)) 0

/-- Whether decimal digits begin with a zero that they do not need. -/
def hasLeadingZero (cs : List Char) : Bool := cs.head? = some '0' && 1 < cs.length

/-- The number that digits without a sign denote, in any of the four bases. -/
def number? (cs : List Char) : Option Nat :=
  match cs with
  | '0' :: 'x' :: ds => digits? 16 ds
  | '0' :: 'o' :: ds => digits? 8 ds
  | '0' :: 'b' :: ds => digits? 2 ds
  | ds => if hasLeadingZero ds then none else digits? 10 ds

/-- The natural number that a text with an optional plus sign denotes. -/
def natural? : List Char → Option Nat
  | '+' :: ds => number? ds
  | ds => number? ds

/-- The integer that a text denotes, if it fits into 128 bits, signed or unsigned. -/
def integer? : List Char → Option Int
  | '-' :: ds => ((number? ds).filter (· ≤ Nat.pow 2 127)).map (-·)
  | cs => ((natural? cs).filter (· < Nat.pow 2 128)).map (·)

/-! ## Real numbers -/

/-- The exponent at the end of a number, with its sign. -/
def exponent? : List Char → Option Int
  | '-' :: ds => (digits? 10 ds).map (-·)
  | '+' :: ds => (digits? 10 ds).map (·)
  | ds => (digits? 10 ds).map (·)

/-- The decimal that an unsigned text denotes: digits with at most one point among them, then
perhaps an exponent. -/
def decimal? (cs : List Char) : Option Decimal := do
  let whole := cs.takeWhile Char.isDigit
  let r := cs.dropWhile Char.isDigit
  let (frac, r) := match r with
    | '.' :: r => (r.takeWhile Char.isDigit, r.dropWhile Char.isDigit)
    | r => ([], r)
  let digits ← digits? 10 (whole ++ frac)
  let exponent ← match r with
    | [] => some 0
    | 'e' :: r => exponent? r
    | 'E' :: r => exponent? r
    | _ => none
  return ⟨digits, exponent - frac.length⟩

/-- The finite double that an unsigned text denotes. -/
def magnitude? (cs : List Char) : Option Binary64 :=
  ((decimal? cs).map Decimal.toBinary64).filter (!·.overflows)

/-- Whether a text is one of the spellings of infinity. -/
def isInfinity (s : List Char) : Bool :=
  [".inf", ".Inf", ".INF"].any (·.toList = s)

def real? (cs : List Char) : Option RealValue :=
  if [".nan", ".NaN", ".NAN"].any (·.toList = cs) then some .nan
  else
    match cs with
    | '-' :: r =>
      if isInfinity r then some (.infinite true) else (magnitude? r).map (.finite true)
    | '+' :: r =>
      if isInfinity r then some (.infinite false) else (magnitude? r).map (.finite false)
    | r => if isInfinity r then some (.infinite false) else (magnitude? r).map (.finite false)

/-! ## All scalars -/

/-- Whether a text is one of the spellings of nothing. -/
def isNull (s : String) : Bool := ["null", "Null", "NULL", "~"].contains s

def boolean? (s : String) : Option Bool :=
  if ["true", "True", "TRUE"].contains s then some true
  else if ["false", "False", "FALSE"].contains s then some false
  else none

/-- Whether a text is digits with a superfluous leading zero, perhaps after a sign. -/
def isPaddedNumber (cs : List Char) : Bool :=
  let ds := match cs with
    | '+' :: r => r
    | '-' :: r => r
    | r => r
  hasLeadingZero ds && ds.all Char.isDigit

/-- What a plain scalar without a tag denotes. -/
def denotation (s : String) : Denotation :=
  if s = "" || isNull s then .null
  else
    match boolean? s with
    | some b => .boolean b
    | none =>
      match integer? s.toList with
      | some i => .integer i
      | none =>
        match if isPaddedNumber s.toList then none else real? s.toList with
        | some x => .real x
        | none => .text s

/-- The kinds of scalar that a tag can ask for. -/
inductive ScalarKind where
  | boolean
  | integer
  | real
  | null
  deriving DecidableEq, Repr

def ScalarKind.ofTag? (tag : String) : Option ScalarKind :=
  if tag = "tag:yaml.org,2002:bool" then some .boolean
  else if tag = "tag:yaml.org,2002:int" then some .integer
  else if tag = "tag:yaml.org,2002:float" then some .real
  else if tag = "tag:yaml.org,2002:null" then some .null
  else none

/-- What a text denotes as a scalar of a given kind. -/
def ScalarKind.denotation? (kind : ScalarKind) (s : String) : Option Denotation :=
  match kind with
  | .boolean => (boolean? s).map .boolean
  | .integer => (integer? s.toList).map .integer
  | .real => (real? s.toList).map .real
  | .null => if isNull s then some .null else none

/-- Whether a scalar can be a natural number, as far as its style and tag go: a plain one can
whatever its tag, and a literal block if it has the tag of integers. -/
def canBeNatural (tag : Option String) : Style → Bool
  | .plain => true
  | .literal => tag.bind ScalarKind.ofTag? = some .integer
  | .quoted | .folded => false

/-- What a scalar denotes. A standard tag decides the kind, and the text may not be of that kind. A
tag of the document's own leaves a plain scalar as it is; all other scalars are texts. -/
def scalarDenotation (tag : Option String) (style : Style) (s : String) :
    Except ScalarKind Denotation :=
  match tag with
  | none => .ok (if style = .plain then denotation s else .text s)
  | some t =>
    match ScalarKind.ofTag? t with
    | some kind => ((kind.denotation? s).map .ok).getD (.error kind)
    | none => .ok (if style = .plain && t.startsWith "!" then denotation s else .text s)

end Conformance.Yaml
