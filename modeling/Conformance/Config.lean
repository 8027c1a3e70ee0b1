import Conformance.Tally
import Conformance.Time
import Conformance.Discovery
import Conformance.Text.Blank
import Conformance.Text.Quoted
import Conformance.Yaml.Scalar
/-!
# The configuration of a run

A configuration names the suite, says which files of the corpus are tests, how long a test may take
and how many failures are kept. The defaults describe Test262. A YAML document may override each
of the eight fields once; it is read entry by entry, and the first entry that is wrong decides the
error.
-/

namespace Conformance

/-- The configuration of a run. -/
structure Config where
  suiteName : String
  /-- Where the corpus is cloned from. -/
  repository : String
  testSubdir : String
  extension : String
  excludeMarker : String
  notExecutedMarker : String
  /-- The limit for one test in seconds. -/
  timeoutSecs : UInt64
  maxFailureSamples : UInt64
  deriving DecidableEq, Repr

namespace Config

/-- The configuration of a Test262 run. -/
def standard : Config where
  suiteName := "Test262"
  repository := "https://github.com/tc39/test262.git"
  testSubdir := "test"
  extension := "js"
  excludeMarker := "_FIXTURES"
  notExecutedMarker := "Swiftees: Loaded file"
  timeoutSecs := 5
  maxFailureSamples := defaultSampleLimit

/-- Which files count as tests. -/
def discoveryRules (c : Config) : DiscoveryRules :=
  ⟨c.testSubdir, c.extension, c.excludeMarker⟩

def timeout (c : Config) : Duration := .ofSecs c.timeoutSecs

/-! ## Fields -/

/-- The fields that hold a text. -/
inductive TextField where
  | suiteName
  | repository
  | testSubdir
  | extension
  | excludeMarker
  | notExecutedMarker
  deriving DecidableEq, Repr

/-- The fields that hold a number. -/
inductive NumberField where
  | timeoutSecs
  | maxFailureSamples
  deriving DecidableEq, Repr

inductive Field where
  | text (f : TextField)
  | number (f : NumberField)
  deriving DecidableEq, Repr

/-- All fields, in the order in which they are listed. -/
def Field.all : List Field :=
  [.text .suiteName, .text .repository, .text .testSubdir, .text .extension, .text .excludeMarker,
    .text .notExecutedMarker, .number .timeoutSecs, .number .maxFailureSamples]

def Field.key : Field → String
  | .text .suiteName => "suite_name"
  | .text .repository => "repository"
  | .text .testSubdir => "test_subdir"
  | .text .extension => "extension"
  | .text .excludeMarker => "exclude_marker"
  | .text .notExecutedMarker => "not_executed_marker"
  | .number .timeoutSecs => "timeout_secs"
  | .number .maxFailureSamples => "max_failure_samples"

def Field.ofKey? (key : String) : Option Field := Field.all.find? (·.key = key)

def setText (c : Config) (f : TextField) (s : String) : Config :=
  match f with
  | .suiteName => { c with suiteName := s }
  | .repository => { c with repository := s }
  | .testSubdir => { c with testSubdir := s }
  | .extension => { c with extension := s }
  | .excludeMarker => { c with excludeMarker := s }
  | .notExecutedMarker => { c with notExecutedMarker := s }

def setNumber (c : Config) (f : NumberField) (n : UInt64) : Config :=
  match f with
  | .timeoutSecs => { c with timeoutSecs := n }
  | .maxFailureSamples => { c with maxFailureSamples := n }

/-! ## Problems -/

/-- Why a value is not what was expected. -/
inductive Mismatch where
  /-- It is a scalar that denotes something else. -/
  | scalar (found : Yaml.Denotation)
  | sequence
  | mapping
  /-- It has a tag that does not fit its text. -/
  | badTag (text : String) (kind : Yaml.ScalarKind)
  deriving DecidableEq, Repr

/-- Why a value is not what was expected, whatever that was. -/
def Mismatch.ofShape : Yaml.Shape → Mismatch
  | .scalar tag style s =>
    match Yaml.scalarDenotation tag style s with
    | .ok d => .scalar d
    | .error kind => .badTag s kind
  | .sequence => .sequence
  | .mapping => .mapping

/-- A departure from the shape of a configuration. -/
inductive Problem where
  /-- The document is no mapping. -/
  | notMapping (mismatch : Mismatch)
  /-- A key is no scalar. -/
  | badKey (mismatch : Mismatch)
  | unknownKey (key : String)
  | duplicateKey (field : Field)
  | badValue (field : Field) (mismatch : Mismatch)
  /-- A limit of zero seconds, which every test would exceed. -/
  | zeroTimeout
  deriving DecidableEq, Repr

/-- Why a text gives no configuration. -/
inductive Failure where
  /-- The text is not one YAML document. -/
  | malformed
  /-- The document is no configuration. -/
  | misshapen (problem : Problem) (mark : Yaml.Mark)
  deriving DecidableEq, Repr

/-! ## Reading -/

/-- The word of 64 bits that a value denotes. -/
def word? : Yaml.Shape → Option UInt64
  | .scalar tag style s =>
    if Yaml.canBeNatural tag style then
      ((Yaml.natural? s.toList).filter (· < UInt64.size)).map UInt64.ofNat
    else none
  | .sequence | .mapping => none

/-- The configuration with one field set to a value of a document. -/
def setField (c : Config) (f : Field) (v : Yaml.Shape) : Except Problem Config :=
  match f with
  | .text t =>
    match v with
    | .scalar _ _ s => .ok (c.setText t s)
    | v => .error (.badValue f (.ofShape v))
  | .number n =>
    match word? v with
    | none => .error (.badValue f (.ofShape v))
    | some w => if n = .timeoutSecs ∧ w = 0 then .error .zeroTimeout else .ok (c.setNumber n w)

/-- The field that a key names. -/
def fieldOf : Yaml.Shape → Except Problem Field
  | .scalar _ _ key => ((Field.ofKey? key).map .ok).getD (.error (.unknownKey key))
  | v => .error (.badKey (.ofShape v))

/-- Where a problem lies within an entry of the mapping that begins at `m`. -/
def Problem.markIn (p : Problem) (m : Yaml.Mark) (entry : Yaml.Value × Yaml.Value) : Yaml.Mark :=
  match p with
  | .notMapping _ | .duplicateKey _ | .zeroTimeout => m
  | .badKey _ | .unknownKey _ => entry.1.mark
  | .badValue .. => entry.2.mark

/-- Takes one entry into account; `seen` are the fields that were set before. -/
def setEntry (c : Config) (seen : List Field) (entry : Yaml.Value × Yaml.Value) :
    Except Problem (Config × List Field) := do
  let f ← fieldOf entry.1.shape
  if f ∈ seen then .error (.duplicateKey f)
  else return (← c.setField f entry.2.shape, f :: seen)

/-- The configuration after further entries of the mapping that begins at `m`. -/
def setEntries (m : Yaml.Mark) (c : Config) (seen : List Field) :
    List (Yaml.Value × Yaml.Value) → Except Failure Config
  | [] => .ok c
  | e :: es =>
    match c.setEntry seen e with
    | .ok (c, seen) => setEntries m c seen es
    | .error p => .error (.misshapen p (p.markIn m e))

/-- The configuration of a mapping. -/
def ofEntries (m : Yaml.Mark) (entries : List (Yaml.Value × Yaml.Value)) :
    Except Failure Config :=
  setEntries m standard [] entries

/-- The configuration of a document. An absent value counts as no entries. -/
def ofDocument : Yaml.Document → Except Failure Config
  | .blank => .ok standard
  | .mapping m entries => ofEntries m entries
  | .single ⟨_, .scalar _ .plain ""⟩ => .ok standard
  | .single v => .error (.misshapen (.notMapping (.ofShape v.shape)) v.mark)

def ofText (s : String) : Except Failure Config :=
  if Text.isBlankText s then .ok standard
  else
    match Yaml.Document.ofText? s with
    | none => .error .malformed
    | some d => ofDocument d

/-! ## Texts -/

/-- The text of a real number: never an exponent, and always a point if it is finite. -/
def realText : Yaml.RealValue → String
  | .finite isNegative x =>
    (if isNegative then "-" else "") ++ String.ofList (Decimal.text .plain x)
  | .infinite isNegative => if isNegative then "-inf" else "inf"
  | .nan => "NaN"

/-- How a scalar is named. Integers past 64 bits are named with their width. -/
def describeScalar : Yaml.Denotation → String
  | .null => "unit value"
  | .boolean b => "boolean `" ++ (if b then "true" else "false") ++ "`"
  | .integer i =>
    "integer `" ++ toString i ++ "`" ++
      (if (UInt64.size : Int) ≤ i then " as u128" else if i < Int64.minValue.toInt then " as i128" else "")
  | .real x => "floating point `" ++ realText x ++ "`"
  | .text s => "string " ++ Text.quoted s

/-- How a kind of scalar is named. -/
def describeKind : Yaml.ScalarKind → String
  | .boolean => "a boolean"
  | .integer => "an integer"
  | .real => "a float"
  | .null => "null"

/-- How a mismatch is named where `expected` was due. -/
def Mismatch.describe (expected : String) : Mismatch → String
  | .scalar d => "invalid type: " ++ describeScalar d ++ ", expected " ++ expected
  | .sequence => "invalid type: sequence, expected " ++ expected
  | .mapping => "invalid type: map, expected " ++ expected
  | .badTag s kind =>
    "invalid value: string " ++ Text.quoted s ++ ", expected " ++ describeKind kind

def Field.expectation : Field → String
  | .text _ => "a string"
  | .number .timeoutSecs => "u64"
  | .number .maxFailureSamples => "usize"

def Problem.describe : Problem → String
  | .notMapping x => x.describe "struct HarnessConfig"
  | .badKey x => x.describe "field identifier"
  | .unknownKey key =>
    "unknown field `" ++ key ++ "`, expected one of " ++
      ", ".intercalate (Field.all.map fun f ↦ "`" ++ f.key ++ "`")
  | .duplicateKey f => "duplicate field `" ++ f.key ++ "`"
  | .badValue f x => f.key ++ ": " ++ x.describe f.expectation
  | .zeroTimeout => Field.key (.number .timeoutSecs) ++ " must be at least 1"

/-- How a place is named. The very beginning is not. -/
def placeText (m : Yaml.Mark) : String :=
  if m.line = 0 ∧ m.column = 0 then ""
  else " at line " ++ toString (m.line + 1) ++ " column " ++ toString (m.column + 1)

def Problem.message (p : Problem) (m : Yaml.Mark) : String := p.describe ++ placeText m

end Config

end Conformance
