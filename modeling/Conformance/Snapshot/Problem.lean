import Conformance.Json.Scan
import Conformance.Text.Quoted
/-!
# What can be wrong with a snapshot

A snapshot that is JSON so far may still not have the shape of a tally. The problem is then named in
full, with the line and the column up to which the text was read: lines count from one, columns count
the bytes read on the line.
-/

namespace Conformance.Snapshot

/-- What stands where something else was expected. -/
inductive Found where
  | null
  | boolean (b : Bool)
  | integer (i : Int)
  | real (isNegative : Bool) (magnitude : Binary64)
  | text (s : List Char)
  | list
  | object
  deriving DecidableEq, Repr

/-- What a snapshot has at a certain place. -/
inductive Expected where
  | count
  | text
  | list
  | tally
  | sample
  deriving DecidableEq, Repr

/-- A departure from the shape of a tally. -/
inductive Problem where
  | wrongType (found : Found) (expected : Expected)
  /-- A count below zero. -/
  | negativeCount (magnitude : Nat)
  /-- A list of fields with too few elements. -/
  | wrongLength (length : Nat) (expected : Expected)
  | missing (field : String)
  | duplicate (field : String)
  deriving DecidableEq, Repr

/-- Why a snapshot cannot be read. -/
inductive Failure where
  /-- The text ends where more was due. -/
  | truncated
  /-- The text is not JSON. -/
  | malformed
  /-- The text is not a tally. -/
  | misshapen (problem : Problem) (line column : Nat)
  deriving DecidableEq, Repr

def Found.describe : Found → String
  | .null => "null"
  | .boolean b => "boolean `" ++ (if b then "true" else "false") ++ "`"
  | .integer i => "integer `" ++ toString i ++ "`"
  | .real isNegative x =>
    "floating point `" ++ (if isNegative then "-" else "") ++
      String.ofList (Decimal.text .compact x) ++ "`"
  | .text s => "string " ++ Text.quoted (String.ofList s)
  | .list => "sequence"
  | .object => "map"

def Expected.describe : Expected → String
  | .count => "usize"
  | .text => "a string"
  | .list => "a sequence"
  | .tally => "struct ResultSet"
  | .sample => "struct FailureSample"

/-- The number of fields that a list of fields has. -/
def Expected.fieldCount : Expected → Nat
  | .tally => 5
  | .sample => 2
  | _ => 0

def Problem.describe : Problem → String
  | .wrongType found expected =>
    "invalid type: " ++ found.describe ++ ", expected " ++ expected.describe
  | .negativeCount n =>
    "invalid value: integer `-" ++ toString n ++ "`, expected " ++ Expected.count.describe
  | .wrongLength n expected =>
    "invalid length " ++ toString n ++ ", expected " ++ expected.describe ++ " with " ++
      toString expected.fieldCount ++ " elements"
  | .missing field => "missing field `" ++ field ++ "`"
  | .duplicate field => "duplicate field `" ++ field ++ "`"

/-- The line, and the bytes read on it, at the end of a text that was read. -/
def position (read : List Char) : Nat × Nat :=
  let lastLine := (read.reverse.takeWhile (· ≠ '\n'))
  (read.count '\n' + 1, Json.byteLength lastLine)

def Problem.message (p : Problem) (line column : Nat) : String :=
  p.describe ++ " at line " ++ toString line ++ " column " ++ toString column

end Conformance.Snapshot
