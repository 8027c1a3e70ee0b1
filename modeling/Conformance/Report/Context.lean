import Conformance.Path
import Conformance.Tally
/-!
# What reports share

The names that appear in report headings, and the one way in which a percentage is written. Every
view of a tally takes its counts and rates from here, so that no two views can disagree.
-/

namespace Conformance

/-- The names used in report headings. -/
structure ReportContext where
  suiteName : String
  /-- The short name of the executable under test. -/
  targetName : String
  deriving DecidableEq, Repr

/-- The context of a suite run against a target, which goes by the stem of its file name, or by its
whole path if it has no file name. -/
def ReportContext.ofTarget (suiteName : String) (target : Path) : ReportContext :=
  ⟨suiteName, (target.stem?.map String.ofList).getD target.text⟩

namespace Report

/-- A number of hundredths with its two decimals. -/
def hundredthsText (h : Nat) : String :=
  let frac := h % 100
  toString (h / 100) ++ "." ++ (if frac < 10 then "0" else "") ++ toString frac

/-- A count with the percentage it stands for. -/
def countText (count : UInt64) (rate : Binary64) : String :=
  toString count.toNat ++ " (" ++ hundredthsText rate.hundredths ++ "%)"

def passedText (t : Tally) : String := countText t.passed t.passRate

def failedText (t : Tally) : String := countText t.failed t.failRate

end Report

end Conformance
