import Conformance.Report.Context
/-!
# The review summary

A short markdown text for review comments: a heading whose marker tells how the run went, a table of
counts, and the names of the first failures.
-/

namespace Conformance.Report.Summary

/-- How many failures the summary lists. -/
def failureLimit : Nat := 5

/-- How well a run went. -/
inductive Band where
  | good
  | middling
  | poor
  deriving DecidableEq, Repr

/-- The band of a pass rate: from ninety percent good, from fifty middling. -/
def Band.ofRate (rate : Binary64) : Band :=
  if rate.atLeast 90 then .good else if rate.atLeast 50 then .middling else .poor

/-- The marker of a band in the heading. -/
def Band.marker : Band → String
  | .good => "🎉"
  | .middling => "📊"
  | .poor => "🔧"

/-- The heading, with a warning for an empty run. -/
def heading (t : Tally) (suiteName : String) : List String :=
  if t.total = 0 then ["## ⚠️ " ++ suiteName ++ " Results", "", "No tests were run."]
  else ["## " ++ (Band.ofRate t.passRate).marker ++ " " ++ suiteName ++ " Results"]

def table (t : Tally) : List String :=
  ["", "| Metric | Value |", "|--------|-------|",
    "| **Total Tests** | " ++ toString t.total.toNat ++ " |",
    "| **Passed** | " ++ passedText t ++ " |",
    "| **Failed** | " ++ failedText t ++ " |"]

/-- Whether failures are listed: when the pass rate is below one hundred and some are retained. -/
def listsFailures (t : Tally) : Bool :=
  !t.passRate.atLeast 100 && !t.failures.isEmpty

/-- The list of failures. -/
def failureSection (t : Tally) : List String :=
  if listsFailures t then
    ["", "### Sample Failures (first " ++ toString failureLimit ++ ")", ""] ++
      (t.failures.toList.take failureLimit).map fun f ↦
        "- `" ++ f.test ++ "`"
  else []

/-- The closing note. -/
def footer (targetName : String) : String :=
  "*This test suite is expected to have failures as " ++ targetName ++
    " is under active development.*"

/-- The summary of a tally. Every line but the last ends in a line feed. -/
def render (t : Tally) (ctx : ReportContext) : String :=
  let lines := heading t ctx.suiteName ++ table t ++ failureSection t ++ ["", "---"]
  String.join (lines.map (· ++ "\n")) ++ footer ctx.targetName

end Conformance.Report.Summary
