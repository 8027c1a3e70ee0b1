import Conformance.Report.Context
import Conformance.Report.Styled
import Conformance.Text.Upper
/-!
# The console summary

The summary printed at the end of a run: a title, the counts with their percentages, and the first
few retained failures.
-/

namespace Conformance.Report.Console

/-- How many failures the console shows. -/
def failureLimit : Nat := 10

/-- The rule between the parts of the summary. -/
def banner : String := String.ofList (List.replicate 60 '=')

def failureLines (f : FailureSample) : List Piece :=
  .line ("  • " ++ f.test) ::
    if f.error = "" then [] else [.line ("    Error: " ++ f.error)]

/-- The block of failures, if there are any. -/
def failureBlock (failures : List FailureSample) : List Piece :=
  if failures = [] then []
  else
    let shown := failures.take failureLimit
    [.line "",
      .line ("First " ++ toString shown.length ++ " of " ++ toString failures.length ++
        " recorded failures:")] ++ shown.flatMap failureLines

/-- The title and the counts, with a notice for an empty run. -/
def countPieces (t : Tally) (ctx : ReportContext) : List Piece :=
  [.line "", .line banner, .style .yellow true, .line (Text.upper ctx.suiteName ++ " RESULTS"),
    .reset, .line banner] ++
  (if t.total = 0 then [.style .red false, .line "✗ No tests were run", .reset] else []) ++
  [.line ("Total tests:   " ++ toString t.total.toNat),
    .style .green false, .line ("Passed:        " ++ passedText t),
    .style .red false, .line ("Failed:        " ++ failedText t), .reset, .line banner]

def pieces (t : Tally) (ctx : ReportContext) : List Piece :=
  countPieces t ctx ++ failureBlock t.failures.toList ++ [.line ""]

/-- The summary as text, with or without colours. -/
def render (colours : Bool) (t : Tally) (ctx : ReportContext) : String :=
  Piece.render colours (pieces t ctx)

end Conformance.Report.Console
