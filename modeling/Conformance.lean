import Conformance.Main
import Conformance.Proofs.Machine.Host
import Conformance.Proofs.Program.ExitContract
import Conformance.Proofs.Executor.Decision
import Conformance.Proofs.Executor.GroupKill
import Conformance.Proofs.Snapshot.Acceptance
import Conformance.Proofs.Snapshot.Truncation
import Conformance.Proofs.Config.Numbers
import Conformance.Proofs.Config.RoundTrip
import Conformance.Proofs.Harness.Endurance
import Conformance.Proofs.Harness.Lifecycle
import Conformance.Proofs.Discovery.Exact
import Conformance.Proofs.Discovery.FileName
import Conformance.Proofs.Discovery.Relocation
import Conformance.Proofs.Outcome.Details
import Conformance.Proofs.Outcome.Judgement
import Conformance.Proofs.Outcome.TimeLimit
import Conformance.Proofs.Report.Bands
import Conformance.Proofs.Report.Colours
import Conformance.Proofs.Report.Failures
import Conformance.Proofs.Report.Figures
import Conformance.Proofs.Report.Percentages
import Conformance.Proofs.Tally.Resumption
import Conformance.Proofs.Text.Markers
