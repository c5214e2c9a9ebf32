import PerfReport.Log
import PerfReport.Main
import PerfReport.Proofs.Aggregate.Pooled
import PerfReport.Proofs.Aggregate.Reachable
import PerfReport.Proofs.Archive.Cache
import PerfReport.Proofs.Cli.Concatenation
import PerfReport.Proofs.Storage.Interchange
import PerfReport.Proofs.Report.Validated
import PerfReport.Proofs.Cli.Archiving
import PerfReport.Proofs.Number.Numeral
import PerfReport.Proofs.Cli.Reported
import PerfReport.Proofs.Cli.Trace
import PerfReport.Proofs.Cli.Shown
import PerfReport.Proofs.Aggregate.Atomic
import PerfReport.Proofs.Aggregate.Iterated
import PerfReport.Proofs.Aggregate.Range
import PerfReport.Proofs.Reading.Bounded
import PerfReport.Proofs.Snapshot.Canonical
import PerfReport.Proofs.Snapshot.Reserved
import PerfReport.Proofs.Report.Summary
import PerfReport.Proofs.Report.Pairs
import PerfReport.Proofs.Report.Averaged
import PerfReport.Proofs.Aggregate.Entered
import PerfReport.Proofs.Aggregate.Balanced
import PerfReport.Proofs.Cli.Single
import PerfReport.Proofs.Config.Saved
