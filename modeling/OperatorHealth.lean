import OperatorHealth.Main
import OperatorHealth.Proofs.SharedPublisher.Accounting
import OperatorHealth.Proofs.SharedPublisher.Stored
import OperatorHealth.Proofs.SharedPublisher.Pending
import OperatorHealth.Proofs.SharedPublisher.Stopping
import OperatorHealth.Proofs.SharedPublisher.Repetition
import OperatorHealth.Proofs.SharedReporter.Agreement
import OperatorHealth.Proofs.LiveReporter.Convergence
import OperatorHealth.Proofs.LiveReporter.Idempotence
import OperatorHealth.Proofs.LiveReporter.Stored
import OperatorHealth.Proofs.Time.Calendar
import OperatorHealth.Proofs.Time.Timestamp
import OperatorHealth.Proofs.Json.RoundTrip
import OperatorHealth.Proofs.Resource.Codec
import OperatorHealth.Proofs.Store.Mirror
import OperatorHealth.Proofs.Resource.Reencoding
import OperatorHealth.Proofs.Workload.Snapshot
import OperatorHealth.Proofs.Daemon.Ownership
import OperatorHealth.Proofs.SharedQueue.Order
import OperatorHealth.Proofs.SharedPublisher.Fulfilment
import OperatorHealth.Proofs.Store.Failure
import OperatorHealth.Proofs.Store.Confinement
import OperatorHealth.Proofs.Time.Canonical
import OperatorHealth.Proofs.Resource.Grammar
import OperatorHealth.Proofs.Resource.Equality
import OperatorHealth.Proofs.Condition.History
import OperatorHealth.Proofs.SharedPublisher.Skipping
import OperatorHealth.Proofs.SharedPublisher.Reordering
import OperatorHealth.Proofs.Workload.Verdict
import OperatorHealth.Proofs.Workload.Lookup
import OperatorHealth.Proofs.Settings.Grammar
import OperatorHealth.Proofs.Workload.Spelling
import OperatorHealth.Proofs.Settings.Report
import OperatorHealth.Proofs.Settings.Override
import OperatorHealth.Proofs.SharedPublisher.LateStart
import OperatorHealth.Proofs.LiveReporter.LateStart
