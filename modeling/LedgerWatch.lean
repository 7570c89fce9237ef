import LedgerWatch.Fixture
import LedgerWatch.Settings.Telemetry
import LedgerWatch.Rehearsal.Batches
import LedgerWatch.Rehearsal.Statuses
import LedgerWatch.Rehearsal.Events
import LedgerWatch.Rehearsal.Listeners
import LedgerWatch.Rehearsal.Client.Move
import LedgerWatch.Proofs.Codec
import LedgerWatch.Proofs.Ledger.Batches
import LedgerWatch.Proofs.Ledger.Reassembly
import LedgerWatch.Proofs.Merkle
import LedgerWatch.Proofs.OutputProof
import LedgerWatch.Proofs.Mining.Seal
import LedgerWatch.Proofs.Mining.Range
import LedgerWatch.Proofs.Mining.Shared
import LedgerWatch.Proofs.Mining.Outcome
import LedgerWatch.Proofs.Mining.Refresh
import LedgerWatch.Proofs.Notifier
import LedgerWatch.Proofs.Acceptance.Race
import LedgerWatch.Proofs.Status.Advance
import LedgerWatch.Proofs.Acceptance.Finality
import LedgerWatch.Proofs.Acceptance.Callbacks
import LedgerWatch.Proofs.Ledger.Continued
import LedgerWatch.Proofs.Ledger.Output
import LedgerWatch.Proofs.Ledger.Verified
import LedgerWatch.Proofs.Ledger.Identity
import LedgerWatch.Proofs.Feed
import LedgerWatch.Proofs.Status.Refusal
import LedgerWatch.Proofs.Status.Listener
import LedgerWatch.Proofs.Status.Version
import LedgerWatch.Proofs.Ledger.Honest
import LedgerWatch.Proofs.Ledger.Faults
import LedgerWatch.Proofs.Ledger.Agreement
import LedgerWatch.Proofs.Fixture
import LedgerWatch.Proofs.Notifier.Bookkeeping
import LedgerWatch.Proofs.Status.Content
import LedgerWatch.Proofs.Codec.Damaged
import LedgerWatch.Proofs.Event.Snapshot
import LedgerWatch.Proofs.Status.Hooks
import LedgerWatch.Proofs.Ledger.Enrichment
import LedgerWatch.Proofs.Acceptance.Moments
import LedgerWatch.Proofs.Feed.Stopping
import LedgerWatch.Proofs.Merkle.Height
import LedgerWatch.Proofs.Merkle.Leaves
import LedgerWatch.Proofs.Event.Delivery
import LedgerWatch.Proofs.BindAddress
import LedgerWatch.Proofs.Mining.Trials
import LedgerWatch.Proofs.Notifier.Waits
