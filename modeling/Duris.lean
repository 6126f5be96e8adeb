import Duris.Proofs.Coalesce
import Duris.Proofs.CollectorDueQueue
import Duris.Proofs.CollectorPrice
import Duris.Proofs.CommandFormats
import Duris.Proofs.CommandJournal
import Duris.Proofs.CurrencyDeltas
import Duris.Proofs.CurrencyRepository
import Duris.Proofs.CurrencyRuns
import Duris.Proofs.CustodyMutations
import Duris.Proofs.DeathCustody
import Duris.Proofs.EventFifo
import Duris.Proofs.FloorRuntime
import Duris.Proofs.ItemTransferCanonical
import Duris.Proofs.LoadTopology
import Duris.Proofs.MaintenanceScheduler
import Duris.Proofs.Materialization
import Duris.Proofs.OwnerBaseline
import Duris.Proofs.OwnershipMirror
import Duris.Proofs.PeriodicJobs
import Duris.Proofs.ShutdownHandshake
import Duris.Proofs.SnapshotRoundTrip
import Duris.Proofs.TargetTopology
import Duris.Proofs.TerminalFence
import Duris.Proofs.TransportResolution
import Duris.Proofs.WebsocketInflate
import Duris.Proofs.WorldStore
import Duris.Proofs.WriterBounds
import Duris.Proofs.WriterCustody
import Duris.Proofs.WriterOrder
