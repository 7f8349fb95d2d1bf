import FleetStore.Json.Reader
import FleetStore.Main
import FleetStore.Proofs.Binding.Literals
import FleetStore.Proofs.Dispatch.Counting
import FleetStore.Proofs.Queued.Accepted
import FleetStore.Proofs.Queued.Barrier
import FleetStore.Proofs.Replay.Forecast
import FleetStore.Proofs.Store.Circles
import FleetStore.Proofs.Store.Copies
import FleetStore.Proofs.Store.Selected
import FleetStore.Proofs.Table.Coherence
import FleetStore.Store.Samples
import FleetStore.Proofs.Language.Writing
import FleetStore.Proofs.Language.Lookups
import FleetStore.Proofs.Store.Addressed
import FleetStore.Proofs.Store.Conflicts
import FleetStore.Proofs.Store.Answered
import FleetStore.Proofs.Store.Windows
import FleetStore.Proofs.Store.Purged
import FleetStore.Proofs.Store.Repeated
import FleetStore.Proofs.Value.RoundTrip
import FleetStore.Proofs.Store.Boundaries
import FleetStore.Proofs.Config.Expansion
import FleetStore.Proofs.Store.Cursors
import FleetStore.Proofs.Store.Listeners
import FleetStore.Proofs.Language.BareWords
