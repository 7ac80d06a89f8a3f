import GroupStore.Statement.Draft
import GroupStore.Scenario
import GroupStore.Main
import GroupStore.Proofs.ConfirmRace
import GroupStore.Proofs.KeyedStore
import GroupStore.Proofs.Agreement
import GroupStore.Proofs.ReadBack
import GroupStore.Proofs.World
import GroupStore.Proofs.Versions
import GroupStore.Proofs.Isolation
import GroupStore.Proofs.Confirmation
import GroupStore.Proofs.Retry
import GroupStore.Proofs.Labels
import GroupStore.Proofs.Ownership
import GroupStore.Proofs.Faults
import GroupStore.Proofs.Restart
import GroupStore.Proofs.Reports
import GroupStore.Proofs.Disclosure
import GroupStore.Proofs.Conduct
import GroupStore.Proofs.Sqlite.Refused
import GroupStore.Proofs.RoundTrip
import GroupStore.Proofs.Sqlite.Lifetime
import GroupStore.Proofs.Sqlite.PointDelete
import GroupStore.Proofs.Memory.Acceptance
import GroupStore.Proofs.Rearranged
import GroupStore.Proofs.Memory.Intact
import GroupStore.Proofs.AuditTrail
import GroupStore.Proofs.AuditLines
import GroupStore.Proofs.Purging
import GroupStore.Proofs.Derivation
import GroupStore.Proofs.Deployment
import GroupStore.Proofs.Construction
import GroupStore.Proofs.Memory.Typed
import GroupStore.Proofs.Sqlite.Parameters
import GroupStore.Proofs.PathLimits
