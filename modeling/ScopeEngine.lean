import ScopeEngine.Load.Stampede
import ScopeEngine.Main
import ScopeEngine.Proofs.Arguments.Calls
import ScopeEngine.Proofs.Arguments.Interchange
import ScopeEngine.Proofs.Expiry
import ScopeEngine.Proofs.FirstTouch.Outcome
import ScopeEngine.Proofs.Keys
import ScopeEngine.Proofs.Paths.Atomicity
import ScopeEngine.Proofs.Refusal.Starts
import ScopeEngine.Proofs.Renewal.Invalidation
import ScopeEngine.Proofs.Replacement
import ScopeEngine.Proofs.Resolution.Visibility
import ScopeEngine.Proofs.Rotation.Failure
import ScopeEngine.Proofs.Scopes.Locks
import ScopeEngine.Proofs.SessionsOff.Runs
import ScopeEngine.Proofs.Shutdown.Pairing
import ScopeEngine.Proofs.Shutdown.Refusal
import ScopeEngine.Proofs.Splicing.Shape
