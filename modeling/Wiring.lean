import Wiring.Demo
import Wiring.Listener
import Wiring.Scripted.Session
import Wiring.Proofs.Assembly
import Wiring.Proofs.Canonicity
import Wiring.Proofs.Casting
import Wiring.Proofs.Composing
import Wiring.Proofs.Derivation
import Wiring.Proofs.Disposal
import Wiring.Proofs.Filling
import Wiring.Proofs.Flattening
import Wiring.Proofs.Foresight
import Wiring.Proofs.Freezing
import Wiring.Proofs.Freshness
import Wiring.Proofs.Grammar
import Wiring.Proofs.Nesting
import Wiring.Proofs.Rejection
import Wiring.Proofs.Remembering
import Wiring.Proofs.Reporting
import Wiring.Proofs.Singletons
import Wiring.Proofs.Surfacing
import Wiring.Proofs.Taking
import Wiring.Proofs.Terminating
import Wiring.Proofs.Unregistering
import Wiring.Proofs.Unwinding
