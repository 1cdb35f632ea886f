import EcmaCore.Main
import EcmaCore.Number.Word
import EcmaCore.Proofs.Engine.Mapping
import EcmaCore.Proofs.Json.Hermetic
import EcmaCore.Proofs.Json.RoundTrip
import EcmaCore.Proofs.World.Promises
import EcmaCore.Proofs.Conformance.Restoring
import EcmaCore.Proofs.Conformance.Repeating
import EcmaCore.Proofs.Json.Members
import EcmaCore.Proofs.Json.Completion
import EcmaCore.Proofs.Json.Lookahead
import EcmaCore.Proofs.Json.Positions
import EcmaCore.Proofs.Isolation.Realms
import EcmaCore.Proofs.Engine.Truncating
import EcmaCore.Proofs.Conformance.Courses
import EcmaCore.Proofs.Conformance.Remapping
import EcmaCore.Proofs.Engine.Defining
import EcmaCore.Proofs.Engine.Joining
import EcmaCore.Proofs.Engine.Asking
import EcmaCore.Proofs.Engine.Rejecting
import EcmaCore.Proofs.Engine.Assigning
import EcmaCore.Proofs.Json.Visiting
import EcmaCore.Proofs.Object.Ages
import EcmaCore.Proofs.World.Ordering
import EcmaCore.Proofs.World.Enumeration
import EcmaCore.Proofs.Json.Nesting
import EcmaCore.Proofs.Json.Reviving
import EcmaCore.Proofs.Engine.Unwinding
import EcmaCore.Proofs.Engine.Reapplying
import EcmaCore.Proofs.Json.Numbers
import EcmaCore.Proofs.Engine.Converting
import EcmaCore.Proofs.Engine.Mixing
import EcmaCore.Proofs.Engine.Measuring
import EcmaCore.Proofs.Engine.Strings
import EcmaCore.Proofs.Engine.Accessors
import EcmaCore.Proofs.Key.Canonical
import EcmaCore.Proofs.Key.Identity
import EcmaCore.Proofs.Key.Numbers
