import ClientSdk.Json.Schema
import ClientSdk.Main
import ClientSdk.Proofs.Fallible
import ClientSdk.Proofs.TypeRef
import ClientSdk.Proofs.Projection.Entries
import ClientSdk.Proofs.Projection.Paths
import ClientSdk.Proofs.WellFormed
import ClientSdk.Proofs.Projection.NormalForm
import ClientSdk.Proofs.Build.Discovery
import ClientSdk.Proofs.Build.Bindings
import ClientSdk.Proofs.Build.Model
import ClientSdk.Proofs.Build.Flatten
import ClientSdk.Proofs.Build.Rebuilding
import ClientSdk.Proofs.Build.Calls
import ClientSdk.Proofs.Build.Response
import ClientSdk.Proofs.Build.Cycles
import ClientSdk.Proofs.Augmentation.Preservation
import ClientSdk.Proofs.Build.Rearrangement
import ClientSdk.Proofs.Document.Names
import ClientSdk.Proofs.Schema.Names
import ClientSdk.Proofs.Schema.Loading
import ClientSdk.Proofs.Augmentation.Names
import ClientSdk.Proofs.Document.Parsing
import ClientSdk.Proofs.Schema.Printing
import ClientSdk.Proofs.Schema.Sealing
import ClientSdk.Proofs.Validation.Selections
import ClientSdk.Proofs.Validation.Resolution
import ClientSdk.Proofs.Augmentation.Written
import ClientSdk.Proofs.Augmentation.TypeNames
import ClientSdk.Proofs.Schema.RoundTrip
import ClientSdk.Proofs.Text.Words
import ClientSdk.Proofs.Emit.Files
import ClientSdk.Proofs.Emit.Classes
import ClientSdk.Proofs.Emit.Scopes
import ClientSdk.Proofs.Emit.Failures
import ClientSdk.Proofs.Emit.Collisions
import ClientSdk.Proofs.Augmentation.Allowed
import ClientSdk.Proofs.Augmentation.Sealing
import ClientSdk.Proofs.Build.Agreement
import ClientSdk.Proofs.Projection.Canonical
import ClientSdk.Proofs.Build.Closure
import ClientSdk.Proofs.Build.Leaves
import ClientSdk.Proofs.Augmentation.Repetition
import ClientSdk.Proofs.Projection.Unions
import ClientSdk.Proofs.Emit.Package
import ClientSdk.Proofs.Build.Termination
import ClientSdk.Proofs.Emit.Constructors
import ClientSdk.Proofs.Augmentation.Collisions
import ClientSdk.Proofs.Augmentation.References
import ClientSdk.Proofs.Generation.Trace
import ClientSdk.Proofs.Generation.Rendering
