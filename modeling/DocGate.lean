import DocGate.Definition.Decode
import DocGate.Definition.Encode
import DocGate.Schema.Render
import DocGate.Store.Gateway
import DocGate.Proofs.Grammar.Admission
import DocGate.Proofs.Projection.Outcome
import DocGate.Proofs.Projection.Confinement
import DocGate.Proofs.Grammar.Scan
import DocGate.Proofs.Json.StringLiteral
import DocGate.Proofs.Json.RoundTrip
import DocGate.Proofs.Projection.References
import DocGate.Proofs.Projection.Visibility
import DocGate.Proofs.Store.Reads
import DocGate.Proofs.Store.RestrictedReads
import DocGate.Proofs.Filter.Lowering
import DocGate.Proofs.Filter.Reading
import DocGate.Proofs.Filter.Outcomes
import DocGate.Proofs.Filter.Clauses
import DocGate.Proofs.Filter.Restriction
import DocGate.Proofs.Grammar.Forwarding
import DocGate.Proofs.Store.ReadPipeline
import DocGate.Proofs.Bson.Equality
import DocGate.Proofs.Store.IdReads
import DocGate.Proofs.Schema.Fields
import DocGate.Cast.Direct
import DocGate.Proofs.Cast.Compilation
import DocGate.Proofs.Cast.Frame
import DocGate.Proofs.Cast.Projected
import DocGate.Proofs.Cast.Settled
import DocGate.Proofs.Text.Timestamp
import DocGate.Schema.Validate
import DocGate.Proofs.Schema.Validation
import DocGate.Proofs.Schema.WellFormed
import DocGate.Proofs.Cast.Conformance
import DocGate.Proofs.Definition.RoundTrip
import DocGate.Proofs.Collection.Lookups
import DocGate.Proofs.Projection.Paths
import DocGate.Proofs.Store.Refusals
import DocGate.Proofs.Projection.Selection
import DocGate.Proofs.Store.DefaultReads
import DocGate.Proofs.Filter.Comparisons
import DocGate.Proofs.Filter.Acceptance
import DocGate.Proofs.Projection.Grants
import DocGate.Proofs.Store.Support
import DocGate.Proofs.Schema.Placement
import DocGate.Proofs.Schema.Rendering
import DocGate.Proofs.Store.Batches
import DocGate.Proofs.Cast.Integers
import DocGate.Proofs.Text.Chronology
import DocGate.Proofs.Bson.StoredForm
