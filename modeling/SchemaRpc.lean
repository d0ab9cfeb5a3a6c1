import SchemaRpc.Config.Environment
import SchemaRpc.Config.Setting
import SchemaRpc.Config.Yaml
import SchemaRpc.Codec.Decode
import SchemaRpc.Codec.Encode
import SchemaRpc.Dispatch.Dispatcher
import SchemaRpc.Json.Reader
import SchemaRpc.Json.Text
import SchemaRpc.Package.Load
import SchemaRpc.Schema.Resolve
import SchemaRpc.Sha256
import SchemaRpc.Utf8
import SchemaRpc.Value.Equality
import SchemaRpc.Wire.Reader
import SchemaRpc.Wire.Writer
import SchemaRpc.Proofs.Ascending
import SchemaRpc.Proofs.Value.Record
import SchemaRpc.Proofs.Value.Induction
import SchemaRpc.Proofs.Bytes
import SchemaRpc.Proofs.Wire.Parses
import SchemaRpc.Proofs.Wire.Layout
import SchemaRpc.Proofs.Wire.Skipping
import SchemaRpc.Proofs.Outcome
import SchemaRpc.Proofs.Schema.Tags
import SchemaRpc.Proofs.Schema.Members
import SchemaRpc.Proofs.Schema.Naming
import SchemaRpc.Proofs.Utf8
import SchemaRpc.Proofs.Schema.Resolution
import SchemaRpc.Proofs.Codec.Decoding
import SchemaRpc.Proofs.Wire.Pieces
import SchemaRpc.Proofs.Codec.Encoding
import SchemaRpc.Proofs.Codec.Conformance
import SchemaRpc.Proofs.Value.Nesting
import SchemaRpc.Proofs.Value.History
import SchemaRpc.Proofs.Codec.Written
import SchemaRpc.Proofs.Codec.Simulation
import SchemaRpc.Proofs.Codec.Versions
import SchemaRpc.Proofs.Codec.Encodable
import SchemaRpc.Proofs.Codec.RoundTrip
import SchemaRpc.Proofs.Codec.Acceptance
import SchemaRpc.Proofs.Codec.Integers
import SchemaRpc.Proofs.Codec.Forwarding
import SchemaRpc.Proofs.Schema.WellFormed
import SchemaRpc.Proofs.Schema.Acyclicity
import SchemaRpc.Proofs.Envelope.Frame
import SchemaRpc.Proofs.Dispatch.Registry
import SchemaRpc.Proofs.Dispatch.Setup
import SchemaRpc.Proofs.Dispatch.Calls
import SchemaRpc.Proofs.Dispatch.Coverage
import SchemaRpc.Proofs.Dispatch.Answers
import SchemaRpc.Proofs.Dispatch.Frames
import SchemaRpc.Proofs.Json.Text
import SchemaRpc.Proofs.Package.Written
import SchemaRpc.Proofs.Schema.Renumbering
import SchemaRpc.Proofs.Schema.Growth
import SchemaRpc.Proofs.Codec.Appending
import SchemaRpc.Proofs.Schema.Success
import SchemaRpc.Proofs.Schema.Order
import SchemaRpc.Proofs.Codec.Renumbering
import SchemaRpc.Proofs.Codec.Inhabitation
import SchemaRpc.Proofs.Package.Reloading
import SchemaRpc.Proofs.Envelope.Checked
import SchemaRpc.Proofs.Codec.Splicing
import SchemaRpc.Proofs.Codec.Depth
import SchemaRpc.Proofs.Codec.Locality
import SchemaRpc.Proofs.Codec.Amplification
import SchemaRpc.Proofs.Schema.Allotment
import SchemaRpc.Proofs.Schema.TagAllotment
import SchemaRpc.Proofs.Schema.Labels
import SchemaRpc.Proofs.Wire.Items
import SchemaRpc.Proofs.Codec.Sent
import SchemaRpc.Proofs.Codec.Defaults
import SchemaRpc.Proofs.Envelope.Reading
import SchemaRpc.Proofs.Envelope.Taking
import SchemaRpc.Proofs.Envelope.Growth
import SchemaRpc.Proofs.Schema.Refusals
import SchemaRpc.Proofs.Schema.ImplicitNames
import SchemaRpc.Proofs.Dispatch.Metrics
import SchemaRpc.Proofs.Value.Equality
