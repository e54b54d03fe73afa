import ToolLayer.Kit.Assoc
import ToolLayer.Kit.Split
import ToolLayer.Kit.Delimited
import ToolLayer.Kit.Template
import ToolLayer.Kit.DotSegments
import ToolLayer.Kit.Result
import ToolLayer.Kit.Rounding
import ToolLayer.Kit.Optimistic
import ToolLayer.Kit.Numbering
import ToolLayer.Kit.Program
import ToolLayer.Kit.TwoSided
import ToolLayer.Python.Text
import ToolLayer.Python.Exceptions
import ToolLayer.Python.Value
import ToolLayer.Python.Utf8
import ToolLayer.Python.Utf8Decoding
import ToolLayer.Python.Json
import ToolLayer.Python.JsonText
import ToolLayer.Python.Unicode
import ToolLayer.Python.Url
import ToolLayer.Python.FormData
import ToolLayer.Python.Ip
import ToolLayer.Python.UrlSplit
import ToolLayer.Python.Reload
import ToolLayer.Python.Distinct
import ToolLayer.Python.Alike
import ToolLayer.Python.JsonParse
import ToolLayer.Python.Double
import ToolLayer.Python.Encodings
import ToolLayer.Python.Base64
import ToolLayer.Python.Timestamp
import ToolLayer.Python.Sha256
import ToolLayer.Contracts.Errors
import ToolLayer.Contracts.Patterns
import ToolLayer.Contracts.ToolModel
import ToolLayer.Contracts.Schema
import ToolLayer.Contracts.SchemaSubset
import ToolLayer.Contracts.Version
import ToolLayer.Contracts.VersionGrammar
import ToolLayer.Contracts.CanonicalJson
import ToolLayer.Contracts.Encoding
import ToolLayer.Contracts.SchemaRules
import ToolLayer.Contracts.ContractSchemas
import ToolLayer.Contracts.Documents
import ToolLayer.Contracts.Dump
import ToolLayer.Contracts.Validation
import ToolLayer.Contracts.Readings
import ToolLayer.Contracts.Sides
import ToolLayer.Contracts.ToolSides
import ToolLayer.Contracts.ConnectorSides
import ToolLayer.Contracts.Agreement
import ToolLayer.Contracts.RoundTrip
import ToolLayer.Contracts.PlainSides
import ToolLayer.Contracts.Signing
import ToolLayer.OpenApi.Naming
import ToolLayer.OpenApi.LegalNames
import ToolLayer.OpenApi.SharedShape
import ToolLayer.Contracts.NestingDepth
import ToolLayer.Policy.PathSubstitution
import ToolLayer.Policy.PointerLaws
import ToolLayer.OpenApi.SchemaConversion
import ToolLayer.OpenApi.Converter
import ToolLayer.OpenApi.Bindings
import ToolLayer.OpenApi.Placeholders
import ToolLayer.OpenApi.References
import ToolLayer.OpenApi.Resolution
import ToolLayer.OpenApi.Loader
import ToolLayer.OpenApi.Parsing
import ToolLayer.OpenApi.Analyzer
import ToolLayer.OpenApi.Expansion
import ToolLayer.OpenApi.Operations
import ToolLayer.OpenApi.Prose
import ToolLayer.OpenApi.Leaves
import ToolLayer.Policy.Arguments
import ToolLayer.Policy.QueryString
import ToolLayer.Policy.Redaction
import ToolLayer.Policy.UrlRedaction
import ToolLayer.Policy.PathSegments
import ToolLayer.Policy.Destinations
import ToolLayer.Policy.Origins
import ToolLayer.Policy.Addresses
import ToolLayer.Policy.Authorization
import ToolLayer.Policy.Executor
import ToolLayer.Policy.FixedDestination
import ToolLayer.Policy.Content
import ToolLayer.Policy.Transport
import ToolLayer.ControlPlane.Review
import ToolLayer.ControlPlane.Publication
import ToolLayer.ControlPlane.Storing
import ToolLayer.ControlPlane.Database
import ToolLayer.ControlPlane.Service
import ToolLayer.ControlPlane.History
import ToolLayer.ControlPlane.Effects
import ToolLayer.ControlPlane.Revisions
import ToolLayer.ControlPlane.Interleaving
import ToolLayer.ControlPlane.SnapshotOrder
import ToolLayer.ControlPlane.Stored
import ToolLayer.ControlPlane.Lifecycle
import ToolLayer.ControlPlane.Decisions
import ToolLayer.ControlPlane.Proposals
import ToolLayer.ControlPlane.Faithfulness
import ToolLayer.ControlPlane.Deployable
import ToolLayer.ControlPlane.Readable
import ToolLayer.ControlPlane.Suggestion
import ToolLayer.Runtime.Snapshot
import ToolLayer.Runtime.Authenticity
import ToolLayer.Runtime.Store
import ToolLayer.Runtime.Replay
import ToolLayer.Runtime.Refresh
import ToolLayer.Runtime.Index
import ToolLayer.Runtime.Orchestrator
import ToolLayer.Runtime.Identity
import ToolLayer.Runtime.Guarded
import ToolLayer.Contracts.Refusals
import ToolLayer.Delivery.Acceptance
import ToolLayer.Delivery.Deployment
import ToolLayer.Python.Spellings
import ToolLayer.Runtime.Spellings
import ToolLayer.Policy.DeclaredArguments
import ToolLayer.Runtime.Audience
import ToolLayer.ControlPlane.Composition
import ToolLayer.ControlPlane.Truthfulness
import ToolLayer.ControlPlane.VersionOrder
import ToolLayer.Contracts.StrictProjection
import ToolLayer.Policy.Objects
import ToolLayer.Policy.Taxonomy
import ToolLayer.Kit.Polling
import ToolLayer.Contracts.Envelope
import ToolLayer.ControlPlane.Internal
import ToolLayer.ControlPlane.Issues
import ToolLayer.Delivery.Polling
