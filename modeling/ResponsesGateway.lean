import ResponsesGateway.Api.Alone
import ResponsesGateway.Api.Backed
import ResponsesGateway.Api.Continuation
import ResponsesGateway.Api.CreateResponse
import ResponsesGateway.Api.Durability
import ResponsesGateway.Api.Forest
import ResponsesGateway.Api.History
import ResponsesGateway.Api.Invariant
import ResponsesGateway.Api.Isolation
import ResponsesGateway.Api.LifeCycle
import ResponsesGateway.Api.Machine
import ResponsesGateway.Api.Malformed
import ResponsesGateway.Api.Models
import ResponsesGateway.Api.Outcome
import ResponsesGateway.Api.Overlap
import ResponsesGateway.Api.Progress
import ResponsesGateway.Api.Providers
import ResponsesGateway.Api.Retention
import ResponsesGateway.Api.Secrets
import ResponsesGateway.Api.StreamEnd
import ResponsesGateway.Api.Stored
import ResponsesGateway.Api.Visibility
import ResponsesGateway.Api.Wire
import ResponsesGateway.Api.Withheld
import ResponsesGateway.Cleaning
import ResponsesGateway.Config
import ResponsesGateway.Config.Environment
import ResponsesGateway.Config.Layers
import ResponsesGateway.Errors
import ResponsesGateway.Foundation.Climb
import ResponsesGateway.Foundation.Dict
import ResponsesGateway.Foundation.EventStream
import ResponsesGateway.Foundation.Lineage
import ResponsesGateway.Foundation.Nested
import ResponsesGateway.Foundation.Split
import ResponsesGateway.Foundation.Transition
import ResponsesGateway.Keywords
import ResponsesGateway.Llm
import ResponsesGateway.Modes
import ResponsesGateway.Python.Accepted
import ResponsesGateway.Python.Double
import ResponsesGateway.Python.Json
import ResponsesGateway.Python.Loads
import ResponsesGateway.Python.RoundTrip
import ResponsesGateway.Python.Number
import ResponsesGateway.Python.Numeral
import ResponsesGateway.Python.Printed
import ResponsesGateway.Python.Text
import ResponsesGateway.Python.Value
import ResponsesGateway.Session.Backed
import ResponsesGateway.Session.Chain
import ResponsesGateway.Session.Offload
import ResponsesGateway.Session.Orphans
import ResponsesGateway.Session.Recorder
import ResponsesGateway.Session.Resolver
import ResponsesGateway.Session.SelfContained
import ResponsesGateway.Session.Store
import ResponsesGateway.Storage.Backends
import ResponsesGateway.Storage.Cold
import ResponsesGateway.Streaming.Acceptance
import ResponsesGateway.Streaming.Announcements
import ResponsesGateway.Streaming.Arguments
import ResponsesGateway.Streaming.Bridge
import ResponsesGateway.Streaming.Buffer
import ResponsesGateway.Streaming.FinalState
import ResponsesGateway.Streaming.Items
import ResponsesGateway.Streaming.Presentation
import ResponsesGateway.Streaming.TextDeltas
import ResponsesGateway.Streaming.TextParts
import ResponsesGateway.Streaming.Transparency
import ResponsesGateway.Stripping
import ResponsesGateway.Validator
