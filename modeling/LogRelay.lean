import LogRelay.Agent
import LogRelay.Main
import LogRelay.PubSub.Session
import LogRelay.Registry
import LogRelay.Rehearsal.Clients
import LogRelay.Rehearsal.Stages
import LogRelay.Transformer.System
import LogRelay.Proofs.Channel
import LogRelay.Proofs.Worker.History
import LogRelay.Proofs.Worker.Path
import LogRelay.Proofs.Runs
import LogRelay.Proofs.Worker.Run
import LogRelay.Proofs.Worker.Delivery
import LogRelay.Proofs.Worker.Ending
import LogRelay.Proofs.Routing
import LogRelay.Proofs.Transformer.Path
import LogRelay.Proofs.Transformer.Delivery
import LogRelay.Proofs.Transformer.Run
import LogRelay.Proofs.Transformer.Ending
import LogRelay.Proofs.Transformer.Drain
import LogRelay.Proofs.Pipeline.History
import LogRelay.Proofs.Pipeline.Run
import LogRelay.Proofs.Startup
import LogRelay.Proofs.Pipeline.Delivery
import LogRelay.Proofs.Startup.Sharing
import LogRelay.Proofs.Agent.Run
import LogRelay.Proofs.Agent.Shutdown
import LogRelay.Proofs.Postgres.Marker
import LogRelay.Proofs.Postgres.Grammar
import LogRelay.Proofs.Postgres.Rendering
import LogRelay.Proofs.Postgres.Extension
import LogRelay.Proofs.Base64
import LogRelay.Proofs.Time.Calendar
import LogRelay.Proofs.Time.Rfc3339
import LogRelay.Proofs.Json.Literal
import LogRelay.Proofs.Json.Object
import LogRelay.Proofs.Envelope.Labels
import LogRelay.Proofs.Envelope.RoundTrip
import LogRelay.Proofs.Startup.Room
import LogRelay.Proofs.Worker.Pacing
import LogRelay.Proofs.Worker.Frequency
import LogRelay.Proofs.Pipeline.Omission
import LogRelay.Proofs.Worker.Fruitless
import LogRelay.Proofs.Pipeline.Isolation
import LogRelay.Proofs.Json.Required
import LogRelay.Proofs.PubSub.TokenCache
import LogRelay.Proofs.Http.Call
import LogRelay.Proofs.PubSub.Calls
import LogRelay.Proofs.PubSub.Requests
import LogRelay.Proofs.Json.List
import LogRelay.Proofs.PubSub.PullAnswer
import LogRelay.Proofs.PubSub.Session
import LogRelay.Proofs.Http.Url
import LogRelay.Proofs.PubSub.Emulator
import LogRelay.Proofs.Event.Lines
import LogRelay.Proofs.Pipeline.Events
import LogRelay.Proofs.Worker.Desertion
import LogRelay.Proofs.Startup.Order
import LogRelay.Proofs.Startup.Strict
import LogRelay.Proofs.Layers.Dict
import LogRelay.Proofs.Layers.Document
import LogRelay.Proofs.Layers.Variables
import LogRelay.Proofs.Layers.Setting
import LogRelay.Proofs.Layers.Precedence
import LogRelay.Proofs.Envelope.Acceptance
import LogRelay.Proofs.Envelope.Container
import LogRelay.Proofs.Freshness
import LogRelay.Proofs.SubscriptionPath
import LogRelay.Proofs.PubSub.Start
import LogRelay.Proofs.Json.Grammar
import LogRelay.Proofs.Json.Reading
import LogRelay.Proofs.Json.Records
import LogRelay.Proofs.Json.Changes
import LogRelay.Proofs.Envelope.Additions
import LogRelay.Proofs.Json.Accepting
import LogRelay.Proofs.PubSub.Address
import LogRelay.Proofs.Envelope.Identity
import LogRelay.Proofs.Layers.Servers
import LogRelay.Proofs.Json.Value
import LogRelay.Proofs.Time.Stamp
import LogRelay.Proofs.Agent.Output
import LogRelay.Proofs.Files
