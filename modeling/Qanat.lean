import Qanat.Library.Lists
import Qanat.Library.FiniteMaps
import Qanat.Library.ByteStrings
import Qanat.Library.Trimming
import Qanat.Library.Rotation
import Qanat.Library.Lts
import Qanat.Library.Channels
import Qanat.Library.Progress
import Qanat.Library.Budgets
import Qanat.Library.Tickets
import Qanat.Library.Interleaving
import Qanat.Library.Logged
import Qanat.Library.FifoServer
import Qanat.Library.Handover
import Qanat.Library.Desk
import Qanat.Errors
import Qanat.Bus.Patterns
import Qanat.Bus.Routing
import Qanat.Bus.InternalRouter
import Qanat.Bus.RoutingTable
import Qanat.Bus.Dispatch
import Qanat.Bus.Subscriptions
import Qanat.Bus.FanoutStream
import Qanat.Bus.QueueGroups
import Qanat.Bus.RoundRobin
import Qanat.Bus.Backpressure
import Qanat.Bus.GroupStreams
import Qanat.Bus.RabbitMq.Model
import Qanat.Bus.RabbitMq.BindingKey
import Qanat.Bus.RabbitMq.Explained
import Qanat.Bus.RabbitMq.Calls
import Qanat.Bus.RabbitMq.Streams
import Qanat.Router.Partitioner.Model
import Qanat.Router.Partitioner.Frame
import Qanat.Router.Partitioner.Invariant
import Qanat.Router.Partitioner.Registry
import Qanat.Router.Partitioner.Preservation
import Qanat.Router.Partitioner.Overflow
import Qanat.Router.Partitioner.Safety
import Qanat.Router.Partitioner.Moves
import Qanat.Router.Partitioner.Domain
import Qanat.Router.Partitioner.Chronicle
import Qanat.Router.Partitioner.Order
import Qanat.Router.Partitioner.Effects
import Qanat.Router.Partitioner.Budget
import Qanat.Router.Partitioner.Rest
import Qanat.Router.Message
import Qanat.Headers
import Qanat.Codec
import Qanat.CodecSelection
import Qanat.Router.Process
import Qanat.Router.Settlement
import Qanat.Router.Failures
import Qanat.Router.Jobs
import Qanat.Bus.Message
import Qanat.Bus.ExternalBus
import Qanat.Bus.MessageId
import Qanat.Bus.Adapter
import Qanat.Bus.Wire.Model
import Qanat.Bus.Wire.Parser
import Qanat.Bus.Wire.Grammar
import Qanat.Bus.RabbitMq.Properties
import Qanat.Bus.RabbitMq.Deliveries
import Qanat.Bus.RabbitMq.Registration
import Qanat.Bus.RabbitMq.Settlement
import Qanat.Bus.RabbitMq.Accounting
import Qanat.Bus.RabbitMq.Routes
import Qanat.Bus.RabbitMq.Routes.Completion
import Qanat.Bus.Frames
import Qanat.Bus.Redis
import Qanat.Bus.Nng
import Qanat.Bus.ReceiveLoop
import Qanat.Bus.SlowSubscribers
import Qanat.Bus.RedisChannel
import Qanat.Bus.RedisGroups
import Qanat.Bus.RedisStreams
import Qanat.Bus.Workers
import Qanat.Bus.Identity
import Qanat.Bus.Carriage
import Qanat.Bus.Nats
import Qanat.Bus.Publishing
import Qanat.Bus.Hop
import Qanat.Router.Proxy.Model
import Qanat.Router.Proxy.Calls
import Qanat.Router.Proxy.Correlation
import Qanat.Router.Proxy.Pending
import Qanat.Router.Proxy.Completion
import Qanat.Router.Proxy.Settlement
import Qanat.Router.Proxy.Replies
import Qanat.Router.Proxy.Answer
import Qanat.Router.Proxy.Marker
import Qanat.Router.Proxy.Exchange
import Qanat.Router.Install.Model
import Qanat.Router.Loop
import Qanat.Router.Install.Bindings
import Qanat.Router.Install.Ledger
import Qanat.Router.Install.Effects
import Qanat.Router.Install.Settlement
import Qanat.Router.Install.Completion
import Qanat.Router.Install.Refinement
import Qanat.Outbox.Model
import Qanat.Outbox.Records
import Qanat.Outbox.Settlement
import Qanat.Outbox.Accounting
import Qanat.Outbox.Renewal
import Qanat.Outbox.Route
import Qanat.Outbox.Processing
import Qanat.Outbox.Processing.Completion
import Qanat.Http.Adapter
import Qanat.Http.ContentType
import Qanat.Http.Hop
import Qanat.Http.Source
import Qanat.Http.Route
import Qanat.Router.Identity
import Qanat.Router.Responses
import Qanat.Router.Extractors
import Qanat.Router.Pipeline
