import TransportNats.Library.Program
import TransportNats.Library.World
import TransportNats.Library.Reliance
import TransportNats.Library.Loop
import TransportNats.Library.Base64
import TransportNats.Library.VersionedStore
import TransportNats.Library.Wildcard
import TransportNats.Library.Grouping
import TransportNats.Library.Splitting
import TransportNats.Errors
import TransportNats.Classification
import TransportNats.Go
import TransportNats.Idempotency.Coordinator
import TransportNats.Idempotency.Bucket
import TransportNats.Idempotency.Protocol
import TransportNats.Idempotency.Lease
import TransportNats.Idempotency.Regrant
import TransportNats.Idempotency.Fencing
import TransportNats.Idempotency.Takeover
import TransportNats.Idempotency.OwnClaim
import TransportNats.Idempotency.Hash
import TransportNats.Idempotency.Execute
import TransportNats.Rpc.Endpoint
import TransportNats.Idempotency.Replay
import TransportNats.Idempotency.Endings
import TransportNats.Idempotency.Renewal
import TransportNats.Idempotency.Executor
import TransportNats.Idempotency.Finalize
import TransportNats.Idempotency.Entry
import TransportNats.Idempotency.Owner
import TransportNats.Idempotency.Ledger
import TransportNats.Rpc.Agreement
import TransportNats.Delivery.Handler
import TransportNats.Delivery.Broker
import TransportNats.Delivery.Guards
import TransportNats.Delivery.Loss
import TransportNats.Delivery.DeadLetter
import TransportNats.Delivery.Executions
import TransportNats.Delivery.Retry
import TransportNats.Delivery.Equivalence
import TransportNats.Delivery.Delay
import TransportNats.Stream.Subject
import TransportNats.Stream.Ensure
import TransportNats.Stream.Provision
import TransportNats.Stream.Publish
import TransportNats.Object.Names
import TransportNats.Object.Store
import TransportNats.Object.Events
import TransportNats.Object.Actions
import TransportNats.Library.Monitor
import TransportNats.Lifecycle.Operations
import TransportNats.Lifecycle.Connection
import TransportNats.Lifecycle.Runner
import TransportNats.Lifecycle.Marks
import TransportNats.Lifecycle.Accepted
import TransportNats.Lifecycle.Ownership
import TransportNats.Lifecycle.Closing
import TransportNats.Lifecycle.Ready
import TransportNats.Lifecycle.Accounting
import TransportNats.Lifecycle.Shutdown
import TransportNats.Lifecycle.Listen
import TransportNats.Lifecycle.Announce
import TransportNats.Mount.Actions
import TransportNats.Mount.Services
import TransportNats.Mount.Listen
import TransportNats.Mount.Texts
import TransportNats.Rpc.Identifiers
import TransportNats.Idempotency.Exclusion
import TransportNats.Idempotency.Completion
import TransportNats.Delivery.Progress
import TransportNats.Delivery.FetchLoop
import TransportNats.Delivery.Subscribe
import TransportNats.KeyValue.Consistency
import TransportNats.KeyValue.Convergence
import TransportNats.Server.Urls
import TransportNats.Server.Redaction
import TransportNats.Library.Exhaustion
import TransportNats.Lifecycle.Draining
