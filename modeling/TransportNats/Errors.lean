import Mathlib.Data.List.Basic
import Mathlib.Data.Int.Notation

/-!
Errors and their classification.

A Go error is a tree: wrapping adds a layer over one cause, `errors.Join`
combines several, and `errors.Is` and `errors.As` search the tree depth first.
The leaves the transport tells apart are the sentinels of the NATS client
packages, JetStream API errors, and everything else. `MapError` turns such a
tree into an application error of one of the kinds of the Kernel taxonomy.
-/

namespace TransportNats

/-- The error kinds of the Kernel taxonomy that the transport produces. -/
inductive Kind
  | badRequest | unauthorized | forbidden | notFound | conflict | tooManyRequests
  | timeout | canceled | unavailable | internal
  deriving DecidableEq

inductive ContextErr
  | canceled | deadlineExceeded
  deriving DecidableEq

/-- The sentinels of package `nats` that the transport compares with. -/
inductive NatsErr
  | errTimeout | errDrainTimeout | errAsyncPublishTimeout | errNoHeartbeat
  | errNoResponders
  | errNoStreamResponse | errFetchDisconnected | errConnectionClosed | errConnectionDraining
  | errConnectionReconnecting | errDisconnected | errStaleConnection | errNoServers
  | errReconnectBufExceeded | errHeadersNotSupported | errConsumerDeleted
  | errConsumerLeadershipChanged | errSubscriptionClosed | errJetStreamPublisherClosed
  | errConsumerMultipleFilterSubjectsNotSupported
  | errAuthorization | errAuthExpired | errAuthRevoked | errAccountAuthExpired
  | errPermissionViolation
  | errMaxConnectionsExceeded | errMaxAccountConnectionsExceeded | errMaxSubscriptionsExceeded
  | errSlowConsumer
  | errStreamNotFound | errConsumerNotFound | errMsgNotFound | errNoMatchingStream
  | errBucketNotFound | errKeyNotFound | errObjectNotFound
  | errStreamNameAlreadyInUse | errConsumerNameAlreadyInUse | errMsgAlreadyAckd
  | errKeyExists | errKeyRevisionMismatch
  | errMaxPayload | errBadSubject | errBadQueueName | errInvalidArg | errInvalidMsg
  | errBadTimeout | errInvalidContext | errNoDeadlineContext | errBadHeaderMsg
  | errMsgNoReply | errMsgNotBound | errContextAndTimeout | errInvalidStreamName
  | errInvalidConsumerName | errInvalidFilterSubject | errSubjectMismatch
  | errStreamConfigRequired | errStreamNameRequired | errConsumerNameRequired
  | errConsumerConfigRequired
  | errKeyDeleted
  deriving DecidableEq

/-- The sentinels of package `jetstream` that the transport compares with. -/
inductive JetstreamErr
  | errJetStreamNotEnabled | errJetStreamNotEnabledForAccount
  | errConsumerMultipleFilterSubjectsNotSupported
  | errTooManyStalledMsgs
  | errStreamNotFound | errConsumerNotFound | errMsgNotFound | errBucketNotFound
  | errKeyNotFound | errKeyDeleted | errNoKeysFound | errObjectNotFound | errNoObjectsFound
  | errStreamNameAlreadyInUse | errConsumerExists | errKeyExists | errKeyRevisionMismatch
  | errBucketExists
  | errInvalidBucketName | errInvalidKey | errBadBucket | errBadObjectMeta
  | errInvalidStoreName | errObjectConfigRequired
  deriving DecidableEq

inductive Sentinel
  | context (e : ContextErr)
  | nats (e : NatsErr)
  | jetstream (e : JetstreamErr)
  deriving DecidableEq

/-- The two client packages, whose API errors have different Go types. -/
inductive Client
  | nats | jetstream
  deriving DecidableEq

/-- A non-nil Go error. `other` and `wrap` carry what their `RetryAfter` method
returns, if their type has one. An error joined from several is a right-nested
`join`, which `errors.Is` and `errors.As` search in the same order. -/
inductive Err
  | sentinel (s : Sentinel)
  | api (client : Client) (code : Option ℤ)
  | other (text : String) (retryAfter : Option ℤ)
  | wrap (text : String) (retryAfter : Option ℤ) (cause : Err)
  | join (left right : Err)
  | app (kind : Kind) (text : String)
  | appOf (kind : Kind) (text : String) (cause : Err)
  deriving DecidableEq

namespace Err

/-- `errors.Is` for a sentinel. -/
def is (s : Sentinel) : Err → Bool
  | .sentinel s' => s' = s
  | .api _ _ | .other _ _ | .app _ _ => false
  | .wrap _ _ cause | .appOf _ _ cause => cause.is s
  | .join left right => left.is s || right.is s

/-- `errors.AsType[*xerr.AppError]`. -/
def asAppError : Err → Option Err
  | .sentinel _ | .api _ _ | .other _ _ => none
  | .wrap _ _ cause => cause.asAppError
  | .join left right => left.asAppError <|> right.asAppError
  | .app kind text => some (.app kind text)
  | .appOf kind text cause => some (.appOf kind text cause)

/-- `errors.AsType` for the `JetStreamError` interface of one client package:
what the `APIError` method of the first match returns. -/
def asJetStreamError (client : Client) : Err → Option (Option ℤ)
  | .api client' code => if client' = client then some code else none
  | .sentinel _ | .other _ _ | .app _ _ => none
  | .wrap _ _ cause | .appOf _ _ cause => cause.asJetStreamError client
  | .join left right => left.asJetStreamError client <|> right.asJetStreamError client

end Err

/-- The cases of `MapError` in the order in which they are tried. -/
def mapErrorCases : List (List Sentinel × Kind × String) :=
  [([.context .canceled], .canceled, "nats: operation canceled"),
   ([.context .deadlineExceeded, .nats .errTimeout, .nats .errDrainTimeout,
     .nats .errAsyncPublishTimeout, .nats .errNoHeartbeat],
    .timeout, "nats: operation timed out"),
   ([.nats .errNoResponders],
    .unavailable, "nats: no responder is subscribed to the request subject"),
   ([.nats .errNoStreamResponse, .nats .errFetchDisconnected, .nats .errConnectionClosed,
     .nats .errConnectionDraining, .nats .errConnectionReconnecting, .nats .errDisconnected,
     .nats .errStaleConnection, .nats .errNoServers, .nats .errReconnectBufExceeded,
     .nats .errHeadersNotSupported, .nats .errConsumerDeleted,
     .nats .errConsumerLeadershipChanged, .nats .errSubscriptionClosed,
     .nats .errJetStreamPublisherClosed,
     .nats .errConsumerMultipleFilterSubjectsNotSupported,
     .jetstream .errJetStreamNotEnabled, .jetstream .errJetStreamNotEnabledForAccount,
     .jetstream .errConsumerMultipleFilterSubjectsNotSupported],
    .unavailable, "nats: service or required server capability is unavailable"),
   ([.nats .errAuthorization, .nats .errAuthExpired, .nats .errAuthRevoked,
     .nats .errAccountAuthExpired],
    .unauthorized, "nats: authentication failed"),
   ([.nats .errPermissionViolation], .forbidden, "nats: permission denied"),
   ([.nats .errMaxConnectionsExceeded, .nats .errMaxAccountConnectionsExceeded,
     .nats .errMaxSubscriptionsExceeded, .nats .errSlowConsumer,
     .jetstream .errTooManyStalledMsgs],
    .tooManyRequests, "nats: server or client resource limit reached"),
   ([.nats .errStreamNotFound, .nats .errConsumerNotFound, .nats .errMsgNotFound,
     .nats .errNoMatchingStream, .nats .errBucketNotFound, .nats .errKeyNotFound,
     .nats .errObjectNotFound, .jetstream .errStreamNotFound, .jetstream .errConsumerNotFound,
     .jetstream .errMsgNotFound, .jetstream .errBucketNotFound, .jetstream .errKeyNotFound,
     .jetstream .errKeyDeleted, .jetstream .errNoKeysFound, .jetstream .errObjectNotFound,
     .jetstream .errNoObjectsFound],
    .notFound, "nats: requested stream, consumer, key, or object was not found"),
   ([.nats .errStreamNameAlreadyInUse, .nats .errConsumerNameAlreadyInUse,
     .nats .errMsgAlreadyAckd, .nats .errKeyExists, .nats .errKeyRevisionMismatch,
     .jetstream .errStreamNameAlreadyInUse, .jetstream .errConsumerExists,
     .jetstream .errKeyExists, .jetstream .errKeyRevisionMismatch,
     .jetstream .errBucketExists],
    .conflict, "nats: resource already exists or its revision changed"),
   ([.nats .errMaxPayload, .nats .errBadSubject, .nats .errBadQueueName, .nats .errInvalidArg,
     .nats .errInvalidMsg, .nats .errBadTimeout, .nats .errInvalidContext,
     .nats .errNoDeadlineContext, .nats .errBadHeaderMsg, .nats .errMsgNoReply,
     .nats .errMsgNotBound, .nats .errContextAndTimeout, .nats .errInvalidStreamName,
     .nats .errInvalidConsumerName, .nats .errInvalidFilterSubject, .nats .errSubjectMismatch,
     .nats .errStreamConfigRequired, .nats .errStreamNameRequired,
     .nats .errConsumerNameRequired, .nats .errConsumerConfigRequired,
     .jetstream .errInvalidBucketName, .jetstream .errInvalidKey, .jetstream .errBadBucket,
     .jetstream .errBadObjectMeta, .jetstream .errInvalidStoreName,
     .jetstream .errObjectConfigRequired],
    .badRequest, "nats: invalid request or resource configuration")]

/-- The kind and text for a JetStream API status; other statuses are declined. -/
def mapAPIStatus (err : Err) (status : ℤ) : Option Err :=
  if status = 400 then some (.appOf .badRequest "nats: JetStream rejected the request" err)
  else if status = 401 then
    some (.appOf .unauthorized "nats: JetStream authentication failed" err)
  else if status = 403 then some (.appOf .forbidden "nats: JetStream permission denied" err)
  else if status = 404 then some (.appOf .notFound "nats: JetStream resource was not found" err)
  else if status = 408 ∨ status = 504 then
    some (.appOf .timeout "nats: JetStream request timed out" err)
  else if status = 409 then some (.appOf .conflict "nats: JetStream resource conflict" err)
  else if status = 429 then
    some (.appOf .tooManyRequests "nats: JetStream resource limit reached" err)
  else if status = 503 then some (.appOf .unavailable "nats: JetStream is unavailable" err)
  else none

def mapJetStreamAPIError (err : Err) : Option Err :=
  match err.asJetStreamError .nats with
  | some (some code) => mapAPIStatus err code
  | _ =>
      match err.asJetStreamError .jetstream with
      | some (some code) => mapAPIStatus err code
      | _ => none

/-- `MapError` of a non-nil error. -/
def mapError (err : Err) : Err :=
  match err.asAppError with
  | some appErr => appErr
  | none =>
      match mapErrorCases.find? fun c => c.1.any fun s => err.is s with
      | some (_, kind, text) => .appOf kind text err
      | none =>
          match mapJetStreamAPIError err with
          | some mapped => mapped
          | none => .appOf .internal "nats: transport error" err

end TransportNats
