import TransportNats.Idempotency.Execute

/-!
Request and reply.

Two servers answer requests: the subscription of a topic or request binding,
and the endpoint of a micro service. They were written apart and tell the
client about errors in different ways, the first by a marker header with the
public error in the body, the second by the service headers of the NATS micro
package. `request` is the one client for both.
-/

namespace TransportNats.Rpc

open Interleaving Idempotency

/-! ### Servers -/

/-- What answers a request. A request binding is served as a topic. -/
inductive Endpoint
  | topic (kind : StoreKind) (actionMeta : Option IdempotencyConfig)
  | request (kind : StoreKind) (actionMeta : Option IdempotencyConfig)
  | service

/-- The reply of a topic to an action that is not idempotent. -/
def directReply (R : Runtime) : Outcome R.Value → Reply
  | .panicked => .panicked
  | .failed execErr => failReply R execErr
  | .value res =>
      match R.marshal res with
      | .ok replyBytes => .returned replyBytes none
      | .error err => failReply R (.appOf .internal "failed to marshal response" err)

/-- What the handler of `subscribeTopic` comes to: the bytes of the reply, and
the error it logs and marks the reply with. -/
def topicReply (R : Runtime) (kind : StoreKind) (actionMeta : Option IdempotencyConfig)
    (msg : Msg) : Exec R Reply :=
  match actionMeta with
  | some cfg => executeWithIdempotency R (kind.store R) cfg msg
  | none => do return directReply R (← executeDecoded msg)

/-- How the handler of `registerMicroEndpoint` ends. -/
inductive MicroReply
  | respond (payload : Bytes)
  | execFailed (execErr : Err)
  | marshalFailed
  | panicked

def microResult (R : Runtime) : Outcome R.Value → MicroReply
  | .panicked => .panicked
  | .failed execErr => .execFailed execErr
  | .value res =>
      match R.marshal res with
      | .ok payload => .respond payload
      | .error _ => .marshalFailed

def microReply (R : Runtime) (msg : Msg) : Exec R MicroReply := do
  return microResult R (← executeDecoded msg)

inductive Answer
  | topic (r : Reply)
  | service (r : MicroReply)

def Endpoint.serve (R : Runtime) (msg : Msg) : Endpoint → Exec R Answer
  | .topic kind actionMeta | .request kind actionMeta => do
      return .topic (← topicReply R kind actionMeta msg)
  | .service => do return .service (← microReply R msg)

/-! ### Replies on the wire -/

def headerErrorMarker : String := "X-NATS-Error"

/-- What the servers use from other packages to describe errors and replies. -/
structure Platform where
  /-- `xerr.From(err).Kind`. -/
  kind : Err → Kind
  /-- A kind as a string. -/
  kindText : Kind → String
  /-- `xerr.From(err).Error()`. -/
  text : Err → String
  /-- `transport.HeaderRequestID`. -/
  headerRequestID : String
  headerRequestID_ne : headerRequestID ≠ headerErrorMarker

structure WireReply where
  header : List (String × String)
  data : Bytes

/-- The first value of a header, or the empty string. -/
def WireReply.headerGet (r : WireReply) (key : String) : String :=
  match r.header.find? fun kv => kv.1 = key with
  | some (_, value) => value
  | none => ""

/-- The reply of a topic to the subject `replyTo`, if the message has one. -/
def topicWire (P : Platform) (replyTo requestID : String) : Reply → Option WireReply
  | .panicked => none
  | .returned replyBytes err =>
      if replyTo ≠ "" then
        some
          { header :=
              (if requestID ≠ "" then [(P.headerRequestID, requestID)] else []) ++
                if err.isSome then [(headerErrorMarker, "1")] else []
            data := replyBytes }
      else none

/-- `micro.Request.Error` with a nil body. -/
def microError (code description : String) : WireReply :=
  ⟨[("Nats-Service-Error", description), ("Nats-Service-Error-Code", code)], []⟩

def microWire (P : Platform) : MicroReply → Option WireReply
  | .panicked => none
  | .respond payload => some ⟨[], payload⟩
  | .execFailed execErr => some (microError (P.kindText (P.kind execErr)) (P.text execErr))
  | .marshalFailed => some (microError (P.kindText .internal) "response marshal failed")

def Answer.wire (P : Platform) (replyTo requestID : String) : Answer → Option WireReply
  | .topic r => topicWire P replyTo requestID r
  | .service r => microWire P r

/-! ### The client -/

/-- What the client uses from other packages to read an error reply. -/
structure Client (R : Runtime) where
  /-- `codec.Unmarshal` into an error response. -/
  unmarshalResponse : Bytes → Except Err R.Response
  /-- The field `Error` of a response. -/
  errorField : R.Response → String
  fromPublic : R.Response → Option Err
  /-- Bytes as a string. -/
  string : Bytes → String

/-- `Transport.Request`: what it returns if `ensureConn` and the marshalling of
the payload end as given, and the exchange of messages as `exchange` says.
`resPtr` is `codec.Unmarshal` into the result, unless the result is nil. -/
def request {R : Runtime} (C : Client R) (ensureConn : Option Err) (data : Except Err Bytes)
    (exchange : Bytes → Except Err WireReply) (resPtr : Option (Bytes → Except Err Unit)) :
    Option Err :=
  match ensureConn, data with
  | some err, _ => some err
  | none, .error err => some (.appOf .internal "failed to marshal nats request" err)
  | none, .ok data =>
      match exchange data with
      | .error reqErr => some (mapError reqErr)
      | .ok resMsg =>
          let remote : Err := .app .internal ("remote nats action error: " ++ C.string resMsg.data)
          if resMsg.headerGet headerErrorMarker = "1" then
            match C.unmarshalResponse resMsg.data with
            | .error _ => some remote
            | .ok errResp =>
                if C.errorField errResp ≠ "" then
                  match C.fromPublic errResp with
                  | some appErr => some appErr
                  | none => some remote
                else some remote
          else
            match resPtr with
            | none => none
            | some unmarshal =>
                if resMsg.data ≠ [] then
                  match unmarshal resMsg.data with
                  | .error err => some (.appOf .internal "failed to unmarshal nats response" err)
                  | .ok _ => none
                else none

end TransportNats.Rpc
