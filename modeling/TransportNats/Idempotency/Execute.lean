import TransportNats.Idempotency.Protocol
import TransportNats.Idempotency.Hash

/-!
The idempotent executor.

`executeWithIdempotency` picks a key for the message, looks the key up and
runs the action only if no outcome is stored. It works on two kinds of store: a
coordinator, whose methods are themselves programs, and a plain store that can
only get and set. A deferred `Release` is written out on every path on which
the function returns, or panics, before the outcome is completed.

What the executor takes from outside the package (the hash function, the codec
and the public form of an error) is the parameter `R`.
-/

namespace TransportNats.Idempotency

open Interleaving

/-- What the executor uses from other packages. -/
structure Runtime where
  kernel : Kernel
  sha256 : Bytes → Bytes
  /-- What an action returns. -/
  Value : Type
  /-- `codec.Marshal` of a result. -/
  marshal : Value → Except Err Bytes
  /-- `xerr.ErrorResponse`. -/
  Response : Type
  /-- `xerr.From(err).Public("")`. -/
  toPublic : Err → Response
  /-- `codec.Marshal` of an error response. -/
  marshalResponse : Response → Except Err Bytes
  /-- `json.Marshal` of an error response. -/
  jsonResponse : Response → Except Err Bytes

/-- A runtime whose actions return bytes; the stand-in for the hash marks its
argument, so that it has no collisions. -/
def Runtime.plain : Runtime where
  kernel := .plain
  sha256 b := 1 :: b
  Value := Bytes
  marshal := .ok
  Response := Err
  toPublic err := err
  marshalResponse _ := .ok []
  jsonResponse _ := .ok []

/-! ### Operations -/

/-- How a call of the action ends. -/
inductive Outcome (V : Type)
  | value (v : V)
  | failed (err : Err)
  | panicked

inductive ExecOp
  | kv (o : KvOp)
  | storeGet (key : String)
  | storeSet (key : String) (entry : IdempotencyEntry) (ttl : ℤ)
  | executeDecoded (msg : Msg)
  | startRenewal (key token : String) (leaseTTL : ℤ)
  | stopRenewal
  | renewalError

@[reducible] def ExecOp.Ret (R : Runtime) : ExecOp → Type
  | .kv o => o.Ret
  | .storeGet _ => Option IdempotencyEntry
  | .storeSet _ _ _ => Unit
  | .executeDecoded _ => Outcome R.Value
  | .startRenewal _ _ _ => Unit
  | .stopRenewal => Unit
  | .renewalError => Option Err

abbrev execSig (R : Runtime) : Signature := ⟨ExecOp, ExecOp.Ret R⟩

abbrev Exec (R : Runtime) := Program (execSig R)

/-- Requests to the bucket as operations of the executor. -/
def kvEmbedding (R : Runtime) : Embedding kvSig (execSig R) where
  op := .kv
  down _ r := r
  up _ r := r
  up_down _ _ := rfl

section
variable {R : Runtime}

def executeDecoded (msg : Msg) : Exec R (Outcome R.Value) :=
  .perform (S := execSig R) (.executeDecoded msg)

def storeGet (key : String) : Exec R (Option IdempotencyEntry) :=
  .perform (S := execSig R) (.storeGet key)

def storeSet (key : String) (entry : IdempotencyEntry) (ttl : ℤ) : Exec R Unit :=
  .perform (S := execSig R) (.storeSet key entry ttl)

end

/-! ### The executor -/

structure IdempotencyConfig where
  header : String
  keyFunc : Option (Bytes → String)
  ttl : ℤ
  effectiveLeaseTTL : ℤ

/-- `action.IdempotencyCoordinator`; `renews` says whether it is also an
`action.IdempotencyLeaseRenewer`. -/
structure Coordinator (R : Runtime) where
  claim : String → String → ℤ → Exec R (Except Err IdempotencyClaim)
  complete : String → String → IdempotencyEntry → ℤ → Exec R (Option Err)
  release : String → String → Exec R (Option Err)
  renews : Bool

inductive IdempotencyStore (R : Runtime)
  | coordinator (c : Coordinator R)
  | legacy

/-- The coordinator of this package. -/
def kvCoordinator (R : Runtime) : Coordinator R where
  claim key requestHash leaseTTL :=
    (Idempotency.claim R.kernel key requestHash leaseTTL).lift (kvEmbedding R)
  complete key token entry ttl :=
    (Idempotency.complete R.kernel key token entry ttl).lift (kvEmbedding R)
  release key token := (Idempotency.release key token).lift (kvEmbedding R)
  renews := true

/-- The stores a transport may be given: the coordinator of this package, or a
plain store. -/
inductive StoreKind
  | coordinator | legacy

def StoreKind.store (R : Runtime) : StoreKind → IdempotencyStore R
  | .coordinator => .coordinator (kvCoordinator R)
  | .legacy => .legacy

/-- What the executor returns, if it does not panic. -/
inductive Reply
  | returned (body : Bytes) (err : Option Err)
  | panicked

def encodeError (R : Runtime) (err : Err) : Bytes × Option Err :=
  match R.marshalResponse (R.toPublic err) with
  | .ok encoded => (encoded, some err)
  | .error _ =>
      match R.jsonResponse (R.toPublic err) with
      | .ok encoded => (encoded, some err)
      | .error _ =>
          let encoded :=
            "\x7b\"error\":\"internal\",\"message\":\"failed to encode error response\"\x7d"
          (encoded.toUTF8.toList, some err)

def failReply (R : Runtime) (err : Err) : Reply :=
  .returned (encodeError R err).1 (encodeError R err).2

theorem failReply_eq (R : Runtime) (err : Err) :
    failReply R err = .returned (encodeError R err).1 (some err) := by
  have : (encodeError R err).2 = some err := by
    unfold encodeError
    split
    · rfl
    · split <;> rfl
  rw [failReply, this]

section
variable {R : Runtime}

/-- Whether a renewal goroutine is started. -/
def startCoordinatorLeaseRenewal (c : Coordinator R) (key token : String) (leaseTTL : ℤ) :
    Exec R Bool := do
  if c.renews ∧ 0 < leaseTTL then
    let _ ← (.perform (S := execSig R) (.startRenewal key token leaseTTL) : Exec R Unit)
    return true
  else return false

def stopRenewal (started : Bool) : Exec R Unit := do
  if started then (.perform (S := execSig R) .stopRenewal : Exec R Unit) else return ()

/-- The non-blocking receive from the renewal channel, which is nil when no
renewal was started. -/
def receiveRenewalError (started : Bool) : Exec R (Option Err) := do
  if started then (.perform (S := execSig R) .renewalError : Exec R (Option Err))
  else return none

/-- The deferred release, and then the reply that was decided on. -/
def releaseThen (c : Coordinator R) (key token : String) (reply : Reply) : Exec R Reply := do
  let _ ← c.release key token
  return reply

/-- The part of `executeWithCoordinator` that owns the execution right. -/
def executeClaimed (c : Coordinator R) (cfg : IdempotencyConfig) (msg : Msg)
    (key reqHash token : String) : Exec R Reply := do
  let started ← startCoordinatorLeaseRenewal c key token cfg.effectiveLeaseTTL
  let outcome ← executeDecoded msg
  stopRenewal started
  match outcome with
  | .panicked => releaseThen c key token .panicked
  | .failed execErr =>
      match ← receiveRenewalError started with
      | some renewalErr => releaseThen c key token (failReply R renewalErr)
      | none => releaseThen c key token (failReply R execErr)
  | .value res =>
      match ← receiveRenewalError started with
      | some renewalErr => releaseThen c key token (failReply R renewalErr)
      | none =>
          match R.marshal res with
          | .error err =>
              releaseThen c key token
                (failReply R (.appOf .internal "failed to marshal idempotent response" err))
          | .ok replyBytes =>
              let now ← timeNow.lift (kvEmbedding R)
              match ← c.complete key token ⟨200, replyBytes, now.val, reqHash⟩ cfg.ttl with
              | some err =>
                  releaseThen c key token
                    (failReply R (.appOf .conflict "idempotency outcome is indeterminate" err))
              | none => return .returned replyBytes none

def executeWithCoordinator (c : Coordinator R) (cfg : IdempotencyConfig) (msg : Msg)
    (key reqHash : String) : Exec R Reply := do
  match ← c.claim key reqHash cfg.effectiveLeaseTTL with
  | .error err => return failReply R err
  | .ok claim =>
      match claim.state with
      | .completed =>
          if claim.entry.requestHash ≠ "" ∧ claim.entry.requestHash ≠ reqHash then
            return failReply R
              (.app .conflict "idempotency key already used with a different payload")
          else return .returned claim.entry.body none
      | .conflict =>
          return failReply R
            (.app .conflict "idempotency key already used with a different payload")
      | .inProgress =>
          return failReply R (.app .unavailable "an identical request is currently in progress")
      | .acquired => executeClaimed c cfg msg key reqHash claim.token
      | .other => return failReply R (.app .internal "invalid idempotency claim state")

def executeWithLegacyStore (cfg : IdempotencyConfig) (msg : Msg) (key reqHash : String) :
    Exec R Reply := do
  match ← storeGet key with
  | some entry =>
      if entry.requestHash ≠ "" ∧ entry.requestHash ≠ reqHash then
        return failReply R (.app .conflict "idempotency key already used with a different payload")
      else return .returned entry.body none
  | none =>
      match ← executeDecoded msg with
      | .panicked => return .panicked
      | .failed execErr => return failReply R execErr
      | .value res =>
          match R.marshal res with
          | .error err =>
              return failReply R (.appOf .internal "failed to marshal idempotent response" err)
          | .ok replyBytes =>
              let now ← timeNow.lift (kvEmbedding R)
              storeSet key ⟨200, replyBytes, now.val, reqHash⟩ cfg.ttl
              return .returned replyBytes none

end

/-- The key of a message: its header, else the key function, else its hash. -/
def idempotencyKey (R : Runtime) (cfg : IdempotencyConfig) (msg : Msg) : String :=
  let key := msg.headerGet cfg.header
  let key := if key = "" then (cfg.keyFunc.map fun f => f msg.data).getD "" else key
  if key = "" then msgHash R.sha256 msg else key

def executeWithIdempotency (R : Runtime) (store : IdempotencyStore R) (cfg : IdempotencyConfig)
    (msg : Msg) : Exec R Reply :=
  match store with
  | .coordinator c =>
      executeWithCoordinator c cfg msg (idempotencyKey R cfg msg) (msgHash R.sha256 msg)
  | .legacy => executeWithLegacyStore cfg msg (idempotencyKey R cfg msg) (msgHash R.sha256 msg)

end TransportNats.Idempotency
