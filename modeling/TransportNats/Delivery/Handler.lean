import TransportNats.Idempotency.Replay

/-!
Pull consumers and their message handlers.

A handler reads the metadata of its message, runs the action, and then
acknowledges the message, asks for it again after a delay, or publishes a dead
letter and terminates it. Which delivery of which message it works on is a
handle of some type `D` that it only passes on to the broker. The operations of
the idempotent executor are operations of the handler, so that other handlers
may act at any point of an execution.
-/

namespace TransportNats.Delivery

open Interleaving Idempotency

/-! ### Bindings -/

/-- The policies are `uint8` in the source; `invalid` is a value without a name. -/
inductive DeliverPolicy
  | deliverAll | deliverLast | deliverNew | deliverByStartSequence | deliverByStartTime
  | deliverLastPerSubject
  | invalid (code : UInt8)
  deriving DecidableEq

inductive AckPolicy
  | ackExplicit | ackNone | ackAll
  | invalid (code : UInt8)
  deriving DecidableEq

inductive ReplayPolicy
  | replayInstant | replayOriginal
  | invalid (code : UInt8)
  deriving DecidableEq

/-- `optStartTime` is `none` for the zero time. -/
structure ConsumerBinding where
  stream : String := ""
  subject : String := ""
  durable : String := ""
  deliverPolicy : DeliverPolicy := .deliverAll
  optStartSeq : ℕ := 0
  optStartTime : Option ℤ := none
  ackPolicy : AckPolicy := .ackExplicit
  replayPolicy : ReplayPolicy := .replayInstant
  maxDeliver : I64 := .zero
  ackWait : ℤ := 0
  maxAckPending : ℤ := 0
  backOff : List ℤ := []
  deadLetterSubject : String := ""

structure DurableBinding where
  stream : String
  subject : String
  durable : String
  deadLetterSubject : String
  maxDeliver : I64
  ackWait : ℤ
  retryDelay : ℤ
  maxAckPending : ℤ

def validateConsumerBinding (b : ConsumerBinding) : Option Err :=
  if b.stream = "" ∨ b.subject = "" ∨ b.durable = "" then
    some (.app .badRequest "consumer requires stream, subject and durable")
  else if b.maxDeliver.val ≤ 0 ∨ b.ackWait ≤ 0 ∨ b.maxAckPending ≤ 0 then
    some (.app .badRequest "consumer delivery parameters must be positive")
  else if b.ackPolicy = .ackNone ∧ b.deadLetterSubject ≠ "" then
    some (.app .badRequest
      "consumer dead-lettering requires an acknowledgement policy that supports redelivery")
  else if b.deliverPolicy matches .invalid _ then
    some (.app .badRequest "consumer delivery policy is invalid")
  else if b.ackPolicy matches .invalid _ then
    some (.app .badRequest "consumer acknowledgement policy is invalid")
  else if b.replayPolicy matches .invalid _ then
    some (.app .badRequest "consumer replay policy is invalid")
  else if b.deliverPolicy = .deliverByStartSequence ∧ b.optStartSeq = 0 then
    some (.app .badRequest "consumer start sequence must be positive")
  else if b.deliverPolicy = .deliverByStartTime ∧ b.optStartTime = none then
    some (.app .badRequest "consumer start time is required")
  else if b.maxDeliver.val < b.backOff.length then
    some (.app .badRequest "consumer backoff length must not exceed MaxDeliver")
  else if b.backOff.any fun delay => delay ≤ 0 then
    some (.app .badRequest "consumer backoff delays must be positive")
  else none

def validateDurableBinding (b : DurableBinding) : Option Err :=
  if b.stream = "" ∨ b.subject = "" ∨ b.durable = "" ∨ b.deadLetterSubject = "" then
    some (.app .badRequest
      "durable work requires stream, subject, durable consumer, and dead-letter subject")
  else if b.maxDeliver.val ≤ 0 ∨ b.ackWait ≤ 0 ∨ b.retryDelay ≤ 0 ∨ b.maxAckPending ≤ 0 then
    some (.app .badRequest "durable delivery policy parameters must be positive")
  else none

/-- A chain of checks passes where its first check and the rest do. -/
theorem check_eq_none {p : Prop} [Decidable p] {err : Err} {rest : Option Err} :
    (if p then some err else rest) = none ↔ ¬ p ∧ rest = none := by
  split <;> simp [*]

/-- What is known of a consumer binding that is accepted. -/
theorem accepted_of_validateConsumerBinding {b : ConsumerBinding}
    (h : validateConsumerBinding b = none) :
    0 < b.maxDeliver.val ∧ ¬ (b.ackPolicy = .ackNone ∧ b.deadLetterSubject ≠ "") ∧
      (∀ code, b.ackPolicy ≠ .invalid code) ∧ b.backOff.length ≤ b.maxDeliver.val ∧
      ∀ delay ∈ b.backOff, 0 < delay := by
  simp only [validateConsumerBinding, check_eq_none] at h
  obtain ⟨-, hparams, hdead, -, hack, -, -, -, hlen, hpos, -⟩ := h
  refine ⟨by omega, hdead, ?_, by omega, fun delay hmem => ?_⟩
  · intro code hcode
    simp [hcode] at hack
  · simp only [List.any_eq_true, decide_eq_true_eq, not_exists, not_and, not_le] at hpos
    exact hpos delay hmem

/-- What is known of a durable binding that is accepted. -/
theorem accepted_of_validateDurableBinding {b : DurableBinding}
    (h : validateDurableBinding b = none) :
    b.deadLetterSubject ≠ "" ∧ 0 < b.maxDeliver.val ∧ 0 < b.retryDelay := by
  simp only [validateDurableBinding, check_eq_none] at h
  obtain ⟨hnames, hparams, -⟩ := h
  refine ⟨fun hsub => hnames (by simp [hsub]), by omega, by omega⟩

/-! ### Delivery limits and delays -/

/-- The limit as a `uint64`, if the binding has one. -/
def maxDeliveryLimit (maxDeliver : I64) : Option ℕ :=
  if maxDeliver.val ≤ 0 then none else some (maxDeliver.val % 2 ^ 64).toNat

def maxDeliverReached (deliveries : ℕ) (maxDeliver : I64) : Bool :=
  match maxDeliveryLimit maxDeliver with
  | none => true
  | some limit => limit ≤ deliveries

def maxDeliverExceeded (deliveries : ℕ) (maxDeliver : I64) : Bool :=
  match maxDeliveryLimit maxDeliver with
  | none => true
  | some limit => limit < deliveries

theorem maxDeliveryLimit_of_pos {maxDeliver : I64} (h : 0 < maxDeliver.val) :
    maxDeliveryLimit maxDeliver = some maxDeliver.val.toNat := by
  have hhi := maxDeliver.hi
  unfold maxInt64 at hhi
  rw [maxDeliveryLimit, if_neg (by omega), Int.emod_eq_of_lt (by omega) (by omega)]

theorem maxDeliverExceeded_eq_false {maxDeliver : I64} (h : 0 < maxDeliver.val) {k : ℕ} :
    maxDeliverExceeded k maxDeliver = false ↔ k ≤ maxDeliver.val.toNat := by
  simp [maxDeliverExceeded, maxDeliveryLimit_of_pos h]

/-- The delay of the first error in the tree that has a `RetryAfter` method. The errors of
the Kernel (`app`, `appOf`) are taken to have none of their own. -/
def asRetryAfter : Err → Option ℤ
  | .other _ delay => delay
  | .wrap _ delay cause => delay <|> asRetryAfter cause
  | .join left right => asRetryAfter left <|> asRetryAfter right
  | .appOf _ _ cause => asRetryAfter cause
  | .sentinel _ | .api _ _ | .app _ _ => none

def retryAfter (err : Err) : ℤ := (asRetryAfter err).getD 0

def backoffIndex (deliveries count : ℕ) : ℕ :=
  if count ≤ 1 ∨ deliveries ≤ 1 then 0
  else if count - 1 ≤ deliveries - 1 then count - 1
  else deliveries - 1

/-- `time.Second`. -/
def second : ℤ := 1000000000

def consumerRetryDelay (b : ConsumerBinding) (deliveries : ℕ) (execErr : Err) : ℤ :=
  if 0 < retryAfter execErr then retryAfter execErr
  else if b.backOff ≠ [] then b.backOff.getD (backoffIndex deliveries b.backOff.length) 0
  else second

def durableRetryDelay (err : Err) (fallback : ℤ) : ℤ :=
  if 0 < retryAfter err then retryAfter err else fallback

/-! ### Operations -/

structure Metadata where
  stream : String
  sequence : ℕ
  numDelivered : ℕ

/-- The record of a dead letter. `error` is the error whose text is stored. -/
structure DeadLetter where
  stream : String
  subject : Bytes
  durable : String
  deliveries : ℕ
  failedAt : I64
  error : Err
  payload : Bytes
  headers : List (String × String)

/-- A `*nats.Msg`: its contents, and the delivery that its reply subject names. -/
structure NatsMsg (D : Type) extends Msg where
  reply : D

inductive HandlerOp (D : Type)
  | exec (o : ExecOp)
  | metadata (d : D)
  | now
  | ackSync (d : D)
  | nakWithDelay (d : D) (delay : ℤ)
  | publish (subject id : String) (letter : DeadLetter)
  | term (d : D)

@[reducible] def HandlerOp.Ret (R : Runtime) {D : Type} : HandlerOp D → Type
  | .exec o => o.Ret R
  | .metadata _ => Except Err Metadata
  | .now => I64
  | .ackSync _ => Option Err
  | .nakWithDelay _ _ => Option Err
  | .publish _ _ _ => Option Err
  | .term _ => Option Err

abbrev handlerSig (R : Runtime) (D : Type) : Signature := ⟨HandlerOp D, HandlerOp.Ret R⟩

abbrev Handler (R : Runtime) (D : Type) := Program (handlerSig R D)

/-- The operations of an execution as operations of the handler. -/
def execEmbedding (R : Runtime) (D : Type) : Embedding (execSig R) (handlerSig R D) where
  op := .exec
  down _ r := r
  up _ r := r
  up_down _ _ := rfl

/-- What the handlers run for a message: the idempotent executor if the action
asks for it, else the action itself. -/
def execution (R : Runtime) (kind : StoreKind) (actionMeta : Option IdempotencyConfig)
    (msg : Msg) : Exec R Reply :=
  match actionMeta with
  | some cfg => executeWithIdempotency R (kind.store R) cfg msg
  | none => do
      match ← executeDecoded msg with
      | .value _ => return .returned [] none
      | .failed err => return .returned [] (some err)
      | .panicked => return .panicked

section
variable {R : Runtime} {D : Type}

def metadata (msg : NatsMsg D) : Handler R D (Except Err Metadata) :=
  .perform (S := handlerSig R D) (.metadata msg.reply)

def timeNow : Handler R D I64 := .perform (S := handlerSig R D) .now

def ackSync (msg : NatsMsg D) : Handler R D (Option Err) :=
  .perform (S := handlerSig R D) (.ackSync msg.reply)

def nakWithDelay (msg : NatsMsg D) (delay : ℤ) : Handler R D (Option Err) :=
  .perform (S := handlerSig R D) (.nakWithDelay msg.reply delay)

def publishMsg (subject id : String) (letter : DeadLetter) : Handler R D (Option Err) :=
  .perform (S := handlerSig R D) (.publish subject id letter)

def term (msg : NatsMsg D) : Handler R D (Option Err) :=
  .perform (S := handlerSig R D) (.term msg.reply)

/-! ### Handlers -/

/-- The message id of a dead letter. -/
def messageId (stream : String) (sequence : ℕ) : String := stream ++ ":" ++ toString sequence

/-- The first value of every header that has one. -/
def firstHeaders (msg : Msg) : List (String × String) :=
  msg.header.filterMap fun kv => kv.2.head?.map fun v => (kv.1, v)

def dlqConsumerMessage (b : ConsumerBinding) (msg : NatsMsg D) (execErr : Err)
    (deliveries : ℕ) (terminate : Bool) : Handler R D (Option Err) := do
  let failedAt ← timeNow
  match ← metadata msg with
  | .error err => return some (mapError err)
  | .ok metaInfo =>
      match ← publishMsg b.deadLetterSubject (messageId metaInfo.stream metaInfo.sequence)
          ⟨b.stream, msg.subject, b.durable, deliveries, failedAt, execErr, msg.data,
            firstHeaders msg.toMsg⟩ with
      | some err => return some (mapError err)
      | none =>
          if terminate then return (← term msg).map mapError else return none

def nakConsumerMessage (b : ConsumerBinding) (msg : NatsMsg D) (deliveries : ℕ)
    (execErr : Err) : Handler R D Unit := do
  let _ ← nakWithDelay msg (consumerRetryDelay b deliveries execErr)
  return ()

/-- What `handleConsumerMessage` does with a delivery within its limit. -/
def runConsumerMessage (kind : StoreKind) (b : ConsumerBinding)
    (actionMeta : Option IdempotencyConfig) (msg : NatsMsg D) (deliveries : ℕ) :
    Handler R D Unit := do
  match ← (execution R kind actionMeta msg.toMsg).lift (execEmbedding R D) with
  | .panicked => return ()
  | .returned _ none =>
      if b.ackPolicy = .ackNone then return ()
      else
        let _ ← ackSync msg
        return ()
  | .returned _ (some execErr) =>
      if b.ackPolicy = .ackNone then
        if b.deadLetterSubject ≠ "" then
          let _ ← dlqConsumerMessage b msg execErr 1 false
          return ()
        else return ()
      else if maxDeliverReached deliveries b.maxDeliver then
        if b.deadLetterSubject ≠ "" then
          match ← dlqConsumerMessage b msg execErr deliveries true with
          | some _ => nakConsumerMessage b msg deliveries execErr
          | none => return ()
        else
          let _ ← term msg
          return ()
      else nakConsumerMessage b msg deliveries execErr

def handleConsumerMessage (kind : StoreKind) (b : ConsumerBinding)
    (actionMeta : Option IdempotencyConfig) (msg : NatsMsg D) : Handler R D Unit := do
  if b.ackPolicy = .ackNone then runConsumerMessage kind b actionMeta msg 1
  else
    match ← metadata msg with
    | .error metadataErr => nakConsumerMessage b msg 1 (mapError metadataErr)
    | .ok metaInfo =>
        if maxDeliverExceeded metaInfo.numDelivered b.maxDeliver then
          if b.deadLetterSubject ≠ "" then
            match ← dlqConsumerMessage b msg
                (.app .internal "consumer delivery limit exceeded; retrying dead-letter handling")
                metaInfo.numDelivered true with
            | some deadLetterErr => nakConsumerMessage b msg metaInfo.numDelivered deadLetterErr
            | none => return ()
          else
            let _ ← term msg
            return ()
        else runConsumerMessage kind b actionMeta msg metaInfo.numDelivered

/-- The part of a durable binding that dead-lettering uses. -/
def DurableBinding.deadLetterBinding (b : DurableBinding) : ConsumerBinding :=
  { stream := b.stream, durable := b.durable, deadLetterSubject := b.deadLetterSubject }

/-- What `handleDurableMessage` does with a delivery within its limit. -/
def runDurableMessage (kind : StoreKind) (b : DurableBinding)
    (actionMeta : Option IdempotencyConfig) (msg : NatsMsg D) (deliveries : ℕ) :
    Handler R D Unit := do
  match ← (execution R kind actionMeta msg.toMsg).lift (execEmbedding R D) with
  | .panicked => return ()
  | .returned _ none =>
      let _ ← ackSync msg
      return ()
  | .returned _ (some execErr) =>
      if maxDeliverReached deliveries b.maxDeliver then
        match ← dlqConsumerMessage b.deadLetterBinding msg execErr deliveries true with
        | some _ =>
            let _ ← nakWithDelay msg b.retryDelay
            return ()
        | none => return ()
      else
        let _ ← nakWithDelay msg (durableRetryDelay execErr b.retryDelay)
        return ()

def handleDurableMessage (kind : StoreKind) (b : DurableBinding)
    (actionMeta : Option IdempotencyConfig) (msg : NatsMsg D) : Handler R D Unit := do
  match ← metadata msg with
  | .error metadataErr =>
      let _ ← nakWithDelay msg (durableRetryDelay (mapError metadataErr) b.retryDelay)
      return ()
  | .ok metaInfo =>
      if maxDeliverExceeded metaInfo.numDelivered b.maxDeliver then
        match ← dlqConsumerMessage b.deadLetterBinding msg
            (.app .internal "durable delivery limit exceeded; retrying dead-letter handling")
            metaInfo.numDelivered true with
        | some err =>
            let _ ← nakWithDelay msg (durableRetryDelay err b.retryDelay)
            return ()
        | none => return ()
      else runDurableMessage kind b actionMeta msg metaInfo.numDelivered

end

/-! ### Both kinds of binding -/

/-- A binding to a pull consumer. -/
inductive Binding
  | consumer (b : ConsumerBinding)
  | durable (b : DurableBinding)

namespace Binding

def validate : Binding → Option Err
  | .consumer b => validateConsumerBinding b
  | .durable b => validateDurableBinding b

def stream : Binding → String
  | .consumer b => b.stream
  | .durable b => b.stream

/-- The name of the durable consumer. -/
def name : Binding → String
  | .consumer b => b.durable
  | .durable b => b.durable

/-- The acknowledgement policy the subscription asks for, which is explicit for
durable bindings. -/
def ackPolicy : Binding → AckPolicy
  | .consumer b => b.ackPolicy
  | .durable _ => .ackExplicit

def maxDeliver : Binding → I64
  | .consumer b => b.maxDeliver
  | .durable b => b.maxDeliver

def deadLetterSubject : Binding → String
  | .consumer b => b.deadLetterSubject
  | .durable b => b.deadLetterSubject

theorem maxDeliver_pos {B : Binding} (h : B.validate = none) : 0 < B.maxDeliver.val := by
  cases B with
  | consumer b => exact (accepted_of_validateConsumerBinding h).1
  | durable b => exact (accepted_of_validateDurableBinding h).2.1

/-- A dead-lettering consumer that is accepted acknowledges in one of two ways. -/
theorem ackPolicy_of_deadLetter {b : ConsumerBinding} (h : validateConsumerBinding b = none)
    (hsub : b.deadLetterSubject ≠ "") :
    b.ackPolicy = .ackExplicit ∨ b.ackPolicy = .ackAll := by
  obtain ⟨-, hdead, hack, -⟩ := accepted_of_validateConsumerBinding h
  cases hp : b.ackPolicy with
  | ackExplicit => exact .inl rfl
  | ackAll => exact .inr rfl
  | ackNone => exact absurd ⟨hp, hsub⟩ hdead
  | invalid code => exact absurd hp (hack code)

/-- The handler that the fetch loop of the binding calls. -/
def handle (R : Runtime) {D : Type} (kind : StoreKind) (actionMeta : Option IdempotencyConfig)
    (msg : NatsMsg D) : Binding → Handler R D Unit
  | .consumer b => handleConsumerMessage kind b actionMeta msg
  | .durable b => handleDurableMessage kind b actionMeta msg

end Binding

end TransportNats.Delivery
