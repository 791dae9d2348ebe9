import TransportNats.Delivery.Handler

/-!
Durable work as a special case of a consumer.

A durable binding retries with one delay, which a consumer binding expresses as
a back-off of length one. The two handlers are written separately. Run against
the same surroundings they do the same, with one exception: after the last
delivery, when the action has failed and its dead letter has failed too, the
consumer waits as long as the action asked for and the durable handler does not
look at what the action asked for.
-/

namespace TransportNats.Delivery

open Interleaving Idempotency Program

/-- The consumer binding `c` describes the work of the durable binding `b`. -/
structure Corresponds (b : DurableBinding) (c : ConsumerBinding) : Prop where
  stream : c.stream = b.stream
  subject : c.subject = b.subject
  durable : c.durable = b.durable
  deadLetterSubject : c.deadLetterSubject = b.deadLetterSubject
  maxDeliver : c.maxDeliver = b.maxDeliver
  ackWait : c.ackWait = b.ackWait
  maxAckPending : c.maxAckPending = b.maxAckPending
  ackPolicy : c.ackPolicy = .ackExplicit
  backOff : c.backOff = [b.retryDelay]

theorem Corresponds.retryDelay {b : DurableBinding} {c : ConsumerBinding} (hc : Corresponds b c)
    (deliveries : ℕ) (err : Err) :
    consumerRetryDelay c deliveries err = durableRetryDelay err b.retryDelay := by
  simp [consumerRetryDelay, durableRetryDelay, hc.backOff, backoffIndex]

/-! ### Runs against given surroundings -/

/-- What the surroundings of a handler answer to its `n`-th operation, for every
kind of operation: the outcomes of the action, of the metadata and of the broker. -/
structure Outcomes (R : Runtime) where
  exec : ℕ → (o : ExecOp) → o.Ret R
  metadata : ℕ → Except Err Metadata
  now : ℕ → I64
  ackSync : ℕ → Option Err
  nakWithDelay : ℕ → Option Err
  publish : ℕ → Option Err
  term : ℕ → Option Err

section
variable {R : Runtime} {D : Type}

def Outcomes.answer (E : Outcomes R) (n : ℕ) : (o : HandlerOp D) → HandlerOp.Ret R o
  | .exec o => E.exec n o
  | .metadata _ => E.metadata n
  | .now => E.now n
  | .ackSync _ => E.ackSync n
  | .nakWithDelay _ _ => E.nakWithDelay n
  | .publish _ _ _ => E.publish n
  | .term _ => E.term n

/-- The operation, with the error text of a dead letter left out. -/
def HandlerOp.withoutText : HandlerOp D → HandlerOp D
  | .publish subject id letter => .publish subject id { letter with error := .other "" none }
  | o => o

/-- Reading the metadata or the clock is no effect. -/
def HandlerOp.isEffect : HandlerOp D → Bool
  | .metadata _ | .now => false
  | .exec _ | .ackSync _ | .nakWithDelay _ _ | .publish _ _ _ | .term _ => true

/-- One operation of a handler that has issued `done` so far, the latest first. -/
def Outcomes.issue (E : Outcomes R) (done : List (HandlerOp D)) (o : HandlerOp D) :
    List (HandlerOp D) × HandlerOp.Ret R o :=
  (o.withoutText :: done, E.answer done.length o)

/-- The effects of a handler, in the order in which it issues them. -/
def effects (E : Outcomes R) (p : Handler R D Unit) : List (HandlerOp D) :=
  ((p.alone E.issue []).1.filter HandlerOp.isEffect).reverse

/-- The error with which the action has failed at the last delivery, when its
dead letter has failed as well. -/
def unlettered (E : Outcomes R) (kind : StoreKind) (b : DurableBinding)
    (actionMeta : Option IdempotencyConfig) (msg : NatsMsg D) : Option Err :=
  match E.metadata 0 with
  | .error _ => none
  | .ok info =>
      if maxDeliverExceeded info.numDelivered b.maxDeliver then none
      else
        match ((execution R kind actionMeta msg.toMsg).lift (execEmbedding R D)).alone E.issue
            [.metadata msg.reply] with
        | (done, .returned _ (some execErr)) =>
            if maxDeliverReached info.numDelivered b.maxDeliver then
              (((dlqConsumerMessage b.deadLetterBinding msg execErr info.numDelivered true).alone
                E.issue done).2).map fun _ => execErr
            else none
        | _ => none

theorem dlqConsumerMessage_alone {b c : ConsumerBinding} (hstream : c.stream = b.stream)
    (hdurable : c.durable = b.durable) (hsubject : c.deadLetterSubject = b.deadLetterSubject)
    (E : Outcomes R) (msg : NatsMsg D) (err err' : Err) (deliveries : ℕ) (terminate : Bool)
    (done : List (HandlerOp D)) :
    (dlqConsumerMessage c msg err deliveries terminate).alone E.issue done =
      (dlqConsumerMessage b msg err' deliveries terminate).alone E.issue done := by
  unfold dlqConsumerMessage timeNow metadata publishMsg
  rw [alone_perform_bind, alone_perform_bind]
  rw [alone_perform_bind, alone_perform_bind]
  simp only [Outcomes.issue, Outcomes.answer]
  cases E.metadata (HandlerOp.now.withoutText :: done).length with
  | error e => rfl
  | ok info =>
      dsimp only
      rw [alone_perform_bind, alone_perform_bind]
      rw [hstream, hdurable, hsubject]
      rfl

/-! ### The two handlers -/

variable {b : DurableBinding} {c : ConsumerBinding} (hb : validateDurableBinding b = none)
  (hc : Corresponds b c) (E : Outcomes R) (kind : StoreKind)
  (actionMeta : Option IdempotencyConfig) (msg : NatsMsg D)

theorem nakWithDelay_alone (delay : ℤ) (done : List (HandlerOp D)) :
    (do let _ ← nakWithDelay msg delay; return () : Handler R D Unit).alone E.issue done =
      (.nakWithDelay msg.reply delay :: done, ()) := rfl

include hc

theorem nakConsumerMessage_alone (deliveries : ℕ) (err : Err) (done : List (HandlerOp D)) :
    (nakConsumerMessage c msg deliveries err).alone E.issue done =
      (.nakWithDelay msg.reply (durableRetryDelay err b.retryDelay) :: done, ()) := by
  rw [← hc.retryDelay deliveries err]
  exact nakWithDelay_alone E msg _ done

theorem deadLetterBinding_alone (err err' : Err) (deliveries : ℕ) (done : List (HandlerOp D)) :
    (dlqConsumerMessage c msg err deliveries true).alone E.issue done =
      (dlqConsumerMessage b.deadLetterBinding msg err' deliveries true).alone E.issue done :=
  dlqConsumerMessage_alone hc.stream hc.durable hc.deadLetterSubject E msg err err' deliveries
    true done

theorem ackPolicy_ne : c.ackPolicy ≠ .ackNone := by
  rw [hc.ackPolicy]
  decide

include hb

theorem Corresponds.deadLetterSubject_ne : c.deadLetterSubject ≠ "" := by
  rw [hc.deadLetterSubject]
  exact (accepted_of_validateDurableBinding hb).1

/-- Up to a delivery within the limit the handlers do the same. -/
theorem handle_alone_cases :
    (∃ info, E.metadata 0 = .ok info ∧
        maxDeliverExceeded info.numDelivered b.maxDeliver = false ∧
        (handleConsumerMessage kind c actionMeta msg).alone E.issue [] =
          (runConsumerMessage kind c actionMeta msg info.numDelivered).alone E.issue
            [.metadata msg.reply] ∧
        (handleDurableMessage kind b actionMeta msg).alone E.issue [] =
          (runDurableMessage kind b actionMeta msg info.numDelivered).alone E.issue
            [.metadata msg.reply]) ∨
      unlettered E kind b actionMeta msg = none ∧
        (handleConsumerMessage kind c actionMeta msg).alone E.issue [] =
          (handleDurableMessage kind b actionMeta msg).alone E.issue [] := by
  unfold handleConsumerMessage handleDurableMessage metadata unlettered
  rw [if_neg (ackPolicy_ne hc), alone_perform_bind, alone_perform_bind]
  simp only [Outcomes.issue, Outcomes.answer, HandlerOp.withoutText, List.length_nil]
  cases hinfo : E.metadata 0 with
  | error err =>
      refine .inr ⟨rfl, ?_⟩
      exact nakConsumerMessage_alone hc E msg 1 (mapError err) _
  | ok info =>
      dsimp only
      rw [hc.maxDeliver]
      cases hex : maxDeliverExceeded info.numDelivered b.maxDeliver with
      | false => exact .inl ⟨info, rfl, hex, rfl, rfl⟩
      | true =>
          refine .inr ⟨rfl, ?_⟩
          simp only [if_true, if_pos (hc.deadLetterSubject_ne hb)]
          rw [alone_bind, alone_bind, deadLetterBinding_alone hc E msg _
            (.app .internal "durable delivery limit exceeded; retrying dead-letter handling")]
          generalize (dlqConsumerMessage b.deadLetterBinding msg _ info.numDelivered true).alone
            _ _ = r
          obtain ⟨done, _ | err⟩ := r
          · rfl
          · exact nakConsumerMessage_alone hc E msg info.numDelivered err done

/-- Within the limit the handlers do the same, or both end with a request to
deliver the message again whose delay may differ. -/
theorem run_alone_cases {info : Metadata} (hinfo : E.metadata 0 = .ok info)
    (hin : maxDeliverExceeded info.numDelivered b.maxDeliver = false) :
    (∃ execErr done, unlettered E kind b actionMeta msg = some execErr ∧
        (runConsumerMessage kind c actionMeta msg info.numDelivered).alone E.issue
            [.metadata msg.reply] =
          (.nakWithDelay msg.reply (durableRetryDelay execErr b.retryDelay) :: done, ()) ∧
        (runDurableMessage kind b actionMeta msg info.numDelivered).alone E.issue
            [.metadata msg.reply] =
          (.nakWithDelay msg.reply b.retryDelay :: done, ())) ∨
      unlettered E kind b actionMeta msg = none ∧
        (runConsumerMessage kind c actionMeta msg info.numDelivered).alone E.issue
            [.metadata msg.reply] =
          (runDurableMessage kind b actionMeta msg info.numDelivered).alone E.issue
            [.metadata msg.reply] := by
  unfold runConsumerMessage runDurableMessage unlettered
  rw [hinfo]
  dsimp only
  rw [if_neg (by rw [hin]; exact Bool.false_ne_true), alone_bind, alone_bind]
  generalize ((execution R kind actionMeta msg.toMsg).lift (execEmbedding R D)).alone E.issue
    [.metadata msg.reply] = r
  obtain ⟨done, ⟨body, _ | execErr⟩ | _⟩ := r
  · exact .inr ⟨rfl, by simp only [if_neg (ackPolicy_ne hc)]⟩
  · simp only [if_neg (ackPolicy_ne hc), hc.maxDeliver, if_pos (hc.deadLetterSubject_ne hb)]
    cases maxDeliverReached info.numDelivered b.maxDeliver with
    | false => exact .inr ⟨rfl, nakConsumerMessage_alone hc E msg info.numDelivered execErr done⟩
    | true =>
        simp only [if_true]
        rw [alone_bind, alone_bind, deadLetterBinding_alone hc E msg execErr execErr]
        generalize (dlqConsumerMessage b.deadLetterBinding msg execErr info.numDelivered
          true).alone E.issue done = r
        obtain ⟨done', _ | err⟩ := r
        · exact .inr ⟨rfl, rfl⟩
        · exact .inl ⟨execErr, done', rfl,
            nakConsumerMessage_alone hc E msg info.numDelivered execErr done', rfl⟩
  · exact .inr ⟨rfl, rfl⟩

end

theorem durableRetryDelay_eq_fallback {err : Err} {fallback : ℤ} :
    fallback = durableRetryDelay err fallback ↔
      retryAfter err ≤ 0 ∨ retryAfter err = fallback := by
  unfold durableRetryDelay
  split <;> omega

/-- Durable work is consumer work, whatever the action, the metadata and the
broker answer, exactly if the action does not ask for a delay of its own when it
fails at the last delivery and its dead letter fails as well. -/
theorem durable_as_consumer_iff (R : Runtime) {D : Type} (b : DurableBinding)
    (hb : validateDurableBinding b = none) (c : ConsumerBinding) (hc : Corresponds b c)
    (kind : StoreKind) (actionMeta : Option IdempotencyConfig) (msg : NatsMsg D)
    (E : Outcomes R) :
    effects E (handleDurableMessage kind b actionMeta msg) =
        effects E (handleConsumerMessage kind c actionMeta msg) ↔
      ∀ execErr, unlettered E kind b actionMeta msg = some execErr →
        retryAfter execErr ≤ 0 ∨ retryAfter execErr = b.retryDelay := by
  rcases handle_alone_cases hb hc E kind actionMeta msg with
    ⟨info, hinfo, hin, hcons, hdur⟩ | ⟨hnone, heq⟩
  · unfold effects
    rw [hcons, hdur]
    rcases run_alone_cases hb hc E kind actionMeta msg hinfo hin with
      ⟨execErr, done, hun, hcons, hdur⟩ | ⟨hnone, heq⟩
    · have hfilter : ∀ delay, (HandlerOp.nakWithDelay msg.reply delay :: done).filter
          HandlerOp.isEffect = .nakWithDelay msg.reply delay :: done.filter HandlerOp.isEffect :=
        fun _ => List.filter_cons_of_pos rfl
      simp only [hcons, hdur, hun, hfilter, List.reverse_inj, List.cons.injEq,
        HandlerOp.nakWithDelay.injEq, true_and, and_true, Option.some.injEq, forall_eq']
      exact durableRetryDelay_eq_fallback
    · simp [heq, hnone]
  · simp [effects, heq, hnone]

/-! ### A double failure -/

def twiceTried : DurableBinding := ⟨"S", "work", "D", "dead", ⟨2, by decide, by decide⟩, 1, 1, 1⟩

def twiceTriedConsumer : ConsumerBinding :=
  { stream := "S", subject := "work", durable := "D", deadLetterSubject := "dead",
    maxDeliver := twiceTried.maxDeliver, ackWait := 1, maxAckPending := 1, backOff := [1] }

def workMsg : NatsMsg Unit := { sampleMsg with reply := () }

/-- The action asks to be called again after five units of time, and no dead
letter can be published. -/
def busy (numDelivered : ℕ) : Outcomes .plain where
  exec _ o := (execOp .plain { outcome := .failed (.other "busy" (some 5)) } (.fresh .zero []) o).2
  metadata _ := .ok ⟨"S", 1, numDelivered⟩
  now _ := .zero
  ackSync _ := none
  nakWithDelay _ := none
  publish _ := some (.other "nats: timeout" none)
  term _ := none

theorem twiceTried_corresponds : Corresponds twiceTried twiceTriedConsumer :=
  ⟨rfl, rfl, rfl, rfl, rfl, rfl, rfl, rfl, rfl⟩

/-- At the first delivery both handlers wait as long as the action asked for. -/
theorem durable_as_consumer_first_delivery :
    effects (busy 1) (handleDurableMessage .coordinator twiceTried none workMsg) =
      effects (busy 1) (handleConsumerMessage .coordinator twiceTriedConsumer none workMsg) :=
  (durable_as_consumer_iff .plain twiceTried (by decide) _ twiceTried_corresponds .coordinator none
    workMsg (busy 1)).mpr fun _ h => by cases h

/-- At the last one they do not. -/
theorem durable_not_consumer_last_delivery :
    validateDurableBinding twiceTried = none ∧ Corresponds twiceTried twiceTriedConsumer ∧
      effects (busy 2) (handleDurableMessage .coordinator twiceTried none workMsg) ≠
        effects (busy 2) (handleConsumerMessage .coordinator twiceTriedConsumer none workMsg) := by
  refine ⟨by decide, twiceTried_corresponds, fun h => ?_⟩
  cases h

end TransportNats.Delivery
