import TransportNats.Delivery.Broker

/-!
What one handler may do.

The guards say when a handler performs which request, in terms of what it has
done before: it acknowledges only after an execution without an error, it
publishes only the dead letter of its own message and only after a failed
execution or without one, and it terminates only after such a publish has
succeeded. They hold of both kinds of handler, so everything about runs is
proved for both at once.
-/

namespace TransportNats.Delivery

open Interleaving Idempotency Program

/-! ### Histories of handlers -/

abbrev HandlerHist (R : Runtime) (D : Type) := History (handlerSig R D)

section
variable {R : Runtime} {D : Type}

/-- The action has not been run. -/
def Unrun (h : HandlerHist R D) : Prop := ∀ x ∈ h, ∀ m, x.op ≠ .exec (.executeDecoded m)

/-- The action has returned without an error. -/
def ActionOk (msg : NatsMsg D) (h : HandlerHist R D) : Prop :=
  ∃ v, ⟨.exec (.executeDecoded msg.toMsg), .value v⟩ ∈ h

/-- An execution of the message has come to an end with `reply`. -/
def Ended (W : Worker) (msg : NatsMsg D) (h : HandlerHist R D) (reply : Reply) : Prop :=
  ∃ hk h₀, hk.map (execEmbedding R D).answered ++ h₀ <:+ h ∧
    (execution R W.kind W.actionMeta msg.toMsg).Returns hk reply

/-- An execution of the message has returned a nil error. -/
def ReturnedNil (W : Worker) (msg : NatsMsg D) (h : HandlerHist R D) : Prop :=
  ∃ body, Ended W msg h (.returned body none)

/-- An execution of the message, which runs the action if anything does, has
returned an error, or panicked. -/
def Failed (W : Worker) (msg : NatsMsg D) (h : HandlerHist R D) : Prop :=
  ∃ later hk h₀ reply, h = later ++ (hk.map (execEmbedding R D).answered ++ h₀) ∧
    Unrun later ∧ Unrun h₀ ∧ (execution R W.kind W.actionMeta msg.toMsg).Returns hk reply ∧
    ∀ body, reply ≠ .returned body none

/-- The handler knows that its delivery is within the limit. -/
def Within (W : Worker) (msg : NatsMsg D) (h : HandlerHist R D) : Prop :=
  ∃ info, ⟨.metadata msg.reply, .ok info⟩ ∈ h ∧
    maxDeliverExceeded info.numDelivered W.binding.maxDeliver = false

/-- `record` is the dead letter of `msg` under the message id `id`. -/
structure LetterOf (B : Binding) (msg : Msg) (id : String) (record : Record) : Prop where
  subject : record.subject = B.deadLetterSubject
  id : record.id = id
  stream : record.letter.stream = B.stream
  durable : record.letter.durable = B.name
  source : record.letter.subject = msg.subject
  payload : record.letter.payload = msg.data
  headers : record.letter.headers = firstHeaders msg

/-- `record` is the dead letter of the message, as far as the handler knows. -/
def OwnLetter (W : Worker) (msg : NatsMsg D) (h : HandlerHist R D) (record : Record) : Prop :=
  ∃ info, ⟨.metadata msg.reply, .ok info⟩ ∈ h ∧
    LetterOf W.binding msg.toMsg (messageId info.stream info.sequence) record

/-- The handler has published the dead letter of its message. -/
def Lettered (W : Worker) (msg : NatsMsg D) (h : HandlerHist R D) : Prop :=
  ∃ record, OwnLetter W msg h record ∧
    ⟨.publish record.subject record.id record.letter, none⟩ ∈ h

/-- Why a handler gives up on its message: the execution failed, or there was none. -/
def GivenUp (W : Worker) (msg : NatsMsg D) (h : HandlerHist R D) : Prop :=
  Failed W msg h ∨ Unrun h

def handlerGuard (W : Worker) (msg : NatsMsg D) (h : HandlerHist R D) : HandlerOp D → Prop
  | .exec (.executeDecoded m) =>
      m = msg.toMsg ∧ Unrun h ∧ (W.binding.ackPolicy ≠ .ackNone → Within W msg h)
  | .exec _ | .now => True
  | .metadata d => d = msg.reply
  | .ackSync d => d = msg.reply ∧ ReturnedNil W msg h
  | .nakWithDelay d _ => d = msg.reply
  | .publish subject id letter => OwnLetter W msg h ⟨subject, id, letter⟩ ∧ GivenUp W msg h
  | .term d => d = msg.reply ∧ (W.binding.deadLetterSubject ≠ "" → Lettered W msg h)

/-- A handler whose action has succeeded asked for an acknowledgement, unless
the execution failed all the same. -/
def handlerPost (W : Worker) (msg : NatsMsg D) (h : HandlerHist R D) (_ : Unit) : Prop :=
  W.binding.ackPolicy ≠ .ackNone → ActionOk msg h →
    (∃ r, ⟨.ackSync msg.reply, r⟩ ∈ h) ∨ Failed W msg h

variable {W : Worker} {msg : NatsMsg D} {h h' : HandlerHist R D}

theorem Ended.mono {reply : Reply} (he : Ended W msg h reply) (hh : h <:+ h') :
    Ended W msg h' reply :=
  let ⟨hk, h₀, hsuf, hret⟩ := he
  ⟨hk, h₀, hsuf.trans hh, hret⟩

theorem Within.mono (hw : Within W msg h) (hh : h <:+ h') : Within W msg h' :=
  let ⟨info, hmem, hlim⟩ := hw
  ⟨info, hh.subset hmem, hlim⟩

theorem OwnLetter.mono {record : Record} (ho : OwnLetter W msg h record) (hh : h <:+ h') :
    OwnLetter W msg h' record :=
  let ⟨info, hmem, hl⟩ := ho
  ⟨info, hh.subset hmem, hl⟩

theorem unrun_nil : Unrun ([] : HandlerHist R D) := fun _ hx => by cases hx

theorem Unrun.cons {x : Answered (handlerSig R D)} (hu : Unrun h)
    (hx : ∀ m, x.op ≠ .exec (.executeDecoded m)) : Unrun (x :: h) := by
  intro y hy
  rcases List.mem_cons.mp hy with rfl | hy
  · exact hx
  · exact hu y hy

theorem Failed.cons {x : Answered (handlerSig R D)} (hf : Failed W msg h)
    (hx : ∀ m, x.op ≠ .exec (.executeDecoded m)) : Failed W msg (x :: h) := by
  obtain ⟨later, hk, h₀, reply, rfl, hlater, hu, hret, hne⟩ := hf
  exact ⟨x :: later, hk, h₀, reply, rfl, hlater.cons hx, hu, hret, hne⟩

theorem GivenUp.cons {x : Answered (handlerSig R D)} (hg : GivenUp W msg h)
    (hx : ∀ m, x.op ≠ .exec (.executeDecoded m)) : GivenUp W msg (x :: h) :=
  hg.imp (fun hf => hf.cons hx) fun hu => hu.cons hx

theorem GivenUp.post (hg : GivenUp W msg h) : handlerPost W msg h () := by
  rintro - ⟨v, hv⟩
  rcases hg with hf | hu
  · exact .inr hf
  · exact absurd rfl (hu _ hv msg.toMsg)

/-! ### Executions -/

theorem guarded_execution (kind : StoreKind) (actionMeta : Option IdempotencyConfig)
    (m : Msg) :
    Guarded (execGuard R m) (fun _ _ => True) [] (execution R kind actionMeta m) := by
  cases actionMeta with
  | some cfg =>
      exact (guarded_executeWithIdempotency noRun_nil kind cfg).mono (fun _ _ hG => hG)
        fun _ _ _ => trivial
  | none =>
      refine ⟨⟨rfl, noRun_nil⟩, fun outcome => ?_⟩
      cases outcome <;> trivial

theorem Unrun.append {hk : ExecHist R} (hr : NoRun hk) (hu : Unrun h) :
    Unrun (hk.map (execEmbedding R D).answered ++ h) := by
  intro x hx m hop
  rcases List.mem_append.mp hx with hx | hx
  · obtain ⟨y, hy, rfl⟩ := List.mem_map.mp hx
    exact hr y hy m (HandlerOp.exec.inj hop)
  · exact hu x hx m hop

/-- Since the history `h` the execution has taken place, and ended with `reply`. -/
def Executed (W : Worker) (msg : NatsMsg D) (h h' : HandlerHist R D) (reply : Reply) : Prop :=
  ∃ hk, h' = hk.map (execEmbedding R D).answered ++ h ∧
    (execution R W.kind W.actionMeta msg.toMsg).Returns hk reply

theorem Executed.ended {reply : Reply} (he : Executed W msg h h' reply) :
    Ended W msg h' reply := by
  obtain ⟨hk, rfl, hret⟩ := he
  exact ⟨hk, h, List.suffix_refl _, hret⟩

theorem Executed.givenUp {reply : Reply} (he : Executed W msg h h' reply) (hu : Unrun h)
    (hne : ∀ body, reply ≠ .returned body none) : GivenUp W msg h' := by
  obtain ⟨hk, rfl, hret⟩ := he
  exact .inl ⟨[], hk, h, reply, rfl, unrun_nil, hu, hret, hne⟩

/-- The execution runs the action at most once, and afterwards it is known how
it ended. -/
theorem guarded_lift_execution (hu : Unrun h)
    (hw : W.binding.ackPolicy ≠ .ackNone → Within W msg h) :
    Guarded (handlerGuard W msg) (Executed W msg h) h
      ((execution R W.kind W.actionMeta msg.toMsg).lift (execEmbedding R D)) := by
  refine (guarded_execution W.kind W.actionMeta msg.toMsg).returns.embed (fun hk o hg => ?_) ?_
  · cases o with
    | executeDecoded m =>
        exact ⟨hg.1, hu.append hg.2, fun hp => (hw hp).mono (List.suffix_append _ _)⟩
    | _ => trivial
  · rintro hk reply ⟨-, hk', rfl, hret⟩
    exact ⟨hk', by simp, hret⟩

/-! ### Giving up -/

theorem guarded_dlqConsumerMessage {b : ConsumerBinding} (hstream : b.stream = W.binding.stream)
    (hname : b.durable = W.binding.name)
    (hsubject : b.deadLetterSubject = W.binding.deadLetterSubject) (hg : GivenUp W msg h)
    (execErr : Err) (deliveries : ℕ) (terminate : Bool) :
    Guarded (handlerGuard W msg) (fun h' _ => GivenUp W msg h') h
      (dlqConsumerMessage b msg execErr deliveries terminate) := by
  unfold dlqConsumerMessage timeNow metadata publishMsg term
  rw [guarded_perform_bind]
  refine ⟨trivial, fun failedAt => ?_⟩
  rw [guarded_perform_bind]
  refine ⟨rfl, fun r => ?_⟩
  have hg₂ := (hg.cons (x := ⟨.now, failedAt⟩) nofun).cons
    (x := ⟨.metadata msg.reply, r⟩) nofun
  cases r with
  | error err => exact hg₂
  | ok info =>
      dsimp only
      rw [guarded_perform_bind]
      have hown : OwnLetter W msg (⟨.metadata msg.reply, .ok info⟩ :: ⟨.now, failedAt⟩ :: h)
          ⟨b.deadLetterSubject, messageId info.stream info.sequence,
            ⟨b.stream, msg.subject, b.durable, deliveries, failedAt, execErr, msg.data,
              firstHeaders msg.toMsg⟩⟩ :=
        ⟨info, List.mem_cons_self, hsubject, rfl, hstream, hname, rfl, rfl, rfl⟩
      refine ⟨⟨hown, hg₂⟩, fun r => ?_⟩
      have hg₃ := hg₂.cons (x := ⟨.publish _ _ _, r⟩) nofun
      cases r with
      | some err => exact hg₃
      | none =>
          dsimp only
          split
          · refine ⟨⟨rfl, fun _ => ⟨_, hown.mono (List.suffix_cons _ _), List.mem_cons_self⟩⟩,
              fun r => ?_⟩
            exact hg₃.cons nofun
          · exact hg₃

theorem guarded_dlq_of_consumer {b : ConsumerBinding} (hW : W.binding = .consumer b)
    (hg : GivenUp W msg h) (execErr : Err) (deliveries : ℕ) (terminate : Bool) :
    Guarded (handlerGuard W msg) (fun h' _ => GivenUp W msg h') h
      (dlqConsumerMessage b msg execErr deliveries terminate) :=
  guarded_dlqConsumerMessage (by rw [hW]; rfl) (by rw [hW]; rfl) (by rw [hW]; rfl) hg _ _ _

theorem guarded_dlq_of_durable {b : DurableBinding} (hW : W.binding = .durable b)
    (hg : GivenUp W msg h) (execErr : Err) (deliveries : ℕ) :
    Guarded (handlerGuard W msg) (fun h' _ => GivenUp W msg h') h
      (dlqConsumerMessage b.deadLetterBinding msg execErr deliveries true) :=
  guarded_dlqConsumerMessage (by rw [hW]; rfl) (by rw [hW]; rfl) (by rw [hW]; rfl) hg _ _ _

theorem guarded_nakWithDelay (hg : GivenUp W msg h) (delay : ℤ) :
    Guarded (handlerGuard W msg) (handlerPost W msg) h
      (do let _ ← nakWithDelay msg delay; return ()) :=
  ⟨rfl, fun r => (hg.cons (x := ⟨.nakWithDelay msg.reply delay, r⟩) nofun).post⟩

/-- A message without a dead-letter subject is terminated at once. -/
theorem guarded_term (hsubject : W.binding.deadLetterSubject = "") (hg : GivenUp W msg h) :
    Guarded (handlerGuard W msg) (handlerPost W msg) h (do let _ ← term msg; return ()) :=
  ⟨⟨rfl, fun hne => absurd hsubject hne⟩,
    fun r => (hg.cons (x := ⟨.term msg.reply, r⟩) nofun).post⟩

theorem guarded_ackSync (hret : ReturnedNil W msg h) :
    Guarded (handlerGuard W msg) (handlerPost W msg) h (do let _ ← ackSync msg; return ()) :=
  ⟨⟨rfl, hret⟩, fun r _ _ => .inl ⟨r, List.mem_cons_self⟩⟩

/-! ### Both handlers -/

theorem guarded_runConsumerMessage {b : ConsumerBinding} (hW : W.binding = .consumer b)
    (hu : Unrun h) (hw : W.binding.ackPolicy ≠ .ackNone → Within W msg h) (deliveries : ℕ) :
    Guarded (handlerGuard W msg) (handlerPost W msg) h
      (runConsumerMessage W.kind b W.actionMeta msg deliveries) := by
  unfold runConsumerMessage
  refine (guarded_lift_execution hu hw).bind fun h₁ reply he => ?_
  rcases reply with ⟨body, _ | execErr⟩ | _
  · dsimp only
    split
    · rename_i hnone
      exact fun hp => absurd (by rw [hW]; exact hnone) hp
    · exact guarded_ackSync ⟨body, he.ended⟩
  · have hg := he.givenUp hu fun _ h => by cases h
    dsimp only
    split
    · split
      · exact (guarded_dlq_of_consumer hW hg _ _ _).bind fun _ _ hg => hg.post
      · exact hg.post
    · split
      · split
        · refine (guarded_dlq_of_consumer hW hg _ _ _).bind fun _ r hg => ?_
          cases r with
          | some err => exact guarded_nakWithDelay hg _
          | none => exact hg.post
        · rename_i hsubject
          exact guarded_term (by rw [hW]; exact not_not.mp hsubject) hg
      · exact guarded_nakWithDelay hg _
  · exact (he.givenUp hu fun _ h => by cases h).post

/-- Before its execution a handler has only read metadata. -/
theorem unrun_metadata (d : D) (r : Except Err Metadata) :
    Unrun ([⟨.metadata d, r⟩] : HandlerHist R D) := by
  rintro x hx m
  obtain rfl := List.mem_singleton.mp hx
  exact nofun

theorem guarded_handleConsumerMessage {b : ConsumerBinding} (hW : W.binding = .consumer b) :
    Guarded (S := handlerSig R D) (handlerGuard W msg) (handlerPost W msg) []
      (handleConsumerMessage W.kind b W.actionMeta msg) := by
  unfold handleConsumerMessage
  split
  · rename_i hnone
    refine guarded_runConsumerMessage hW unrun_nil (fun hp => ?_) 1
    exact absurd (by rw [hW]; exact hnone) hp
  · unfold metadata
    rw [guarded_perform_bind]
    refine ⟨rfl, fun r => ?_⟩
    have hu := unrun_metadata (R := R) msg.reply r
    cases r with
    | error err => exact guarded_nakWithDelay (.inr hu) _
    | ok info =>
        dsimp only
        split
        · split
          · refine (guarded_dlq_of_consumer hW (.inr hu) _ _ _).bind fun _ r hg => ?_
            cases r with
            | some err => exact guarded_nakWithDelay hg _
            | none => exact hg.post
          · rename_i hsubject
            exact guarded_term (by rw [hW]; exact not_not.mp hsubject) (.inr hu)
        · rename_i hlim
          refine guarded_runConsumerMessage hW hu (fun _ => ⟨info, List.mem_cons_self, ?_⟩) _
          rw [hW]
          exact Bool.not_eq_true _ ▸ hlim

theorem guarded_handleDurableMessage {b : DurableBinding} (hW : W.binding = .durable b) :
    Guarded (S := handlerSig R D) (handlerGuard W msg) (handlerPost W msg) []
      (handleDurableMessage W.kind b W.actionMeta msg) := by
  unfold handleDurableMessage metadata
  rw [guarded_perform_bind]
  refine ⟨rfl, fun r => ?_⟩
  have hu := unrun_metadata (R := R) msg.reply r
  cases r with
  | error err => exact guarded_nakWithDelay (.inr hu) _
  | ok info =>
      dsimp only
      split
      · refine (guarded_dlq_of_durable hW (.inr hu) _ _).bind fun _ r hg => ?_
        cases r with
        | some err => exact guarded_nakWithDelay hg _
        | none => exact hg.post
      · rename_i hlim
        unfold runDurableMessage
        have hw : Within W msg ([⟨.metadata msg.reply, .ok info⟩] : HandlerHist R D) :=
          ⟨info, List.mem_cons_self, by rw [hW]; exact Bool.not_eq_true _ ▸ hlim⟩
        refine (guarded_lift_execution hu fun _ => hw).bind fun h₁ reply he => ?_
        rcases reply with ⟨body, _ | execErr⟩ | _
        · exact guarded_ackSync ⟨body, he.ended⟩
        · have hg := he.givenUp hu fun _ h => by cases h
          dsimp only
          split
          · refine (guarded_dlq_of_durable hW hg _ _).bind fun _ r hg => ?_
            cases r with
            | some err => exact guarded_nakWithDelay hg _
            | none => exact hg.post
          · exact guarded_nakWithDelay hg _
        · exact (he.givenUp hu fun _ h => by cases h).post

theorem guarded_handle (W : Worker) (msg : NatsMsg D) :
    Guarded (S := handlerSig R D) (handlerGuard W msg) (handlerPost W msg) [] (W.handle R msg) := by
  unfold Worker.handle Binding.handle
  split
  · exact guarded_handleConsumerMessage ‹_›
  · exact guarded_handleDurableMessage ‹_›

end

/-! ### Every handler in every run -/

section
variable {R : Runtime} {F : Fleet}

/-- What an answer says about the broker for good. -/
structure AnswerSound (s : Broker F)
    (x : Answered (handlerSig R (Delivered F.Consumer))) : Prop where
  metadata : ∀ d info, x = ⟨.metadata d, .ok info⟩ → info = F.metadata d
  publish : ∀ subject id letter, x = ⟨.publish subject id letter, none⟩ →
    ∃ r ∈ s.records, r.id = id

theorem answerSound_op (ch : BrokerChoice R) (s : Broker F)
    (o : HandlerOp (Delivered F.Consumer)) :
    AnswerSound (R := R) (s.op R ch o).1 ⟨o, (s.op R ch o).2⟩ where
  metadata d info h := by
    obtain ⟨rfl, hr⟩ := Answered.mk.inj h
    have hr := eq_of_heq hr
    simp only [Broker.op] at hr
    split at hr
    · exact (Except.ok.inj hr).symm
    · cases hr
    · cases hr
  publish subject id letter h := by
    obtain ⟨rfl, hr⟩ := Answered.mk.inj h
    have hr := eq_of_heq hr
    simp only [Broker.op] at hr ⊢
    cases hf : ch.fault with
    | ok => exact (records_store s ⟨subject, id, letter⟩).2
    | dropped err | lost err =>
        rw [hf] at hr
        cases hr

/-- The contract of the handlers. -/
def handling (R : Runtime) (F : Fleet) : Contract (handlers R F) where
  guard d := handlerGuard (F.worker d.consumer) (F.natsMsg d)
  post d := handlerPost (F.worker d.consumer) (F.natsMsg d)
  sound := AnswerSound
  program d := guarded_handle (F.worker d.consumer) (F.natsMsg d)
  answer := answerSound_op
  stable hm x hx := by
    refine ⟨hx.metadata, fun subject id letter h => ?_⟩
    obtain ⟨r, hr, hid⟩ := hx.publish subject id letter h
    exact ⟨r, (handlers_grows hm).records hr, hid⟩

end

end TransportNats.Delivery
