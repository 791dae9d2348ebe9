import TransportNats.Delivery.Retry

/-!
How a delivery ends.

A handler of a consumer with acknowledgements whose requests all go through
leaves its message in one of three ways, unless its execution panics: it is
acknowledged after a success, it is asked for again after the delay of the
binding, or it is terminated, with its dead letter published. The letter that is
stored may be that of another consumer, since the letters of one message share
their id. The second way is open only below the delivery limit, so a message does
not outlive an undisturbed delivery at its limit.
-/

namespace TransportNats.Delivery

open Interleaving Idempotency Program

section
variable {R : Runtime} {D : Type}

/-- The request has failed, or its reply was lost. -/
def refused : Answered (handlerSig R D) → Bool
  | ⟨.metadata _, .error _⟩ => true
  | ⟨.ackSync _, some _⟩ => true
  | ⟨.nakWithDelay _ _, some _⟩ => true
  | ⟨.publish _ _ _, some _⟩ => true
  | ⟨.term _, some _⟩ => true
  | _ => false

/-- Some request to the broker has failed. -/
def Hindered (h : HandlerHist R D) : Prop := ∃ x ∈ h, refused x = true

/-- After how long a failed message is asked for again. -/
def Binding.retryDelayOf (deliveries : ℕ) (execErr : Err) : Binding → ℤ
  | .consumer b => consumerRetryDelay b deliveries execErr
  | .durable b => durableRetryDelay execErr b.retryDelay

/-- The execution of the message has returned an error. -/
def ReturnedErr (W : Worker) (msg : NatsMsg D) (h : HandlerHist R D) : Prop :=
  ∃ body err, Ended W msg h (.returned body (some err))

/-- Why a delivery is the last one: there have been too many, or this one was
the last and failed. -/
def Exhausted (W : Worker) (msg : NatsMsg D) (number : ℕ) (h : HandlerHist R D) : Prop :=
  maxDeliverExceeded number W.binding.maxDeliver = true ∨
    maxDeliverReached number W.binding.maxDeliver = true ∧
      maxDeliverExceeded number W.binding.maxDeliver = false ∧ ReturnedErr W msg h

/-- How the handler of the delivery `number` has left its message. -/
inductive Disposed (W : Worker) (msg : NatsMsg D) (number : ℕ) (h : HandlerHist R D) : Prop
  | panicked (ended : Ended W msg h .panicked)
  | acknowledged (ended : ReturnedNil W msg h) (request : ⟨.ackSync msg.reply, none⟩ ∈ h)
  | retried (body : Bytes) (err : Err) (ended : Ended W msg h (.returned body (some err)))
      (below : maxDeliverReached number W.binding.maxDeliver = false)
      (request : ⟨.nakWithDelay msg.reply (W.binding.retryDelayOf number err), none⟩ ∈ h)
  | terminated (reason : Exhausted W msg number h) (request : ⟨.term msg.reply, none⟩ ∈ h)

/-- A handler that nothing got in the way of has disposed of its message. -/
def disposal (W : Worker) (msg : NatsMsg D) (h : HandlerHist R D) (_ : Unit) : Prop :=
  W.binding.ackPolicy ≠ .ackNone → ¬ Hindered h →
    ∃ info, ⟨.metadata msg.reply, .ok info⟩ ∈ h ∧ Disposed W msg info.numDelivered h

variable {W : Worker} {msg : NatsMsg D} {h h' : HandlerHist R D} {info : Metadata}

theorem Hindered.mono (hh : Hindered h) (hsuf : h <:+ h') : Hindered h' := by
  obtain ⟨x, hx, href⟩ := hh
  exact ⟨x, hsuf.subset hx, href⟩

theorem ReturnedErr.mono (he : ReturnedErr W msg h) (hsuf : h <:+ h') :
    ReturnedErr W msg h' := by
  obtain ⟨body, err, he⟩ := he
  exact ⟨body, err, he.mono hsuf⟩

theorem Exhausted.mono {number : ℕ} (he : Exhausted W msg number h) (hsuf : h <:+ h') :
    Exhausted W msg number h' :=
  he.imp id fun hlast => ⟨hlast.1, hlast.2.1, hlast.2.2.mono hsuf⟩

/-- Once a request has failed, nothing more is asked of the handler. -/
theorem guarded_of_hindered (hh : Hindered h) (p : Handler R D Unit) :
    Guarded (fun _ _ => True) (disposal W msg) h p := by
  induction p generalizing h with
  | ret a => exact fun _ hfree => absurd hh hfree
  | call o k ih => exact ⟨trivial, fun r => ih r (hh.mono (List.suffix_cons _ _))⟩

/-- A handler whose last request has gone through. -/
theorem disposal_cons {x : Answered (handlerSig R D)}
    (hinfo : ⟨.metadata msg.reply, .ok info⟩ ∈ h)
    (hx : refused x = false → Disposed W msg info.numDelivered (x :: h)) :
    disposal W msg (x :: h) () := by
  intro _ hfree
  refine ⟨info, List.mem_cons_of_mem _ hinfo, hx ?_⟩
  cases href : refused x with
  | true => exact absurd ⟨x, List.mem_cons_self, href⟩ hfree
  | false => rfl

theorem eq_none_of_accepted {r : Option Err} {f : Option Err → Answered (handlerSig R D)}
    (hf : ∀ err, refused (f (some err)) = true) (h : refused (f r) = false) : r = none := by
  cases r with
  | none => rfl
  | some err => cases (hf err).symm.trans h

theorem disposal_ackSync (hinfo : ⟨.metadata msg.reply, .ok info⟩ ∈ h)
    (he : ReturnedNil W msg h) :
    Guarded (fun _ _ => True) (disposal W msg) h (do let _ ← ackSync msg; return ()) := by
  refine ⟨trivial, fun r => disposal_cons hinfo fun hok => ?_⟩
  obtain rfl := eq_none_of_accepted (f := fun r => ⟨.ackSync msg.reply, r⟩) (fun _ => rfl) hok
  obtain ⟨body, he⟩ := he
  exact .acknowledged ⟨body, he.mono (List.suffix_cons _ _)⟩ List.mem_cons_self

theorem disposal_nakWithDelay (hinfo : ⟨.metadata msg.reply, .ok info⟩ ∈ h)
    {body : Bytes} {err : Err} (he : Ended W msg h (.returned body (some err)))
    (hbelow : maxDeliverReached info.numDelivered W.binding.maxDeliver = false) {delay : ℤ}
    (hdelay : W.binding.retryDelayOf info.numDelivered err = delay) :
    Guarded (fun _ _ => True) (disposal W msg) h
      (do let _ ← nakWithDelay msg delay; return ()) := by
  subst hdelay
  refine ⟨trivial, fun r => disposal_cons hinfo fun hok => ?_⟩
  obtain rfl := eq_none_of_accepted (f := fun r => ⟨.nakWithDelay msg.reply _, r⟩)
    (fun _ => rfl) hok
  exact .retried body err (he.mono (List.suffix_cons _ _)) hbelow List.mem_cons_self

theorem disposal_term (hinfo : ⟨.metadata msg.reply, .ok info⟩ ∈ h)
    (hlast : Exhausted W msg info.numDelivered h) :
    Guarded (fun _ _ => True) (disposal W msg) h (do let _ ← term msg; return ()) := by
  refine ⟨trivial, fun r => disposal_cons hinfo fun hok => ?_⟩
  obtain rfl := eq_none_of_accepted (f := fun r => ⟨.term msg.reply, r⟩) (fun _ => rfl) hok
  exact .terminated (hlast.mono (List.suffix_cons _ _)) List.mem_cons_self

/-- Dead-lettering comes back without an error only after the termination. -/
theorem terminates_dlqConsumerMessage (b : ConsumerBinding) (execErr : Err) (deliveries : ℕ) :
    Guarded (fun _ _ => True)
      (fun h' r => h <:+ h' ∧ (Hindered h' ∨ r = none ∧ ⟨.term msg.reply, none⟩ ∈ h')) h
      (dlqConsumerMessage (R := R) b msg execErr deliveries true) := by
  unfold dlqConsumerMessage timeNow metadata publishMsg term
  rw [guarded_perform_bind]
  refine ⟨trivial, fun failedAt => ?_⟩
  rw [guarded_perform_bind]
  refine ⟨trivial, fun r => ?_⟩
  have hsuf : h <:+ ⟨.metadata msg.reply, r⟩ :: ⟨.now, failedAt⟩ :: h :=
    (List.suffix_cons _ _).trans (List.suffix_cons _ _)
  cases r with
  | error err => exact ⟨hsuf, .inl ⟨_, List.mem_cons_self, rfl⟩⟩
  | ok info =>
      dsimp only
      rw [guarded_perform_bind]
      refine ⟨trivial, fun r => ?_⟩
      have hsuf' := hsuf.trans (List.suffix_cons ⟨.publish _ _ _, r⟩ _)
      cases r with
      | some err => exact ⟨hsuf', .inl ⟨_, List.mem_cons_self, rfl⟩⟩
      | none =>
          dsimp only
          rw [if_pos rfl, guarded_perform_bind]
          refine ⟨trivial, fun r => ⟨hsuf'.trans (List.suffix_cons _ _), ?_⟩⟩
          cases r with
          | some err => exact .inl ⟨_, List.mem_cons_self, rfl⟩
          | none => exact .inr ⟨rfl, List.mem_cons_self⟩

/-- What a handler does after dead-lettering matters only if that has failed. -/
theorem disposal_deadLetter (hinfo : ⟨.metadata msg.reply, .ok info⟩ ∈ h)
    (hlast : Exhausted W msg info.numDelivered h) (b : ConsumerBinding) (execErr : Err)
    (deliveries : ℕ) {f : Option Err → Handler R D Unit} (hf : f none = pure ()) :
    Guarded (fun _ _ => True) (disposal W msg) h
      (dlqConsumerMessage b msg execErr deliveries true >>= f) := by
  refine (terminates_dlqConsumerMessage b execErr deliveries).bind ?_
  rintro h' r ⟨hsuf, hh | ⟨rfl, hterm⟩⟩
  · exact guarded_of_hindered hh (f r)
  · rw [hf]
    exact fun _ _ => ⟨info, hsuf.subset hinfo, .terminated (hlast.mono hsuf) hterm⟩

/-- After the execution it is known how it ended. -/
theorem ended_lift_execution :
    Guarded (fun _ _ => True) (fun h' reply => h <:+ h' ∧ Ended W msg h' reply) h
      ((execution R W.kind W.actionMeta msg.toMsg).lift (execEmbedding R D)) := by
  refine (guarded_true (execution R W.kind W.actionMeta msg.toMsg)).returns.embed
    (fun _ _ hG => hG) ?_
  rintro hk reply ⟨-, hk', rfl, hret⟩
  exact ⟨List.suffix_append _ _, hk', h, by simp, hret⟩

theorem disposal_runConsumerMessage {b : ConsumerBinding} (hW : W.binding = .consumer b)
    (hp : b.ackPolicy ≠ .ackNone) (hinfo : ⟨.metadata msg.reply, .ok info⟩ ∈ h)
    (hwithin : maxDeliverExceeded info.numDelivered b.maxDeliver = false) :
    Guarded (fun _ _ => True) (disposal W msg) h
      (runConsumerMessage W.kind b W.actionMeta msg info.numDelivered) := by
  unfold runConsumerMessage
  refine ended_lift_execution.bind ?_
  rintro h₁ reply ⟨hsuf, he⟩
  have hinfo := hsuf.subset hinfo
  rcases reply with ⟨body, _ | execErr⟩ | _
  · dsimp only
    rw [if_neg hp]
    exact disposal_ackSync hinfo ⟨body, he⟩
  · dsimp only
    rw [if_neg hp]
    split
    · rename_i hreached
      have hlast : Exhausted W msg info.numDelivered h₁ :=
        .inr (by rw [hW]; exact ⟨hreached, hwithin, body, execErr, he⟩)
      split
      · exact disposal_deadLetter hinfo hlast _ _ _ rfl
      · exact disposal_term hinfo hlast
    · rename_i hbelow
      exact disposal_nakWithDelay hinfo he (by rw [hW]; exact Bool.not_eq_true _ ▸ hbelow)
        (by rw [hW]; rfl)
  · exact fun _ _ => ⟨info, hinfo, .panicked he⟩

theorem disposal_handleConsumerMessage {b : ConsumerBinding} (hW : W.binding = .consumer b) :
    Guarded (fun _ _ => True) (disposal W msg) []
      (handleConsumerMessage (R := R) W.kind b W.actionMeta msg) := by
  unfold handleConsumerMessage
  split
  · rename_i hnone
    -- without acknowledgements there is nothing to show
    refine (guarded_true _).mono (fun _ _ hG => hG) fun _ _ _ hp => ?_
    exact absurd (by rw [hW]; exact hnone) hp
  · rename_i hp
    unfold metadata
    rw [guarded_perform_bind]
    refine ⟨trivial, fun r => ?_⟩
    cases r with
    | error err => exact guarded_of_hindered ⟨_, List.mem_cons_self, rfl⟩ _
    | ok info =>
        dsimp only
        split
        · rename_i hexceeded
          have hlast : Exhausted (R := R) W msg info.numDelivered
              [⟨.metadata msg.reply, .ok info⟩] := .inl (by rw [hW]; exact hexceeded)
          split
          · exact disposal_deadLetter List.mem_cons_self hlast _ _ _ rfl
          · exact disposal_term List.mem_cons_self hlast
        · rename_i hwithin
          exact disposal_runConsumerMessage hW hp List.mem_cons_self
            (Bool.not_eq_true _ ▸ hwithin)

theorem disposal_runDurableMessage {b : DurableBinding} (hW : W.binding = .durable b)
    (hinfo : ⟨.metadata msg.reply, .ok info⟩ ∈ h)
    (hwithin : maxDeliverExceeded info.numDelivered b.maxDeliver = false) :
    Guarded (fun _ _ => True) (disposal W msg) h
      (runDurableMessage W.kind b W.actionMeta msg info.numDelivered) := by
  unfold runDurableMessage
  refine ended_lift_execution.bind ?_
  rintro h₁ reply ⟨hsuf, he⟩
  have hinfo := hsuf.subset hinfo
  rcases reply with ⟨body, _ | execErr⟩ | _
  · exact disposal_ackSync hinfo ⟨body, he⟩
  · dsimp only
    split
    · rename_i hreached
      have hlast : Exhausted W msg info.numDelivered h₁ :=
        .inr (by rw [hW]; exact ⟨hreached, hwithin, body, execErr, he⟩)
      exact disposal_deadLetter hinfo hlast _ _ _ rfl
    · rename_i hbelow
      exact disposal_nakWithDelay hinfo he (by rw [hW]; exact Bool.not_eq_true _ ▸ hbelow)
        (by rw [hW]; rfl)
  · exact fun _ _ => ⟨info, hinfo, .panicked he⟩

theorem disposal_handleDurableMessage {b : DurableBinding} (hW : W.binding = .durable b) :
    Guarded (fun _ _ => True) (disposal W msg) []
      (handleDurableMessage (R := R) W.kind b W.actionMeta msg) := by
  unfold handleDurableMessage metadata
  rw [guarded_perform_bind]
  refine ⟨trivial, fun r => ?_⟩
  cases r with
  | error err => exact guarded_of_hindered ⟨_, List.mem_cons_self, rfl⟩ _
  | ok info =>
      dsimp only
      split
      · rename_i hexceeded
        have hlast : Exhausted (R := R) W msg info.numDelivered
            [⟨.metadata msg.reply, .ok info⟩] := .inl (by rw [hW]; exact hexceeded)
        exact disposal_deadLetter List.mem_cons_self hlast _ _ _ rfl
      · rename_i hwithin
        exact disposal_runDurableMessage hW List.mem_cons_self (Bool.not_eq_true _ ▸ hwithin)

theorem disposal_handle (W : Worker) (msg : NatsMsg D) :
    Guarded (S := handlerSig R D) (fun _ _ => True) (disposal W msg) [] (W.handle R msg) := by
  unfold Worker.handle Binding.handle
  split
  · exact disposal_handleConsumerMessage ‹_›
  · exact disposal_handleDurableMessage ‹_›

end

/-! ### Every handler in every run -/

section
variable {R : Runtime} {F : Fleet}

/-- An acknowledgement or a termination that went through has settled its
message. -/
structure SettledSound (s : Broker F)
    (x : Answered (handlerSig R (Delivered F.Consumer))) : Prop where
  ack : ∀ d, x = ⟨.ackSync d, none⟩ → d.key ∈ s.settled
  term : ∀ d, x = ⟨.term d, none⟩ → d.key ∈ s.settled

/-- A request that settles a message and went through has done so. -/
theorem settled_of_request (s : Broker F) (d : Delivered F.Consumer) {fault : BrokerFault}
    (h : (fault.request s (s.settle d)).2 = none) :
    d.key ∈ (fault.request s (s.settle d)).1.settled := by
  cases fault with
  | ok => exact List.mem_append_left _ (self_mem_covered s d)
  | dropped err | lost err => cases h

theorem settledSound_op (ch : BrokerChoice R) (s : Broker F)
    (o : HandlerOp (Delivered F.Consumer)) :
    SettledSound (R := R) (s.op R ch o).1 ⟨o, (s.op R ch o).2⟩ where
  ack d h := by
    obtain ⟨rfl, hr⟩ := Answered.mk.inj h
    exact settled_of_request s d (eq_of_heq hr)
  term d h := by
    obtain ⟨rfl, hr⟩ := Answered.mk.inj h
    exact settled_of_request s d (eq_of_heq hr)

/-- The contract of the handlers as to how they end. -/
def disposing (R : Runtime) (F : Fleet) : Contract (handlers R F) where
  guard _ _ _ := True
  post d := disposal (F.worker d.consumer) (F.natsMsg d)
  sound := SettledSound
  program d := disposal_handle (F.worker d.consumer) (F.natsMsg d)
  answer := settledSound_op
  stable hm _ hx :=
    ⟨fun d h => (handlers_grows hm).settled (hx.ack d h),
      fun d h => (handlers_grows hm).settled (hx.term d h)⟩

/-- How the delivery of a handler has ended, with the broker in state `s`. -/
inductive Concluded (s : Broker F) (th : Thread (handlers R F)) : Prop
  /-- The execution has panicked. -/
  | panicked
      (ended : Ended (F.worker th.call.consumer) (F.natsMsg th.call) th.hist .panicked)
  /-- The execution has returned nil, and the message is settled. -/
  | acknowledged
      (ended : ReturnedNil (F.worker th.call.consumer) (F.natsMsg th.call) th.hist)
      (settled : th.call.key ∈ s.settled)
  /-- The execution has failed below the limit, and the broker has been told to
  deliver the message again after the delay of the binding. -/
  | retried (body : Bytes) (err : Err)
      (ended : Ended (F.worker th.call.consumer) (F.natsMsg th.call) th.hist
        (.returned body (some err)))
      (below : th.call.number < (F.binding th.call.consumer).maxDeliver.val)
      (asked : ⟨.nakWithDelay th.call
        ((F.binding th.call.consumer).retryDelayOf th.call.number err), none⟩ ∈ th.hist)
  /-- The execution has failed at the limit, or the delivery is beyond it, and the
  message is settled. If the binding has a dead-letter subject, the handler has
  published its own letter, and a letter of the message is stored: this one, or
  that of another consumer. -/
  | terminated
      (reason : (F.binding th.call.consumer).maxDeliver.val < th.call.number ∨
        th.call.number = (F.binding th.call.consumer).maxDeliver.val ∧
          ReturnedErr (F.worker th.call.consumer) (F.natsMsg th.call) th.hist)
      (settled : th.call.key ∈ s.settled)
      (letter : (F.binding th.call.consumer).deadLetterSubject ≠ "" →
        Lettered (F.worker th.call.consumer) (F.natsMsg th.call) th.hist ∧
          ∃ record ∈ s.records, PublishedFor F th.call.sequence record)

theorem maxDeliverReached_eq_false {maxDeliver : I64} (h : 0 < maxDeliver.val) {k : ℕ} :
    maxDeliverReached k maxDeliver = false ↔ k < maxDeliver.val.toNat := by
  simp [maxDeliverReached, maxDeliveryLimit_of_pos h]

/-- Where the delivery stands to the limit of its binding. -/
theorem Exhausted.number {i : F.Consumer} {msg : NatsMsg (Delivered F.Consumer)} {k : ℕ}
    {h : HandlerHist R (Delivered F.Consumer)} (hlast : Exhausted (F.worker i) msg k h) :
    (F.binding i).maxDeliver.val < k ∨
      k = (F.binding i).maxDeliver.val ∧ ReturnedErr (F.worker i) msg h := by
  have hpos : 0 < (F.worker i).binding.maxDeliver.val := Binding.maxDeliver_pos (F.accepted i)
  unfold Fleet.binding
  rcases hlast with hexceeded | ⟨hreached, hwithin, herr⟩
  · rw [← Bool.not_eq_false, maxDeliverExceeded_eq_false hpos] at hexceeded
    exact .inl (by omega)
  · rw [← Bool.not_eq_false, maxDeliverReached_eq_false hpos] at hreached
    rw [maxDeliverExceeded_eq_false hpos] at hwithin
    exact .inr ⟨by omega, herr⟩

/-- A handler that has terminated its message has published its dead letter. -/
theorem lettered_of_term {w : World (handlers R F)} (hw : (handling R F).Ok w) {t : ℕ}
    {th : Thread (handlers R F)} (ht : w.threads[t]? = some th) {r : Option Err}
    (hterm : ⟨.term th.call, r⟩ ∈ th.hist)
    (hsubject : (F.binding th.call.consumer).deadLetterSubject ≠ "") :
    Lettered (F.worker th.call.consumer) (F.natsMsg th.call) th.hist := by
  obtain ⟨newer, older, hsplit⟩ := List.append_of_mem hterm
  have hallowed := (hw t th ht).allowed ⟨newer, hsplit.symm⟩
  have hsuf : older <:+ th.hist := by
    rw [hsplit]
    exact (List.suffix_cons _ _).trans (List.suffix_append _ _)
  obtain ⟨record, hown, hpub⟩ := hallowed.2 hsubject
  exact ⟨record, hown.mono hsuf, hsuf.subset hpub⟩

/-- In every run, a handler of a consumer with acknowledgements that has come to
its end, and none of whose requests has failed, has acknowledged its message
after a success, or has asked for it again below the limit, or has terminated it
at or beyond the limit with its dead letter published and one of the message
stored, or its execution has panicked. -/
theorem deliveries_conclude (R : Runtime) (F : Fleet) (acts : List (Act (handlers R F))) (t : ℕ)
    (th : Thread (handlers R F)) (ht : ((F.start R).run acts).threads[t]? = some th)
    (hfin : th.rest.result? = some ())
    (hp : (F.binding th.call.consumer).ackPolicy ≠ .ackNone)
    (hfree : ∀ x ∈ th.hist, refused x = false) :
    Concluded ((F.start R).run acts).state th := by
  have hok := (handling R F).ok_run (.empty F) acts
  have hdis := (disposing R F).ok_run (.empty F) acts
  have hunhindered : ¬ Hindered th.hist := by
    rintro ⟨x, hx, href⟩
    cases (hfree x hx).symm.trans href
  obtain ⟨info, hinfo, hd⟩ := hdis.post ht hfin hp hunhindered
  obtain rfl : info = F.metadata th.call := ((hok t th ht).sound _ hinfo).metadata _ _ rfl
  have hsound := (hdis t th ht).sound
  cases hd with
  | panicked ended => exact .panicked ended
  | acknowledged ended request =>
      exact .acknowledged ended ((hsound _ request).ack _ rfl)
  | retried body err ended below request =>
      have hpos : 0 < (F.worker th.call.consumer).binding.maxDeliver.val :=
        Binding.maxDeliver_pos (F.accepted _)
      rw [maxDeliverReached_eq_false hpos] at below
      refine .retried body err ended ?_ request
      change (th.call.number : ℤ) < (F.worker th.call.consumer).binding.maxDeliver.val
      change th.call.number < _ at below
      omega
  | terminated reason request =>
      refine .terminated reason.number ((hsound _ request).term _ rfl) fun hsubject => ?_
      have hlettered := lettered_of_term hok ht request hsubject
      exact ⟨hlettered, hlettered.record (lossless_run acts) ht⟩

/-- The second message of the run is dead-lettered at its last delivery. -/
theorem deliveries_conclude_orderly :
    ∃ th, ((explicitFleet.start .plain).run orderlyRun).threads[2]? = some th ∧
      th.call = ⟨(), 2, 3⟩ ∧ Concluded ((explicitFleet.start .plain).run orderlyRun).state th :=
  ⟨_, rfl, rfl, deliveries_conclude .plain explicitFleet orderlyRun 2 _ rfl rfl (by decide)
    (by decide +kernel)⟩

end

end TransportNats.Delivery
