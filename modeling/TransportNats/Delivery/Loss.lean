import TransportNats.Delivery.Guards

/-!
No message is lost silently.

A message leaves the pending set of a consumer by an acknowledgement or a
termination that took effect. Under explicit acknowledgements each of them
settles the one message its handler works on, and the handler had a reason: an
execution that returned nil, or a dead letter that is stored. The record that
is stored may be one of an earlier publish, even by another consumer, since
message ids are deduplicated; it is in any case a record of the same message,
because the id determines the sequence.

A cumulative acknowledgement settles messages that its handler knows nothing
about, and with it a failed message can be lost.
-/

namespace TransportNats.Delivery

open Interleaving Idempotency Program

theorem messageId_injective (stream : String) : Function.Injective (messageId stream) := by
  intro m n h
  have hrepr : m.repr = n.repr := (String.append_right_inj (stream ++ ":")).mp h
  -- the digits of a number say which one it is
  rw [Nat.repr_eq_ofList_toDigits, Nat.repr_eq_ofList_toDigits, String.ofList_inj] at hrepr
  rw [← Nat.ofDigitChars_ten_toDigits (n := m), hrepr, Nat.ofDigitChars_ten_toDigits]

section
variable {R : Runtime} {F : Fleet}

/-- `record` was published for message `n` by some consumer. -/
def PublishedFor (F : Fleet) (n : ℕ) (record : Record) : Prop :=
  ∃ j, LetterOf (F.binding j) (F.message n) (messageId F.stream n) record

/-- Some handler of message `n` obtained nil from its execution, from the action itself or
from the stored outcome of an earlier run, or the dead-letter stream holds a record published
for the message. -/
def Accounted (w : World (handlers R F)) (i : F.Consumer) (n : ℕ) : Prop :=
  (∃ (t : ℕ) (th : Thread (handlers R F)), w.threads[t]? = some th ∧
      th.call.consumer = i ∧ th.call.sequence = n ∧
      ReturnedNil (F.worker i) (F.natsMsg th.call) th.hist) ∨
    ∃ record ∈ w.state.records, PublishedFor F n record

theorem Accounted.mono {w w' : World (handlers R F)} {a : Act (handlers R F)}
    (hm : w.Moves a w') {i : F.Consumer} {n : ℕ} (ha : Accounted w i n) : Accounted w' i n := by
  rcases ha with ⟨t, th, ht, hi, hn, body, hret⟩ | ⟨record, hmem, hp⟩
  · obtain ⟨th', ht', hlater⟩ := hm.thread ht
    refine .inl ⟨t, th', ht', by rw [hlater.call, hi], by rw [hlater.call, hn], body, ?_⟩
    rw [hlater.call]
    exact hret.mono hlater.hist
  · exact .inr ⟨record, (handlers_grows hm).records hmem, hp⟩

/-- What the handlers of a consumer know about their own letters is right. -/
theorem OwnLetter.publishedFor {s : Broker F} {d : Delivered F.Consumer}
    {h : HandlerHist R (Delivered F.Consumer)} {record : Record}
    (ho : OwnLetter (F.worker d.consumer) (F.natsMsg d) h record)
    (hs : ∀ x ∈ h, AnswerSound s x) :
    LetterOf (F.binding d.consumer) (F.message d.sequence) (messageId F.stream d.sequence)
      record := by
  obtain ⟨info, hmem, hl⟩ := ho
  obtain rfl := (hs _ hmem).metadata _ _ rfl
  exact hl

/-! ### Explicit acknowledgements -/

/-- Every record is a dead letter of some message, and every settled message of
a consumer with explicit acknowledgements and a dead-letter subject is
accounted for. -/
structure Lossless (w : World (handlers R F)) : Prop where
  ok : (handling R F).Ok w
  records : ∀ record ∈ w.state.records, ∃ n, PublishedFor F n record
  settled : ∀ i n, (F.binding i).ackPolicy = .ackExplicit → (F.binding i).deadLetterSubject ≠ "" →
    (i, n) ∈ w.state.settled → Accounted w i n

theorem lossless_init : Lossless (F.start R) where
  ok := (handling R F).ok_init _
  records _ h := by cases h
  settled _ _ _ _ h := by cases h

/-- A handler that has published its letter leaves a record of its message. -/
theorem Lettered.record {w : World (handlers R F)} (hw : Lossless w) {t : ℕ}
    {th : Thread (handlers R F)} (ht : w.threads[t]? = some th)
    (hl : Lettered (F.worker th.call.consumer) (F.natsMsg th.call) th.hist) :
    ∃ record ∈ w.state.records, PublishedFor F th.call.sequence record := by
  have hs := (hw.ok _ _ ht).sound
  obtain ⟨record, ho, hmem⟩ := hl
  obtain ⟨record', hmem', hid⟩ := (hs _ hmem).publish _ _ _ rfl
  obtain ⟨n, j, hj⟩ := hw.records _ hmem'
  -- the stored record may be another one, but ids determine sequences
  have hn : n = th.call.sequence := by
    apply messageId_injective F.stream
    rw [← hj.id, hid, (ho.publishedFor hs).id]
  exact ⟨record', hmem', j, hn ▸ hj⟩

theorem settled_perform {w : World (handlers R F)} (hw : Lossless w) {t : ℕ}
    {ch : BrokerChoice R} {d : Delivered F.Consumer}
    {h : HandlerHist R (Delivered F.Consumer)} {o : HandlerOp (Delivered F.Consumer)}
    {k : o.Ret R → Handler R (Delivered F.Consumer) Unit}
    (ht : w.threads[t]? = some ⟨d, h, .call o k⟩) {i : F.Consumer} {n : ℕ}
    (hexp : (F.binding i).ackPolicy = .ackExplicit)
    (hsub : (F.binding i).deadLetterSubject ≠ "")
    (hmem : (i, n) ∈ (w.perform t ch d h o k).state.settled) :
    (i, n) ∈ w.state.settled ∨ Accounted w i n := by
  have hnot : (F.binding i).ackPolicy ≠ .ackAll := by rw [hexp]; exact nofun
  have hg := hw.ok.guard ht
  rcases op_effect ch w.state o with heq | heff
  · left
    rw [← heq]
    exact hmem
  · change (i, n) ∈ (w.state.op R ch o).1.settled at hmem
    generalize (w.state.op R ch o).1 = s' at heff hmem
    cases heff with
    | ackSync d' =>
        obtain ⟨rfl, body, hret⟩ := hg
        refine (List.mem_append.mp hmem).symm.imp id fun hc => ?_
        obtain ⟨rfl, rfl⟩ := mem_covered hnot hc
        exact .inl ⟨t, _, ht, rfl, rfl, body, hret⟩
    | term d' =>
        obtain ⟨rfl, hletter⟩ := hg
        refine (List.mem_append.mp hmem).symm.imp id fun hc => ?_
        obtain ⟨rfl, rfl⟩ := mem_covered hnot hc
        exact .inr (Lettered.record hw ht (hletter hsub))
    | publish subject id letter =>
        left
        unfold Broker.store at hmem
        split at hmem <;> exact hmem

theorem records_perform {w : World (handlers R F)} (hw : Lossless w) {t : ℕ}
    {ch : BrokerChoice R} {d : Delivered F.Consumer}
    {h : HandlerHist R (Delivered F.Consumer)} {o : HandlerOp (Delivered F.Consumer)}
    {k : o.Ret R → Handler R (Delivered F.Consumer) Unit}
    (ht : w.threads[t]? = some ⟨d, h, .call o k⟩) {record : Record}
    (hmem : record ∈ (w.perform t ch d h o k).state.records) :
    ∃ n, PublishedFor F n record := by
  have hg := hw.ok.guard ht
  rcases op_effect ch w.state o with heq | heff
  · exact hw.records _ (heq ▸ hmem)
  · change record ∈ (w.state.op R ch o).1.records at hmem
    generalize (w.state.op R ch o).1 = s' at heff hmem
    cases heff with
    | ackSync d' => exact hw.records _ hmem
    | term d' => exact hw.records _ hmem
    | publish subject id letter =>
        rcases mem_store hmem with hmem | rfl
        · exact hw.records _ hmem
        · exact ⟨d.sequence, d.consumer, hg.1.publishedFor (hw.ok _ _ ht).sound⟩

theorem lossless_moves {w w' : World (handlers R F)} {a : Act (handlers R F)}
    (hm : w.Moves a w') (hw : Lossless w) : Lossless w' := by
  have hok := (handling R F).ok_moves hm hw.ok
  refine ⟨hok, ?_, fun i n hexp hsub hmem => ?_⟩
  · cases hm with
    | idle => exact hw.records
    | enter h =>
        rw [(delivers_of_deliver h).records]
        exact hw.records
    | @perform t ch d h o k ht => exact fun _ => records_perform hw ht
    | env e => exact e.elim
  · have hold : (i, n) ∈ w.state.settled → Accounted w' i n :=
      fun h => (hw.settled i n hexp hsub h).mono hm
    cases hm with
    | idle => exact hold hmem
    | @enter d s h =>
        refine hold ?_
        rcases (delivers_of_deliver h).settled with hs | ⟨hnone, hs⟩
        · exact hs ▸ hmem
        · rcases List.mem_cons.mp (hs ▸ hmem) with heq | hmem
          · obtain ⟨rfl, rfl⟩ := Prod.mk.inj heq
            exact absurd (hexp.symm.trans hnone) nofun
          · exact hmem
    | @perform t ch d h o k ht =>
        rcases settled_perform hw ht hexp hsub hmem with h | h
        · exact hold h
        · exact h.mono (.perform ht)
    | env e => exact e.elim

theorem lossless_run (acts : List (Act (handlers R F))) : Lossless ((F.start R).run acts) :=
  World.run_invariant lossless_moves lossless_init acts

/-- No silent loss on the durable path. Whatever fails in a run, a message of a
durable consumer stops being pending only if a handler of it obtained nil from
the action, or the dead-letter stream holds a record published for it. -/
theorem durable_no_silent_loss (R : Runtime) (F : Fleet) (i : F.Consumer) (b : DurableBinding)
    (hb : F.binding i = .durable b) (acts : List (Act (handlers R F))) (n : ℕ)
    (hs : (i, n) ∈ ((F.start R).run acts).state.settled) :
    Accounted ((F.start R).run acts) i n := by
  have hacc : validateDurableBinding b = none := by
    have h := F.accepted i
    rwa [show (F.worker i).binding = .durable b from hb] at h
  refine (lossless_run acts).settled i n (by rw [hb]; rfl) ?_ hs
  rw [hb]
  exact (accepted_of_validateDurableBinding hacc).1

end

/-! ### One consumer -/

/-- A stream with one consumer, whose action is not idempotent. -/
def Fleet.single (B : Binding) (h : B.validate = none) : Fleet where
  stream := B.stream
  message _ := sampleMsg
  Consumer := Unit
  decEq := inferInstance
  worker _ := ⟨B, none, .legacy⟩
  accepted _ := h
  bound _ := rfl
  named _ _ _ := rfl

/-- The answers of a run of the action that ends with `outcome`. -/
def acting (outcome : Outcome Bytes) (fault : BrokerFault) : BrokerChoice .plain where
  fault := fault
  answers o := (execOp .plain { outcome := outcome } (.fresh .zero []) o).2

def handlerSteps {F : Fleet} (t n : ℕ) (ch : BrokerChoice .plain) :
    List (Act (handlers .plain F)) :=
  List.replicate n (.step t ch)

def sampleDurable : DurableBinding :=
  ⟨"S", "work", "D", "dead", .one, 1, 1, 1⟩

def sampleFleet : Fleet := .single (.durable sampleDurable) (by decide)

/-- The action fails on the last delivery, and the reply to the termination is
lost. -/
def deadLettered : List (Act (handlers .plain sampleFleet)) :=
  .spawn ⟨(), 1, 1⟩ ::
    handlerSteps 0 5 (acting (.failed (.other "failed" none)) .ok) ++
    handlerSteps 0 1 (acting .panicked (.lost (.other "timeout" none)))

theorem durable_no_silent_loss_dead_lettered :
    sampleFleet.binding () = .durable sampleDurable ∧
      ((), 1) ∈ ((sampleFleet.start .plain).run deadLettered).state.settled ∧
      Accounted ((sampleFleet.start .plain).run deadLettered) () 1 :=
  have hs : ((), 1) ∈ ((sampleFleet.start .plain).run deadLettered).state.settled :=
    List.mem_cons_self
  ⟨rfl, hs, durable_no_silent_loss .plain sampleFleet () sampleDurable rfl deadLettered 1 hs⟩

/-! ### Cumulative acknowledgements -/

section
variable {R : Runtime} {D : Type}

/-- An execution without idempotency is one run of the action. -/
theorem returns_plain {kind : StoreKind} {m : Msg} {hk : ExecHist R} {reply : Reply}
    (h : (execution R kind none m).Returns hk reply) :
    ∃ outcome, hk = [⟨.executeDecoded m, outcome⟩] ∧
      ((∃ v, outcome = .value v) ↔ ∃ body, reply = .returned body none) := by
  cases h with
  | @call _ _ outcome _ _ h =>
      cases outcome with
      | value v =>
          cases h
          exact ⟨_, rfl, by simp⟩
      | failed err =>
          cases h
          exact ⟨_, rfl, by simp⟩
      | panicked =>
          cases h
          exact ⟨_, rfl, by simp⟩

theorem ReturnedNil.actionOk {W : Worker} {msg : NatsMsg D} {h : HandlerHist R D}
    (hmeta : W.actionMeta = none) (hn : ReturnedNil W msg h) : ActionOk msg h := by
  obtain ⟨body, hk, h₀, hsuf, hret⟩ := hn
  rw [hmeta] at hret
  obtain ⟨outcome, rfl, hiff⟩ := returns_plain hret
  obtain ⟨v, rfl⟩ := hiff.mpr ⟨body, rfl⟩
  exact ⟨v, hsuf.subset (List.mem_append_left _ List.mem_cons_self)⟩

/-- The requests of a delivery within the limit whose action succeeds. -/
theorem handle_of_ok {b : ConsumerBinding} (hp : b.ackPolicy ≠ .ackNone) (kind : StoreKind)
    (msg : NatsMsg D) :
    ∃ k, handleConsumerMessage (R := R) kind b none msg = .call (.metadata msg.reply) k ∧
      ∀ info, maxDeliverExceeded info.numDelivered b.maxDeliver = false →
        ∃ k', k (.ok info) = .call (.exec (.executeDecoded msg.toMsg)) k' ∧
          ∀ v, ∃ k'', k' (.value v) = .call (.ackSync msg.reply) k'' := by
  unfold handleConsumerMessage
  rw [if_neg hp]
  refine ⟨_, rfl, fun info hlim => ?_⟩
  change ∃ k', (if maxDeliverExceeded info.numDelivered b.maxDeliver then _ else _) = _ ∧ _
  rw [if_neg (by rw [hlim]; exact Bool.false_ne_true)]
  refine ⟨_, rfl, fun v => ?_⟩
  change ∃ k'', (if b.ackPolicy = .ackNone then _ else _) = _
  rw [if_neg hp]
  exact ⟨_, rfl⟩

end

/-- A delivery whose action succeeds and whose requests are all answered. -/
def okDelivery {F : Fleet} (t : ℕ) : List (Act (handlers .plain F)) :=
  handlerSteps t 3 (acting (.value []) .ok)

theorem run_okDelivery {F : Fleet} {w : World (handlers .plain F)} {t : ℕ}
    {d : Delivered F.Consumer} {b : ConsumerBinding} {kind : StoreKind}
    (hW : F.worker d.consumer = ⟨.consumer b, none, kind⟩) (hp : b.ackPolicy ≠ .ackNone)
    (hlim : maxDeliverExceeded d.number b.maxDeliver = false)
    (ht : w.threads[t]? = some (.start d)) :
    (w.run (okDelivery t)).state = w.state.settle d ∧
      ∀ u, u ≠ t → (w.run (okDelivery t)).threads[u]? = w.threads[u]? := by
  obtain ⟨k, hk, hok⟩ := handle_of_ok (R := .plain) hp kind (F.natsMsg d)
  obtain ⟨k', hk', hok'⟩ := hok (F.metadata d) hlim
  obtain ⟨k'', hk''⟩ := hok' []
  let ch : BrokerChoice .plain := acting (.value []) .ok
  have ht₁ : w.threads[t]? = some ⟨d, [], .call (.metadata d) k⟩ := by
    have hprog : (F.worker d.consumer).handle .plain (F.natsMsg d) = .call (.metadata d) k := by
      rw [hW]
      exact hk
    rw [ht]
    exact congrArg (fun p => some (Thread.mk (M := handlers .plain F) d [] p)) hprog
  have ht₂ := World.getElem?_act_step ch ht₁
  change _ = some (Thread.mk (M := handlers .plain F) d _ (k (.ok (F.metadata d)))) at ht₂
  rw [hk'] at ht₂
  have ht₃ := World.getElem?_act_step ch ht₂
  change _ = some (Thread.mk (M := handlers .plain F) d _ (k' (.value []))) at ht₃
  rw [hk''] at ht₃
  change (((w.act (.step t ch)).act (.step t ch)).act (.step t ch)).state = _ ∧
    ∀ u, u ≠ t → (((w.act (.step t ch)).act (.step t ch)).act (.step t ch)).threads[u]? = _
  refine ⟨?_, fun u hu => ?_⟩
  · rw [World.act_step ch ht₃, World.act_step ch ht₂, World.act_step ch ht₁]
    rfl
  · have hne : ∀ w' : World (handlers .plain F),
        (w'.act (.step t ch)).threads[u]? = w'.threads[u]? :=
      fun w' => World.getElem?_act_step_ne (M := handlers .plain F) ch hu
    rw [hne, hne, hne]

theorem deliver_of_fresh {F : Fleet} {s : Broker F} {d : Delivered F.Consumer}
    (hnum : d.number ≠ 0) (hfresh : d ∉ s.handed)
    (hp : (F.binding d.consumer).ackPolicy ≠ .ackNone) :
    s.deliver d = some { s with handed := d :: s.handed } := by
  rw [Broker.deliver, if_neg (not_or.mpr ⟨hnum, hfresh⟩), if_neg hp]

theorem mem_covered_of_ackAll {F : Fleet} {s : Broker F} {d e : Delivered F.Consumer}
    (hall : (F.binding d.consumer).ackPolicy = .ackAll) (he : e ∈ s.handed)
    (hc : e.consumer = d.consumer) (hle : e.sequence ≤ d.sequence) :
    (e.consumer, e.sequence) ∈ s.covered d := by
  rw [Broker.covered, if_pos hall]
  exact List.mem_cons_of_mem _ (List.mem_map.mpr ⟨e, by simp [he, hc, hle], rfl⟩)

/-- Two messages are delivered, and only the second one is handled. -/
def secondOnly {F : Fleet} (i : F.Consumer) : List (Act (handlers .plain F)) :=
  .spawn ⟨i, 1, 1⟩ :: .spawn ⟨i, 2, 1⟩ :: okDelivery 1

/-- The acknowledgement of the second message settles the first one, whose
handler has not done anything. -/
theorem lost_of_ackAll {F : Fleet} {i : F.Consumer} {b : ConsumerBinding} {kind : StoreKind}
    (hW : F.worker i = ⟨.consumer b, none, kind⟩) (hall : b.ackPolicy = .ackAll) :
    (i, 1) ∈ ((F.start .plain).run (secondOnly i)).state.settled ∧
      ¬ Accounted ((F.start .plain).run (secondOnly i)) i 1 := by
  have hb : F.binding i = .consumer b := congrArg Worker.binding hW
  have hall' : (F.binding i).ackPolicy = .ackAll := by rw [hb]; exact hall
  have hp : (F.binding i).ackPolicy ≠ .ackNone := by rw [hall']; exact nofun
  have hlim : maxDeliverExceeded 1 b.maxDeliver = false := by
    have hpos := Binding.maxDeliver_pos (F.accepted i)
    rw [hW] at hpos
    have hpos : 0 < b.maxDeliver.val := hpos
    exact (maxDeliverExceeded_eq_false hpos).mpr (by omega)
  -- the world after both deliveries
  have hempty : (Broker.empty F).deliver ⟨i, 1, 1⟩ = some ⟨[⟨i, 1, 1⟩], [], []⟩ :=
    deliver_of_fresh Nat.one_ne_zero List.not_mem_nil hp
  have h₁ : (F.start .plain).act (.spawn ⟨i, 1, 1⟩) =
      ⟨⟨[⟨i, 1, 1⟩], [], []⟩, [.start ⟨i, 1, 1⟩]⟩ :=
    World.act_spawn (M := handlers .plain F) hempty
  have h₂ : World.act (M := handlers .plain F) ⟨⟨[⟨i, 1, 1⟩], [], []⟩, [.start ⟨i, 1, 1⟩]⟩
      (.spawn ⟨i, 2, 1⟩) =
      ⟨⟨[⟨i, 2, 1⟩, ⟨i, 1, 1⟩], [], []⟩, [.start ⟨i, 1, 1⟩, .start ⟨i, 2, 1⟩]⟩ :=
    World.act_spawn (M := handlers .plain F) (deliver_of_fresh Nat.one_ne_zero (by simp) hp)
  rw [secondOnly, World.run_cons, World.run_cons, h₁, h₂]
  obtain ⟨hstate, hthreads⟩ := run_okDelivery (F := F) (t := 1) (d := ⟨i, 2, 1⟩)
    (w := ⟨⟨[⟨i, 2, 1⟩, ⟨i, 1, 1⟩], [], []⟩, [.start ⟨i, 1, 1⟩, .start ⟨i, 2, 1⟩]⟩) hW
    (by rw [hall]; exact nofun) hlim rfl
  constructor
  · rw [hstate]
    exact List.mem_append_left _ (mem_covered_of_ackAll (e := ⟨i, 1, 1⟩) hall'
      (List.mem_cons_of_mem _ List.mem_cons_self) rfl (Nat.le_succ 1))
  · rintro (⟨t, th, ht, -, hn, hret⟩ | ⟨record, hmem, -⟩)
    · by_cases htt : t = 1
      · -- the handler of the second message
        subst htt
        obtain ⟨th', ht', hlater⟩ := World.thread_run (M := handlers .plain F) (t := 1)
          (w := ⟨⟨[⟨i, 2, 1⟩, ⟨i, 1, 1⟩], [], []⟩, [.start ⟨i, 1, 1⟩, .start ⟨i, 2, 1⟩]⟩) rfl
          (okDelivery 1)
        obtain rfl := Option.some.inj (ht.symm.trans ht')
        rw [hlater.call] at hn
        exact absurd hn (by simp [Thread.start])
      · rw [hthreads t htt] at ht
        have hth : th = .start ⟨i, 1, 1⟩ := by
          rcases t with _ | _ | t
          · exact (Option.some.inj ht).symm
          · exact absurd rfl htt
          · cases ht
        subst hth
        obtain ⟨v, hv⟩ := hret.actionOk (congrArg Worker.actionMeta hW)
        cases hv
    · rw [hstate] at hmem
      cases hmem

/-- In every run with any consumers of the stream, every message that stops
being pending on consumer `i` is accounted for. -/
def NoSilentLoss (R : Runtime) (F : Fleet) (i : F.Consumer) : Prop :=
  ∀ (acts : List (Act (handlers R F))) (n : ℕ),
    (i, n) ∈ ((F.start R).run acts).state.settled → Accounted ((F.start R).run acts) i n

/-- A consumer binding that is accepted and dead-letters loses no message
silently, in whatever company it is used, exactly if it acknowledges
explicitly. -/
theorem noSilentLoss_iff_ackExplicit (b : ConsumerBinding)
    (hacc : validateConsumerBinding b = none) (hsub : b.deadLetterSubject ≠ "") :
    (∀ (R : Runtime) (F : Fleet) (i : F.Consumer), F.binding i = .consumer b →
      NoSilentLoss R F i) ↔ b.ackPolicy = .ackExplicit := by
  constructor
  · intro hno
    rcases Binding.ackPolicy_of_deadLetter hacc hsub with hexp | hall
    · exact hexp
    · obtain ⟨hs, hlost⟩ := lost_of_ackAll (F := .single (.consumer b) hacc) (i := ()) rfl hall
      exact absurd (hno .plain (.single (.consumer b) hacc) () rfl _ 1 hs) hlost
  · intro hexp R F i hb acts n hs
    exact (lossless_run acts).settled i n (by rw [hb]; exact hexp) (by rw [hb]; exact hsub) hs

/-- A binding with a dead-letter subject that is accepted. -/
def sampleConsumer (ackPolicy : AckPolicy) : ConsumerBinding where
  stream := "S"
  subject := "work"
  durable := "C"
  ackPolicy := ackPolicy
  maxDeliver := ⟨3, by decide, by decide⟩
  ackWait := 1
  maxAckPending := 2
  deadLetterSubject := "dead"

/-- With explicit acknowledgements the sample binding loses nothing. -/
theorem noSilentLoss_sample :
    validateConsumerBinding (sampleConsumer .ackExplicit) = none ∧
      ∀ (R : Runtime) (F : Fleet) (i : F.Consumer),
        F.binding i = .consumer (sampleConsumer .ackExplicit) → NoSilentLoss R F i :=
  ⟨by decide, (noSilentLoss_iff_ackExplicit (sampleConsumer .ackExplicit) (by decide)
    (by decide)).mpr rfl⟩

def ackAllFleet : Fleet := .single (.consumer (sampleConsumer .ackAll)) (by decide)

/-- The action fails on the first message, which is to be delivered again, and
succeeds on the second one. -/
def failThenOk : List (Act (handlers .plain ackAllFleet)) :=
  .spawn ⟨(), 1, 1⟩ :: handlerSteps 0 3 (acting (.failed (.other "failed" none)) .ok) ++
    .spawn ⟨(), 2, 1⟩ :: okDelivery 1

/-- Under cumulative acknowledgements the failed message is lost: it is not
pending any more, nobody has obtained nil for it, and there is no dead letter. -/
theorem ackAll_loses_failed_message :
    validateConsumerBinding (sampleConsumer .ackAll) = none ∧
      (sampleConsumer .ackAll).deadLetterSubject ≠ "" ∧
      ((), 1) ∈ ((ackAllFleet.start .plain).run failThenOk).state.settled ∧
      ¬ Accounted ((ackAllFleet.start .plain).run failThenOk) () 1 := by
  refine ⟨by decide, by decide, List.mem_cons_of_mem _ (List.mem_cons_of_mem _ List.mem_cons_self),
    ?_⟩
  rintro (⟨t, th, ht, -, hn, hret⟩ | ⟨record, hmem, -⟩)
  · obtain ⟨v, hv⟩ := hret.actionOk rfl
    rcases t with _ | _ | t
    · -- metadata, a failed run of the action, and a request for redelivery
      obtain rfl := Option.some.inj ht
      rcases hv with _ | ⟨_, _ | ⟨_, _ | ⟨_, hv⟩⟩⟩
      cases hv
    · obtain rfl := Option.some.inj ht
      cases hn
    · cases ht
  · cases hmem

end TransportNats.Delivery
