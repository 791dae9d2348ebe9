import TransportNats.Delivery.Loss

/-!
Dead letters of different consumers.

The message id of a dead letter names the stream and the sequence but not the
consumer, and all consumers of a stream dead-letter into one stream. If two of
them fail on the same message, the second publish is taken for a repetition of
the first: it is reported as a success and not stored, and the second consumer
terminates a message that it has no letter of.

Nothing else can go wrong. As long as no publish meets a record of another
consumer under its id, every termination finds the letter of its own consumer.
-/

namespace TransportNats.Delivery

open Interleaving Idempotency Program

section
variable {R : Runtime} {F : Fleet}

/-- Whoever terminates a message through dead-lettering has its letter stored:
on the dead-letter subject of that very consumer, with its name, and with the
payload of the message. -/
def TermHasLetter (w : World (handlers R F)) (a : Act (handlers R F)) : Prop :=
  match w.performs? a with
  | some (d, .term _) =>
      (F.binding d.consumer).deadLetterSubject ≠ "" → ∃ record ∈ w.state.records,
        LetterOf (F.binding d.consumer) (F.message d.sequence) (messageId F.stream d.sequence)
          record
  | _ => True

/-- Whoever publishes a dead letter finds no record of another consumer under
its message id. -/
def IdUnshared (w : World (handlers R F)) (a : Act (handlers R F)) : Prop :=
  match w.performs? a with
  | some (_, .publish _ id letter) =>
      ∀ record ∈ w.state.records, record.id = id → record.letter.durable = letter.durable
  | _ => True

instance (w : World (handlers R F)) (a : Act (handlers R F)) : Decidable (IdUnshared w a) := by
  unfold IdUnshared
  split <;> infer_instance

/-- Every letter published in the history `h` left a record of its consumer. -/
def Stored (s : Broker F) (h : HandlerHist R (Delivered F.Consumer)) : Prop :=
  ∀ subject id letter, ⟨.publish subject id letter, none⟩ ∈ h →
    ∃ record ∈ s.records, record.id = id ∧ record.letter.durable = letter.durable

theorem Stored.mono {s s' : Broker F} {h : HandlerHist R (Delivered F.Consumer)}
    (hs : Stored s h) (hg : Grows s s') : Stored s' h := by
  intro subject id letter hmem
  obtain ⟨record, hr, hrecord⟩ := hs subject id letter hmem
  exact ⟨record, hg.records hr, hrecord⟩

structure OwnRecords (w : World (handlers R F)) : Prop where
  lossless : Lossless w
  stored : ∀ (t : ℕ) (th : Thread (handlers R F)), w.threads[t]? = some th →
    Stored w.state th.hist

theorem ownRecords_init : OwnRecords (F.start R) where
  lossless := lossless_init
  stored _ _ ht := by simp [Fleet.start, World.init] at ht

/-- A publish that is reported as a success has its own record, or one that was
there under the id. -/
theorem stored_of_publish {s : Broker F} {ch : BrokerChoice R} {subject id : String}
    {letter : DeadLetter} (hnone : (s.op R ch (.publish subject id letter)).2 = none)
    (hid : ∀ record ∈ s.records, record.id = id → record.letter.durable = letter.durable) :
    ∃ record ∈ (s.op R ch (.publish subject id letter)).1.records,
      record.id = id ∧ record.letter.durable = letter.durable := by
  simp only [Broker.op] at hnone ⊢
  cases hf : ch.fault with
  | ok =>
      obtain ⟨-, record, hmem, hrid⟩ := records_store s ⟨subject, id, letter⟩
      refine ⟨record, hmem, hrid, ?_⟩
      rcases mem_store hmem with hold | rfl
      · exact hid record hold hrid
      · rfl
  | dropped err | lost err =>
      rw [hf] at hnone
      cases hnone

theorem ownRecords_moves {w w' : World (handlers R F)} {a : Act (handlers R F)}
    (hm : w.Moves a w') (hC : IdUnshared w a) (hw : OwnRecords w) : OwnRecords w' := by
  have hgrows := handlers_grows hm
  refine ⟨lossless_moves hm hw.lossless, hm.forall_threads (P := fun s th => Stored s th.hist)
    hw.stored (fun _ h => h.mono hgrows) (fun _ _ _ _ h => by cases h) ?_⟩
  intro t ch d h o k ha ht hs subject id letter hmem
  rcases List.mem_cons.mp hmem with heq | hmem
  · obtain ⟨rfl, hr⟩ := Answered.mk.inj heq
    subst ha
    simp only [IdUnshared, World.performs?_step ch ht] at hC
    rw [hs]
    exact stored_of_publish (eq_of_heq hr).symm hC
  · exact (hw.stored _ _ ht).mono hgrows subject id letter hmem

/-- The letter that a handler has published is stored as its own. -/
theorem OwnRecords.letter {w : World (handlers R F)} (hw : OwnRecords w) {t : ℕ}
    {th : Thread (handlers R F)} (ht : w.threads[t]? = some th)
    (hl : Lettered (F.worker th.call.consumer) (F.natsMsg th.call) th.hist) :
    ∃ record ∈ w.state.records, LetterOf (F.binding th.call.consumer)
      (F.message th.call.sequence) (messageId F.stream th.call.sequence) record := by
  obtain ⟨sent, ho, hpub⟩ := hl
  have hsent := ho.publishedFor (hw.lossless.ok _ _ ht).sound
  obtain ⟨record, hmem, hid, hdur⟩ := hw.stored _ _ ht _ _ _ hpub
  obtain ⟨n, j, hj⟩ := hw.lossless.records _ hmem
  -- the name determines the consumer, and the id the sequence
  have hcons : j = th.call.consumer := by
    apply F.named
    exact hj.durable.symm.trans (hdur.trans hsent.durable)
  have hn : n = th.call.sequence := by
    apply messageId_injective F.stream
    rw [← hj.id, hid, hsent.id]
  subst hcons hn
  exact ⟨record, hmem, hj⟩

theorem OwnRecords.termHasLetter {w : World (handlers R F)} (hw : OwnRecords w)
    (a : Act (handlers R F)) : TermHasLetter w a := by
  unfold TermHasLetter
  split
  · rename_i d d' hperf
    obtain ⟨t, ch, h, k, rfl, ht⟩ := World.exists_of_performs? hperf
    intro hsub
    exact hw.letter ht ((hw.lossless.ok.guard ht).2 hsub)
  · trivial

/-- In every run in which no publish of a dead letter meets a record of another
consumer under its message id, every message that is terminated through
dead-lettering has the letter of its own consumer stored. -/
theorem letter_of_idUnshared (R : Runtime) (F : Fleet) (acts : List (Act (handlers R F)))
    (hC : World.Always IdUnshared (F.start R) acts) :
    World.Always TermHasLetter (F.start R) acts :=
  hC.imp ownRecords_moves (fun _ hw => hw.termHasLetter _) ownRecords_init

end

/-! ### Two consumers of one stream -/

/-- A pull consumer and a durable consumer that dead-letter to subjects of
their own, each at the first failure. -/
def pairFleet : Fleet where
  stream := "S"
  message _ := sampleMsg
  Consumer := Bool
  decEq := inferInstance
  worker
    | false =>
        ⟨.consumer { sampleConsumer .ackExplicit with
          maxDeliver := .one, deadLetterSubject := "dead.c" }, none, .legacy⟩
    | true => ⟨.durable sampleDurable, none, .legacy⟩
  accepted i := by cases i <;> decide
  bound i := by cases i <;> rfl
  named i j h := by
    revert h
    cases i <;> cases j <;> decide

/-- The action fails, and the requests of the handler are all answered. -/
def failing : BrokerChoice .plain := acting (.failed (.other "failed" none)) .ok

def separateLetters : List (Act (handlers .plain pairFleet)) :=
  .spawn ⟨false, 1, 1⟩ :: handlerSteps 0 6 failing ++
    .spawn ⟨true, 2, 1⟩ :: handlerSteps 1 6 failing

/-- The consumers fail on different messages, and both letters are stored. -/
theorem letter_of_idUnshared_separate :
    World.Always IdUnshared (pairFleet.start .plain) separateLetters ∧
      World.Always TermHasLetter (pairFleet.start .plain) separateLetters :=
  have hC : World.Always IdUnshared (pairFleet.start .plain) separateLetters := by
    decide +kernel
  ⟨hC, letter_of_idUnshared .plain pairFleet separateLetters hC⟩

/-- Both consumers fail on the first message, up to the termination by the
second of them. -/
def sameMessage : List (Act (handlers .plain pairFleet)) :=
  .spawn ⟨false, 1, 1⟩ :: handlerSteps 0 6 failing ++
    .spawn ⟨true, 1, 1⟩ :: handlerSteps 1 5 failing

/-- The durable consumer is about to terminate the message, and there is no
dead letter with its name. -/
theorem dead_letter_suppressed :
    ((pairFleet.start .plain).run sameMessage).performs? (.step 1 failing) =
        some (⟨true, 1, 1⟩, .term ⟨true, 1, 1⟩) ∧
      (∀ record ∈ ((pairFleet.start .plain).run sameMessage).state.records,
        record.letter.durable ≠ (pairFleet.binding true).name) ∧
      ¬ World.Always TermHasLetter (pairFleet.start .plain)
        (sameMessage ++ [.step 1 failing]) := by
  have hperf : ((pairFleet.start .plain).run sameMessage).performs? (.step 1 failing) =
      some (⟨true, 1, 1⟩, .term ⟨true, 1, 1⟩) := rfl
  have hnone : ∀ record ∈ ((pairFleet.start .plain).run sameMessage).state.records,
      record.letter.durable ≠ (pairFleet.binding true).name := by
    decide +kernel
  refine ⟨hperf, hnone, fun hall => ?_⟩
  have hterm := (World.always_append.mp hall).2.1
  simp only [TermHasLetter, hperf] at hterm
  obtain ⟨record, hmem, hletter⟩ := hterm (by decide)
  exact hnone record hmem hletter.durable

end TransportNats.Delivery
