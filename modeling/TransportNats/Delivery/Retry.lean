import TransportNats.Delivery.Executions
import TransportNats.Idempotency.Endings

/-!
Dead letters of messages that were handled.

A delivery beyond the limit is dead-lettered without a look at the action. The
handlers take it for the repetition of a dead letter that could not be
published, but it may also be the repetition of a success whose acknowledgement
got lost: with a limit of one, a single lost acknowledgement is enough.

If every acknowledgement takes effect, no delivery starts while the message is
settled or in other hands, and nothing that an idempotent execution does after a
success of its action fails, then a success is the last thing that happens to a
message.
-/

namespace TransportNats.Delivery

open Interleaving Idempotency Program

/-- The message of a delivery, as its consumer counts it. -/
def Delivered.key {C : Type} (d : Delivered C) : C × ℕ := (d.consumer, d.sequence)

section
variable {R : Runtime} {F : Fleet}

/-- Whoever publishes a dead letter does it for a message on which the action
has not succeeded. -/
def NoLetterAfterSuccess (w : World (handlers R F)) (a : Act (handlers R F)) : Prop :=
  match w.performs? a with
  | some (d, .publish _ _ _) =>
      (F.binding d.consumer).ackPolicy = .ackExplicit →
        ∀ (t : ℕ) (th : Thread (handlers R F)), w.threads[t]? = some th →
          th.call.key = d.key → ¬ ActionOk (F.natsMsg th.call) th.hist
  | _ => True

/-! ### Conditions -/

/-- The action is an acknowledgement that does not reach the broker. -/
def dropsAck (w : World (handlers R F)) (a : Act (handlers R F)) : Bool :=
  match w.performs? a, a with
  | some (_, .ackSync _), .step _ ch => (ch.fault matches .dropped _)
  | _, _ => false

/-- An acknowledgement takes effect, even if its reply is lost. -/
def AckApplied (w : World (handlers R F)) (a : Act (handlers R F)) : Prop := dropsAck w a = false

instance (w : World (handlers R F)) (a : Act (handlers R F)) : Decidable (AckApplied w a) :=
  inferInstanceAs (Decidable (_ = _))

/-- A message is delivered only while it is pending and no handler of it is at
work. -/
def DeliveredAlone (w : World (handlers R F)) (a : Act (handlers R F)) : Prop :=
  match a with
  | .spawn d => d.key ∉ w.state.settled ∧
      ∀ th ∈ w.threads, th.call.key = d.key → th.rest.result?.isSome
  | _ => True

instance (w : World (handlers R F)) (a : Act (handlers R F)) :
    Decidable (DeliveredAlone w a) := by
  unfold DeliveredAlone
  split <;> infer_instance

/-- Nothing has failed that an idempotent execution does after a success of its
action: no renewal of its lease, no marshalling of the result, and no `Complete`. -/
def NoLateFailure (w : World (handlers R F)) (_ : Act (handlers R F)) : Prop :=
  ∀ (t : ℕ) (th : Thread (handlers R F)) (cfg : IdempotencyConfig) (v : R.Value),
    w.threads[t]? = some th → (F.worker th.call.consumer).actionMeta = some cfg →
    ⟨.exec (.executeDecoded (F.message th.call.sequence)), .value v⟩ ∈ th.hist →
      (∀ err, ⟨.exec .renewalError, some err⟩ ∉ th.hist) ∧
      (∃ body, R.marshal v = .ok body) ∧
      ∀ hk h₀ reply, hk.map (execEmbedding R (Delivered F.Consumer)).answered ++ h₀ <:+ th.hist →
        (execution R (F.worker th.call.consumer).kind (some cfg)
          (F.message th.call.sequence)).Returns hk reply →
        ¬ CompleteRefused R cfg (F.message th.call.sequence) (F.worker th.call.consumer).kind hk

/-! ### Success comes last -/

/-- If the handler has asked for an acknowledgement, the message is settled. -/
def AckSettles (s : Broker F) (th : Thread (handlers R F)) : Prop :=
  ∀ r, ⟨.ackSync th.call, r⟩ ∈ th.hist → th.call.key ∈ s.settled

/-- At most one handler of a message is at work, and while one is, no other has
succeeded. -/
structure SuccessLast (w : World (handlers R F)) : Prop where
  ok : (handling R F).Ok w
  acked : ∀ (t : ℕ) (th : Thread (handlers R F)), w.threads[t]? = some th →
    AckSettles w.state th
  alone : ∀ (t u : ℕ) (th th' : Thread (handlers R F)), w.threads[t]? = some th →
    w.threads[u]? = some th' → th.call.key = th'.call.key →
    th.rest.result? = none → th'.rest.result? = none → t = u
  last : ∀ (t u : ℕ) (th th' : Thread (handlers R F)), w.threads[t]? = some th →
    w.threads[u]? = some th' → th.call.key = th'.call.key →
    (F.binding th.call.consumer).ackPolicy = .ackExplicit → th.rest.result? = none →
    ActionOk (F.natsMsg th'.call) th'.hist → t = u

theorem successLast_init : SuccessLast (F.start R) where
  ok := (handling R F).ok_init _
  acked _ _ ht := by simp [Fleet.start, World.init] at ht
  alone _ _ _ _ ht := by simp [Fleet.start, World.init] at ht
  last _ _ _ _ ht := by simp [Fleet.start, World.init] at ht

theorem acked_moves {w w' : World (handlers R F)} {a : Act (handlers R F)}
    (hm : w.Moves a w') (hC : AckApplied w a) (hw : SuccessLast w) :
    ∀ (t : ℕ) (th : Thread (handlers R F)), w'.threads[t]? = some th →
      AckSettles w'.state th := by
  have hgrows := handlers_grows hm
  refine hm.forall_threads hw.acked (fun th h r hr => hgrows.settled (h r hr))
    (fun _ _ h => by cases h) ?_
  intro t ch d h o k ha ht hs (r : Option Err)
    (hr : (⟨.ackSync d, r⟩ : Answered (handlerSig R (Delivered F.Consumer))) ∈
      ⟨o, (w.state.op R ch o).2⟩ :: h)
  rcases List.mem_cons.mp hr with heq | hr
  · obtain ⟨rfl, -⟩ := Answered.mk.inj heq
    subst ha
    simp only [AckApplied, dropsAck, World.performs?_step ch ht] at hC
    rw [hs]
    change d.key ∈ (ch.fault.request w.state (w.state.settle d)).1.settled
    cases hf : ch.fault with
    | ok => exact List.mem_append_left _ (self_mem_covered w.state d)
    | lost err => exact List.mem_append_left _ (self_mem_covered w.state d)
    | dropped err =>
        rw [hf] at hC
        cases hC
  · have hold := hw.acked t ⟨d, h, .call o k⟩ ht r hr
    exact hgrows.settled hold

/-- A handler that is at work after a step was at work before it. -/
theorem running_before {w : World (handlers R F)} {v : ℕ} {ch : BrokerChoice R}
    {d : Delivered F.Consumer} {h : HandlerHist R (Delivered F.Consumer)}
    {o : HandlerOp (Delivered F.Consumer)} {k : o.Ret R → Handler R (Delivered F.Consumer) Unit}
    (hv : w.threads[v]? = some ⟨d, h, .call o k⟩) {t : ℕ} {th : Thread (handlers R F)}
    (ht : (w.perform v ch d h o k).threads[t]? = some th) (hrun : th.rest.result? = none) :
    ∃ th₀, w.threads[t]? = some th₀ ∧ th₀.call = th.call ∧ th₀.rest.result? = none := by
  rw [World.getElem?_perform hv] at ht
  split at ht
  · rename_i htv
    subst htv
    obtain rfl := Option.some.inj ht
    exact ⟨_, hv, rfl, rfl⟩
  · exact ⟨th, ht, rfl, hrun⟩

theorem alone_moves {w w' : World (handlers R F)} {a : Act (handlers R F)}
    (hm : w.Moves a w') (hC : DeliveredAlone w a) (hw : SuccessLast w) (t u : ℕ)
    (th th' : Thread (handlers R F)) (ht : w'.threads[t]? = some th)
    (hu : w'.threads[u]? = some th') (hkey : th.call.key = th'.call.key)
    (hrun : th.rest.result? = none) (hrun' : th'.rest.result? = none) : t = u := by
  cases hm with
  | idle => exact hw.alone t u th th' ht hu hkey hrun hrun'
  | @enter d s hs =>
      -- a handler of the message that is still at work excludes the delivery
      have hnot : ∀ {i : ℕ} {th₀ : Thread (handlers R F)}, w.threads[i]? = some th₀ →
          th₀.call.key = d.key → th₀.rest.result? ≠ none := by
        intro i th₀ hi hk
        exact Option.isSome_iff_ne_none.mp (hC.2 th₀ (List.mem_of_getElem? hi) hk)
      rcases World.getElem?_enter ht with ht | ⟨rfl, rfl⟩
      · rcases World.getElem?_enter hu with hu | ⟨-, rfl⟩
        · exact hw.alone t u th th' ht hu hkey hrun hrun'
        · exact absurd hrun (hnot ht hkey)
      · rcases World.getElem?_enter hu with hu | ⟨rfl, -⟩
        · exact absurd hrun' (hnot hu hkey.symm)
        · rfl
  | @perform v ch d h o k hv =>
      obtain ⟨th₀, ht₀, hc, hr⟩ := running_before hv ht hrun
      obtain ⟨th₁, hu₁, hc', hr'⟩ := running_before hv hu hrun'
      exact hw.alone t u th₀ th₁ ht₀ hu₁ (by rw [hc, hc', hkey]) hr hr'
  | env e => exact e.elim

/-- An execution whose action has succeeded then does not fail. -/
theorem not_failed_of_noLateFailure {w : World (handlers R F)} {a : Act (handlers R F)}
    (hC : NoLateFailure w a) {t : ℕ} {th : Thread (handlers R F)} (ht : w.threads[t]? = some th)
    (hok : ActionOk (F.natsMsg th.call) th.hist) :
    ¬ Failed (F.worker th.call.consumer) (F.natsMsg th.call) th.hist := by
  rintro ⟨later, hk, h₀, reply, heq, hlater, hu, hret, hne⟩
  obtain ⟨v, hv⟩ := hok
  -- the success is one of the execution that has failed
  have hin : ⟨.executeDecoded (F.natsMsg th.call).toMsg, .value v⟩ ∈ hk := by
    rw [heq] at hv
    rcases List.mem_append.mp hv with hv | hv
    · exact absurd rfl (hlater _ hv _)
    rcases List.mem_append.mp hv with hv | hv
    · obtain ⟨⟨o, r⟩, hy, hyv⟩ := List.mem_map.mp hv
      obtain ⟨hop, hr⟩ := Answered.mk.inj hyv
      obtain rfl := HandlerOp.exec.inj hop
      obtain rfl := eq_of_heq hr
      exact hy
    · exact absurd rfl (hu _ hv _)
  cases hmeta : (F.worker th.call.consumer).actionMeta with
  | none =>
      rw [hmeta] at hret
      obtain ⟨outcome, rfl, hiff⟩ := returns_plain hret
      obtain ⟨-, hout⟩ := Answered.mk.inj (List.mem_singleton.mp hin)
      obtain ⟨body, hbody⟩ := hiff.mp ⟨v, (eq_of_heq hout).symm⟩
      exact hne body hbody
  | some cfg =>
      rw [hmeta] at hret
      obtain ⟨hrenewal, ⟨body, hm⟩, hcomplete⟩ := hC t th cfg v ht hmeta hv
      have hsuf : hk.map (execEmbedding R (Delivered F.Consumer)).answered ++ h₀ <:+ th.hist :=
        ⟨later, heq.symm⟩
      rcases endsAs_of_returns hret with ⟨res, hunex, -⟩ | ⟨_, _, hran, hend⟩
      · exact (hunex.aside _ hin).1 _ rfl
      · obtain ⟨-, rfl⟩ := (hran.runs _ _).mp hin
        cases hend with
        | @leaseLost _ err _ =>
            have hmem := List.mem_map_of_mem
              (f := (execEmbedding R (Delivered F.Consumer)).answered)
              ((hran.renewals err).mpr rfl)
            exact hrenewal err (hsuf.subset (List.mem_append_left _ hmem))
        | unmarshalled hm' => cases hm.symm.trans hm'
        | refused _ hc => exact hcomplete hk h₀ _ hsuf hret hc
        | completed => exact hne _ rfl

/-- A handler that has finished after a success has settled its message. -/
theorem settled_of_success {w : World (handlers R F)} {a : Act (handlers R F)}
    (hw : SuccessLast w) (hC : NoLateFailure w a) {t : ℕ} {th : Thread (handlers R F)}
    (ht : w.threads[t]? = some th) (hp : (F.binding th.call.consumer).ackPolicy ≠ .ackNone)
    (hfin : th.rest.result?.isSome) (hok : ActionOk (F.natsMsg th.call) th.hist) :
    th.call.key ∈ w.state.settled := by
  obtain ⟨result, hres⟩ := Option.isSome_iff_exists.mp hfin
  rcases hw.ok.post ht hres hp hok with ⟨r, hr⟩ | hfailed
  · exact hw.acked t th ht r hr
  · exact absurd hfailed (not_failed_of_noLateFailure hC ht hok)

theorem last_moves {w w' : World (handlers R F)} {a : Act (handlers R F)}
    (hm : w.Moves a w') (hC : DeliveredAlone w a) (hlate : NoLateFailure w a)
    (hw : SuccessLast w) (t u : ℕ) (th th' : Thread (handlers R F))
    (ht : w'.threads[t]? = some th) (hu : w'.threads[u]? = some th')
    (hkey : th.call.key = th'.call.key)
    (hexp : (F.binding th.call.consumer).ackPolicy = .ackExplicit)
    (hrun : th.rest.result? = none) (hok : ActionOk (F.natsMsg th'.call) th'.hist) : t = u := by
  cases hm with
  | idle => exact hw.last t u th th' ht hu hkey hexp hrun hok
  | @enter d s hs =>
      rcases World.getElem?_enter hu with hu | ⟨rfl, rfl⟩
      · rcases World.getElem?_enter ht with ht | ⟨-, rfl⟩
        · exact hw.last t u th th' ht hu hkey hexp hrun hok
        · -- an earlier success has settled the message, which is not delivered then
          have hcons : th'.call.consumer = d.consumer := (congrArg Prod.fst hkey).symm
          have hp : (F.binding th'.call.consumer).ackPolicy ≠ .ackNone := by
            rw [hcons]
            exact hexp ▸ nofun
          have hfin := hC.2 th' (List.mem_of_getElem? hu) hkey.symm
          have hset := settled_of_success hw hlate hu hp hfin hok
          exact absurd (hkey ▸ hset) hC.1
      · obtain ⟨v, hv⟩ := hok
        cases hv
  | @perform v ch d h o k hv =>
      obtain ⟨th₀, ht₀, hc, hr⟩ := running_before hv ht hrun
      rw [World.getElem?_perform hv] at hu
      split at hu
      · rename_i huv
        subst huv
        obtain rfl := Option.some.inj hu
        exact hw.alone t u th₀ _ ht₀ hv (by rw [hc, hkey]) hr rfl
      · exact hw.last t u th₀ th' ht₀ hu (by rw [hc, hkey]) (by rw [hc, hexp]) hr hok
  | env e => exact e.elim

/-- The three conditions together. -/
def Orderly (w : World (handlers R F)) (a : Act (handlers R F)) : Prop :=
  AckApplied w a ∧ DeliveredAlone w a ∧ NoLateFailure w a

theorem successLast_moves {w w' : World (handlers R F)} {a : Act (handlers R F)}
    (hm : w.Moves a w') (hC : Orderly w a) (hw : SuccessLast w) : SuccessLast w' where
  ok := (handling R F).ok_moves hm hw.ok
  acked := acked_moves hm hC.1 hw
  alone := alone_moves hm hC.2.1 hw
  last := last_moves hm hC.2.1 hC.2.2 hw

theorem SuccessLast.noLetter {w : World (handlers R F)} {a : Act (handlers R F)}
    (hC : Orderly w a) (hw : SuccessLast w) : NoLetterAfterSuccess w a := by
  unfold NoLetterAfterSuccess
  split
  · rename_i d subject id letter hperf
    obtain ⟨u, ch, h, k, rfl, hu⟩ := World.exists_of_performs? hperf
    intro hexp t th ht hkey hok
    -- only the publishing handler itself could have succeeded
    obtain rfl := hw.last u t _ th hu ht hkey.symm hexp rfl hok
    obtain rfl := Option.some.inj (hu.symm.trans ht)
    rcases (hw.ok.guard hu).2 with hfailed | hunrun
    · exact not_failed_of_noLateFailure hC.2.2 hu hok hfailed
    · obtain ⟨v, hv⟩ := hok
      exact hunrun _ hv _ rfl
  · trivial

/-- In every run in which every acknowledgement takes effect, messages are
delivered only while they are pending and in no other hands, and no renewal,
marshalling or `Complete` fails after a success of the action, no dead letter is
published for a message on which the action has succeeded. -/
theorem no_letter_after_success (R : Runtime) (F : Fleet) (acts : List (Act (handlers R F)))
    (hack : World.Always AckApplied (F.start R) acts)
    (hdel : World.Always DeliveredAlone (F.start R) acts)
    (hexec : World.Always NoLateFailure (F.start R) acts) :
    World.Always NoLetterAfterSuccess (F.start R) acts :=
  (hack.and (hdel.and hexec)).imp successLast_moves (fun hC hw => hw.noLetter hC)
    successLast_init

/-- Without idempotency nothing comes after the action. -/
theorem noLateFailure_of_plain (hplain : ∀ i, (F.worker i).actionMeta = none)
    (w : World (handlers R F)) (a : Act (handlers R F)) : NoLateFailure w a := by
  intro t th cfg v _ hmeta
  cases (hplain _).symm.trans hmeta

end

/-! ### A repeated delivery -/

def explicitFleet : Fleet := .single (.consumer (sampleConsumer .ackExplicit)) (by decide)

def timeout : Err := .other "timeout" none

/-- The first message fails once and then succeeds, with the reply to the
acknowledgement lost; the second one fails at its last delivery. -/
def orderlyRun : List (Act (handlers .plain explicitFleet)) :=
  .spawn ⟨(), 1, 1⟩ :: handlerSteps 0 3 (acting (.failed timeout) .ok) ++
    .spawn ⟨(), 1, 2⟩ :: handlerSteps 1 2 (acting (.value []) .ok) ++
    handlerSteps 1 1 (acting .panicked (.lost timeout)) ++
    .spawn ⟨(), 2, 3⟩ :: handlerSteps 2 6 (acting (.failed timeout) .ok)

theorem no_letter_after_success_orderly :
    World.Always AckApplied (explicitFleet.start .plain) orderlyRun ∧
      World.Always DeliveredAlone (explicitFleet.start .plain) orderlyRun ∧
      World.Always NoLateFailure (explicitFleet.start .plain) orderlyRun ∧
      World.Always NoLetterAfterSuccess (explicitFleet.start .plain) orderlyRun :=
  have hack : World.Always AckApplied (explicitFleet.start .plain) orderlyRun := by
    decide +kernel
  have hdel : World.Always DeliveredAlone (explicitFleet.start .plain) orderlyRun := by
    decide +kernel
  have hexec : World.Always NoLateFailure (explicitFleet.start .plain) orderlyRun :=
    World.always_of_forall_mem (fun a _ w => noLateFailure_of_plain (fun _ => rfl) w a) _
  ⟨hack, hdel, hexec, no_letter_after_success .plain explicitFleet orderlyRun hack hdel hexec⟩

/-- The only delivery within the limit succeeds, its acknowledgement does not
reach the broker, and the message is delivered again. -/
def lostAck : List (Act (handlers .plain sampleFleet)) :=
  .spawn ⟨(), 1, 1⟩ :: handlerSteps 0 2 (acting (.value []) .ok) ++
    handlerSteps 0 1 (acting .panicked (.dropped timeout)) ++
    .spawn ⟨(), 1, 2⟩ :: handlerSteps 1 3 (acting .panicked .ok)

/-- The action has succeeded in the first delivery, and the second one is about
to publish a dead letter, which will be stored. -/
theorem letter_published_after_success :
    (∃ th, ((sampleFleet.start .plain).run lostAck).threads[0]? = some th ∧
        th.call = ⟨(), 1, 1⟩ ∧ ActionOk (sampleFleet.natsMsg th.call) th.hist) ∧
      (∃ subject id letter,
        ((sampleFleet.start .plain).run lostAck).performs? (.step 1 (acting .panicked .ok)) =
          some (⟨(), 1, 2⟩, .publish subject id letter)) ∧
      (((sampleFleet.start .plain).run lostAck).act
        (.step 1 (acting .panicked .ok))).state.records.length = 1 ∧
      ¬ World.Always NoLetterAfterSuccess (sampleFleet.start .plain)
        (lostAck ++ [.step 1 (acting .panicked .ok)]) := by
  have hok : ∃ th, ((sampleFleet.start .plain).run lostAck).threads[0]? = some th ∧
      th.call = ⟨(), 1, 1⟩ ∧ ActionOk (sampleFleet.natsMsg th.call) th.hist :=
    ⟨_, rfl, rfl, [], List.mem_cons_of_mem _ List.mem_cons_self⟩
  have hperf : ∃ subject id letter,
      ((sampleFleet.start .plain).run lostAck).performs? (.step 1 (acting .panicked .ok)) =
        some (⟨(), 1, 2⟩, .publish subject id letter) := ⟨_, _, _, rfl⟩
  refine ⟨hok, hperf, by decide +kernel, fun hall => ?_⟩
  obtain ⟨th, ht, hcall, hth⟩ := hok
  obtain ⟨subject, id, letter, hperf⟩ := hperf
  have hno := (World.always_append.mp hall).2.1
  simp only [NoLetterAfterSuccess, hperf] at hno
  exact hno rfl 0 th ht (by rw [hcall]; rfl) hth

end TransportNats.Delivery
