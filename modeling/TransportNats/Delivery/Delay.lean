import TransportNats.Delivery.Handler

/-!
How long a message waits before it is delivered again.

Both handlers ask for a message again in several places, and each place takes
its delay from a helper. What the handler has met by then determines why it asks:
its first answer is the count of deliveries, the answers of the execution are the
error, and if there was no execution the latest answer is. From the count and the
error the delay follows: a consumer keeps to its schedule, durable work waits its
fixed delay, and an error that says itself how long to wait is heeded by both.
For a binding that was accepted such a delay is positive, and the schedule is
never read outside its bounds, in the machine words of the source as little as in
the natural numbers.
-/

namespace TransportNats.Delivery

open Interleaving Idempotency Program

/-! ### The place in the schedule -/

theorem backoffIndex_eq {deliveries count : ℕ} (h : 0 < count) :
    backoffIndex deliveries count = min (max deliveries 1) count - 1 := by
  unfold backoffIndex
  split_ifs <;> omega

theorem backoffIndex_lt (deliveries : ℕ) {count : ℕ} (h : 0 < count) :
    backoffIndex deliveries count < count := by
  rw [backoffIndex_eq h]
  omega

/-- `backoffIndex` on a `uint64` and an `int` of 64 bits. -/
def backoffIndexWord (deliveries : UInt64) (count : Int64) : Int64 :=
  if count ≤ 1 ∨ deliveries ≤ 1 then 0
  else
    let last := count - 1
    let lastDelivery := last.toUInt64
    if lastDelivery ≤ deliveries - 1 then last else (deliveries - 1).toInt64

theorem toInt_toInt64 {x : UInt64} (h : x.toNat < 2 ^ 63) : x.toInt64.toInt = x.toNat := by
  rw [← Int64.toInt_ofNat_of_lt h, ← UInt64.toInt64_ofNat', UInt64.ofNat_toNat]

theorem toNat_toUInt64 {x : Int64} {n : ℕ} (h : x.toInt = n) : x.toUInt64.toNat = n := by
  have hnonneg : 0 ≤ x := by
    rw [Int64.le_iff_toInt_le, h]
    exact Int.natCast_nonneg n
  rw [Int64.toNat_toUInt64_of_le hnonneg, Int64.toNatClampNeg, h, Int.toNat_natCast]

/-- No operation on the words wraps around: the count is an `int` that is not
negative, and one is subtracted only from what is greater. -/
theorem toInt_backoffIndexWord (deliveries : UInt64) {count : ℕ} (h : count < 2 ^ 63) :
    (backoffIndexWord deliveries (.ofNat count)).toInt = backoffIndex deliveries.toNat count := by
  have hcount : (Int64.ofNat count).toInt = count := Int64.toInt_ofNat_of_lt h
  have hsmall : Int64.ofNat count ≤ 1 ∨ deliveries ≤ 1 ↔ count ≤ 1 ∨ deliveries.toNat ≤ 1 := by
    rw [Int64.le_iff_toInt_le, UInt64.le_iff_toNat_le, hcount]
    exact or_congr_left Int.ofNat_le
  unfold backoffIndexWord backoffIndex
  by_cases hs : count ≤ 1 ∨ deliveries.toNat ≤ 1
  · rw [if_pos (hsmall.mpr hs), if_pos hs]
    rfl
  · rw [if_neg (hsmall.not.mpr hs), if_neg hs]
    obtain ⟨hc, hd⟩ := not_or.mp hs
    have hone : (1 : Int64).toInt = 1 := rfl
    have hlast : (Int64.ofNat count - 1).toInt = ((count - 1 : ℕ) : ℤ) := by
      rw [Int64.toInt_sub_of_le _ _ (by decide), hcount, hone]
      · omega
      · rw [Int64.le_iff_toInt_le, hcount, hone]
        omega
    have hdelivery : (deliveries - 1).toNat = deliveries.toNat - 1 :=
      UInt64.toNat_sub_of_le _ _ (UInt64.le_iff_toNat_le.mpr (by change 1 ≤ _; omega))
    simp only [UInt64.le_iff_toNat_le, toNat_toUInt64 hlast, hdelivery]
    split
    · exact hlast
    · rw [toInt_toInt64 (by omega), hdelivery]

/-! ### Delays of accepted bindings -/

/-- The schedule is no longer than the greatest `int`. -/
theorem length_backOff_lt {b : ConsumerBinding} (h : validateConsumerBinding b = none) :
    b.backOff.length < 2 ^ 63 := by
  obtain ⟨-, -, -, hlen, -⟩ := accepted_of_validateConsumerBinding h
  have hhi := b.maxDeliver.hi
  unfold maxInt64 at hhi
  omega

/-- The delay of the schedule at a delivery. -/
theorem getElem?_backoffIndex {schedule : List ℤ} (h : schedule ≠ []) (deliveries : ℕ) :
    schedule[backoffIndex deliveries schedule.length]? =
      some (schedule.getD (backoffIndex deliveries schedule.length) 0) := by
  have hlt := backoffIndex_lt deliveries (List.length_pos_of_ne_nil h)
  rw [List.getD_eq_getElem?_getD, List.getElem?_eq_getElem hlt, Option.getD_some]

theorem durableRetryDelay_pos {b : DurableBinding} (h : validateDurableBinding b = none)
    (err : Err) : 0 < durableRetryDelay err b.retryDelay := by
  unfold durableRetryDelay
  split_ifs with hafter
  · exact hafter
  · exact (accepted_of_validateDurableBinding h).2.2

/-- `consumerRetryDelay` in machine words. It is `none` where reading the slice
panics. -/
def consumerRetryDelayWord (b : ConsumerBinding) (deliveries : UInt64) (execErr : Err) :
    Option ℤ :=
  if 0 < retryAfter execErr then some (retryAfter execErr)
  else if b.backOff ≠ [] then
    let i := (backoffIndexWord deliveries (.ofNat b.backOff.length)).toInt
    if i < 0 then none else b.backOff[i.toNat]?
  else some second

theorem consumerRetryDelayWord_eq {b : ConsumerBinding} (h : validateConsumerBinding b = none)
    (deliveries : UInt64) (execErr : Err) :
    consumerRetryDelayWord b deliveries execErr =
      some (consumerRetryDelay b deliveries.toNat execErr) := by
  unfold consumerRetryDelayWord consumerRetryDelay
  split_ifs with hafter hsched
  · rfl
  · dsimp only
    rw [toInt_backoffIndexWord deliveries (length_backOff_lt h), if_neg (by omega),
      Int.toNat_natCast, getElem?_backoffIndex hsched]
  · rfl

/-! ### Why a message is asked for again -/

section
variable {R : Runtime} {D : Type}

/-- The answer of an execution, if it is one. -/
def execAnswer? : Answered (handlerSig R D) → Option (Answered (execSig R))
  | ⟨.exec o, r⟩ => some ⟨o, r⟩
  | _ => none

/-- The history of the execution inside the history of its handler. -/
def execHist (h : History (handlerSig R D)) : ExecHist R := h.filterMap execAnswer?

/-- The error of a request that dead-lettering makes. -/
def refusal? : Answered (handlerSig R D) → Option Err
  | ⟨.metadata _, .error err⟩ => some err
  | ⟨.publish _ _ _, some err⟩ => some err
  | ⟨.term _, some err⟩ => some err
  | _ => none

/-- The first answer that the handler got is `info`. -/
def ToldFirst (msg : NatsMsg D) (h : History (handlerSig R D)) (info : Metadata) : Prop :=
  [⟨.metadata msg.reply, .ok info⟩] <:+ h

/-- Why a handler with the history `h` asks for its message again: the count of
deliveries and the error that its delay is taken from. -/
inductive NakCause (kind : StoreKind) (actionMeta : Option IdempotencyConfig) (msg : NatsMsg D)
    (h : History (handlerSig R D)) : ℕ → Err → Prop
  /-- The metadata could not be read. -/
  | unread (err : Err) (hh : h = [⟨.metadata msg.reply, .error err⟩]) :
      NakCause kind actionMeta msg h 1 (mapError err)
  /-- The execution has returned an error. -/
  | failed (info : Metadata) (body : Bytes) (err : Err) (told : ToldFirst msg h info)
      (ended : (execution R kind actionMeta msg.toMsg).Returns (execHist h)
        (.returned body (some err))) :
      NakCause kind actionMeta msg h info.numDelivered err
  /-- There was no execution, and the last request of dead-lettering has failed. -/
  | unlettered (info : Metadata) (err : Err) (told : ToldFirst msg h info)
      (unrun : execHist h = []) (latest : h.head?.bind refusal? = some err) :
      NakCause kind actionMeta msg h info.numDelivered (mapError err)

variable {kind : StoreKind} {actionMeta : Option IdempotencyConfig} {msg : NatsMsg D}
  {h : History (handlerSig R D)}

@[simp] theorem execHist_map_append (hk : ExecHist R) :
    execHist (hk.map (execEmbedding R D).answered ++ h) = hk ++ execHist h := by
  unfold execHist
  rw [List.filterMap_append, List.filterMap_map]
  exact congrArg (· ++ _) List.filterMap_some

theorem ToldFirst.mono {h' : History (handlerSig R D)} {info : Metadata}
    (ht : ToldFirst msg h info) (hsuf : h <:+ h') : ToldFirst msg h' info :=
  List.IsSuffix.trans ht hsuf

theorem ToldFirst.unique {info info' : Metadata} (ht : ToldFirst msg h info)
    (ht' : ToldFirst msg h info') : info = info' := by
  have hsuf := List.suffix_of_suffix_length_le ht ht' (Nat.le_refl 1)
  have heq := hsuf.eq_of_length rfl
  simpa using heq

theorem not_toldFirst_of_error {err : Err} {info : Metadata} :
    ¬ ToldFirst (R := R) msg [⟨.metadata msg.reply, .error err⟩] info := by
  intro ht
  have heq := List.IsSuffix.eq_of_length ht rfl
  simp at heq

/-- An execution performs something. -/
theorem not_returns_nil {reply : Reply} :
    ¬ (execution R kind actionMeta msg.toMsg).Returns [] reply := by
  intro hret
  cases actionMeta with
  | none => exact Returns.ne_nil (S := execSig R) hret rfl
  | some cfg =>
      cases kind with
      | coordinator => exact Returns.ne_nil (S := execSig R) hret rfl
      | legacy => exact Returns.ne_nil (S := execSig R) hret rfl

/-- The history of a handler determines the count and the error. -/
theorem NakCause.unique {n n' : ℕ} {err err' : Err} (hc : NakCause kind actionMeta msg h n err)
    (hc' : NakCause kind actionMeta msg h n' err') : n = n' ∧ err = err' := by
  cases hc with
  | unread err hh =>
      subst hh
      cases hc' with
      | unread err' hh' =>
          simp only [List.cons.injEq, Answered.mk.injEq, heq_eq_eq, Except.error.injEq,
            and_true, true_and] at hh'
          exact ⟨rfl, by rw [hh']⟩
      | failed _ _ _ told | unlettered _ _ told => exact absurd told not_toldFirst_of_error
  | failed info body err told ended =>
      cases hc' with
      | unread err' hh' =>
          subst hh'
          exact absurd told not_toldFirst_of_error
      | failed info' body' err' told' ended' =>
          obtain rfl := told.unique told'
          cases ended.unique ended'
          exact ⟨rfl, rfl⟩
      | unlettered info' err' told' unrun =>
          rw [unrun] at ended
          exact absurd ended not_returns_nil
  | unlettered info err told unrun latest =>
      cases hc' with
      | unread err' hh' =>
          subst hh'
          exact absurd told not_toldFirst_of_error
      | failed info' body' err' told' ended' =>
          rw [unrun] at ended'
          exact absurd ended' not_returns_nil
      | unlettered info' err' told' unrun' latest' =>
          obtain rfl := told.unique told'
          obtain rfl := Option.some.inj (latest.symm.trans latest')
          exact ⟨rfl, rfl⟩

end

/-! ### Every request to deliver again -/

/-- The delay of a consumer at a delivery: what the error itself says, else the
schedule, else one second. Read in machine words it is the same. -/
structure Scheduled (b : ConsumerBinding) (deliveries : ℕ) (err : Err) (delay : ℤ) : Prop where
  heeded : 0 < retryAfter err → delay = retryAfter err
  unscheduled : retryAfter err ≤ 0 → b.backOff = [] → delay = second
  scheduled : retryAfter err ≤ 0 → b.backOff ≠ [] →
    b.backOff[min (max deliveries 1) b.backOff.length - 1]? = some delay
  word : ∀ n : UInt64, n.toNat = deliveries → consumerRetryDelayWord b n err = some delay

theorem scheduled_consumerRetryDelay {b : ConsumerBinding} (h : validateConsumerBinding b = none)
    (deliveries : ℕ) (err : Err) :
    Scheduled b deliveries err (consumerRetryDelay b deliveries err) where
  heeded hafter := if_pos hafter
  unscheduled hafter hempty := by
    rw [consumerRetryDelay, if_neg (not_lt.mpr hafter), if_neg (not_not.mpr hempty)]
  scheduled hafter hsched := by
    rw [consumerRetryDelay, if_neg (not_lt.mpr hafter), if_pos hsched,
      ← backoffIndex_eq (List.length_pos_of_ne_nil hsched), getElem?_backoffIndex hsched]
  word n hn := by rw [consumerRetryDelayWord_eq h n err, hn]

section
variable {R : Runtime} {D : Type}

/-- The execution has taken place, and dead-lettering after it has failed. -/
def LetterFailed (h : History (handlerSig R D)) : Prop :=
  execHist h ≠ [] ∧ (h.head?.bind refusal?).isSome

/-- The delay that a binding prescribes for a count of deliveries and an error.
Durable work that could not be dead-lettered after a failed execution waits its
fixed delay, whatever the error says. -/
def Prescribed (h : History (handlerSig R D)) (deliveries : ℕ) (err : Err) : Binding → ℤ → Prop
  | .consumer b, delay => Scheduled b deliveries err delay
  | .durable b, delay =>
      (LetterFailed h → delay = b.retryDelay) ∧
        (¬ LetterFailed h → delay = durableRetryDelay err b.retryDelay)

/-- An operation that does not ask for the message again. -/
def HandlerOp.isQuiet : HandlerOp D → Bool
  | .nakWithDelay _ _ => false
  | _ => true

/-- A request to deliver again has the delay that the binding prescribes for what
the handler has met. -/
def nakGuard (B : Binding) (kind : StoreKind) (actionMeta : Option IdempotencyConfig)
    (msg : NatsMsg D) (h : History (handlerSig R D)) (o : HandlerOp D) : Prop :=
  ∀ d delay, o = .nakWithDelay d delay → ∃ deliveries err,
    NakCause kind actionMeta msg h deliveries err ∧ Prescribed h deliveries err B delay

variable {B : Binding} {kind : StoreKind} {actionMeta : Option IdempotencyConfig}
  {msg : NatsMsg D} {h h' : History (handlerSig R D)} {info : Metadata}

theorem nakGuard_of_isQuiet {o : HandlerOp D} (ho : o.isQuiet) :
    nakGuard B kind actionMeta msg h o := by
  rintro d delay rfl
  cases ho

/-- A request with the right delay. -/
theorem guarded_nakWithDelay_of_cause {deliveries : ℕ} {err : Err} {delay : ℤ}
    (hc : NakCause kind actionMeta msg h deliveries err)
    (hd : Prescribed h deliveries err B delay) :
    Guarded (nakGuard B kind actionMeta msg) (fun _ _ => True) h
      (do let _ ← nakWithDelay msg delay; return ()) := by
  refine ⟨?_, fun _ => trivial⟩
  rintro d delay' ho
  obtain ⟨-, rfl⟩ := HandlerOp.nakWithDelay.inj ho
  exact ⟨deliveries, err, hc, hd⟩

theorem guarded_perform_of_isQuiet {o : HandlerOp D} (ho : o.isQuiet) :
    Guarded (S := handlerSig R D) (nakGuard B kind actionMeta msg) (fun _ _ => True) h
      (do let _ ← Program.perform (S := handlerSig R D) o; return ()) :=
  ⟨nakGuard_of_isQuiet ho, fun _ => trivial⟩

/-- After an execution it is known how it ended. -/
theorem nakGuard_lift_execution (hu : execHist h = []) :
    Guarded (nakGuard B kind actionMeta msg)
      (fun h' reply => h <:+ h' ∧
        (execution R kind actionMeta msg.toMsg).Returns (execHist h') reply ∧
        ¬ LetterFailed h') h
      ((execution R kind actionMeta msg.toMsg).lift (execEmbedding R D)) := by
  refine (guarded_true (execution R kind actionMeta msg.toMsg)).returns.embed
    (fun _ _ _ => nakGuard_of_isQuiet rfl) ?_
  rintro hk reply ⟨-, hk', rfl, hret⟩
  refine ⟨List.suffix_append _ _, by simpa [hu] using hret, ?_⟩
  -- the latest answer is one of the execution
  rintro ⟨-, hlatest⟩
  cases hk' with
  | nil => exact not_returns_nil hret
  | cons x hk' => cases hlatest

/-- Dead-lettering runs nothing, and if it comes back with an error, its last
request has failed. -/
theorem nakGuard_dlqConsumerMessage (b : ConsumerBinding) (execErr : Err) (deliveries : ℕ)
    (terminate : Bool) :
    Guarded (nakGuard B kind actionMeta msg)
      (fun h' r => h <:+ h' ∧ execHist h' = execHist h ∧
        ∀ e, r = some e → ∃ err, e = mapError err ∧ h'.head?.bind refusal? = some err) h
      (dlqConsumerMessage (R := R) b msg execErr deliveries terminate) := by
  unfold dlqConsumerMessage timeNow metadata publishMsg term
  rw [guarded_perform_bind]
  refine ⟨nakGuard_of_isQuiet rfl, fun failedAt => ?_⟩
  rw [guarded_perform_bind]
  refine ⟨nakGuard_of_isQuiet rfl, fun r => ?_⟩
  have hsuf : h <:+ ⟨.metadata msg.reply, r⟩ :: ⟨.now, failedAt⟩ :: h :=
    (List.suffix_cons _ _).trans (List.suffix_cons _ _)
  cases r with
  | error err =>
      refine ⟨hsuf, rfl, fun e he => ⟨err, ?_, rfl⟩⟩
      exact (Option.some.inj he).symm
  | ok info' =>
      dsimp only
      rw [guarded_perform_bind]
      refine ⟨nakGuard_of_isQuiet rfl, fun r => ?_⟩
      have hsuf' := hsuf.trans (List.suffix_cons ⟨.publish _ _ _, r⟩ _)
      cases r with
      | some err =>
          refine ⟨hsuf', rfl, fun e he => ⟨err, ?_, rfl⟩⟩
          exact (Option.some.inj he).symm
      | none =>
          dsimp only
          split
          · refine ⟨nakGuard_of_isQuiet rfl, fun r => ⟨hsuf'.trans (List.suffix_cons _ _), rfl, ?_⟩⟩
            intro e he
            cases r with
            | none => cases he
            | some err => exact ⟨err, (Option.some.inj he).symm, rfl⟩
          · exact ⟨hsuf', rfl, fun e he => by cases he⟩

/-! ### Both handlers -/

theorem NakCause.consumer {b : ConsumerBinding} (hb : validateConsumerBinding b = none)
    {deliveries : ℕ} {err : Err} (hc : NakCause kind actionMeta msg h deliveries err) :
    Guarded (nakGuard (.consumer b) kind actionMeta msg) (fun _ _ => True) h
      (nakConsumerMessage b msg deliveries err) :=
  guarded_nakWithDelay_of_cause (B := .consumer b) hc (scheduled_consumerRetryDelay hb _ _)

theorem nakGuard_runConsumerMessage {b : ConsumerBinding} (hb : validateConsumerBinding b = none)
    (hp : b.ackPolicy ≠ .ackNone) (ht : ToldFirst msg h info) (hu : execHist h = []) :
    Guarded (nakGuard (.consumer b) kind actionMeta msg) (fun _ _ => True) h
      (runConsumerMessage (R := R) kind b actionMeta msg info.numDelivered) := by
  unfold runConsumerMessage
  refine (nakGuard_lift_execution hu).bind ?_
  rintro h₁ reply ⟨hsuf, hret, -⟩
  have ht₁ := ht.mono hsuf
  rcases reply with ⟨body, _ | execErr⟩ | _
  · dsimp only
    rw [if_neg hp]
    exact guarded_perform_of_isQuiet rfl
  · dsimp only
    rw [if_neg hp]
    split
    · split
      · refine (nakGuard_dlqConsumerMessage b execErr _ true).bind ?_
        rintro h₂ r ⟨hsuf₂, hsame, -⟩
        cases r with
        | some err =>
            exact NakCause.consumer hb (.failed info body execErr (ht₁.mono hsuf₂) (hsame ▸ hret))
        | none => trivial
      · exact guarded_perform_of_isQuiet rfl
    · exact NakCause.consumer hb (.failed info body execErr ht₁ hret)
  · trivial

/-- Without acknowledgements a consumer does not ask for a message again. -/
theorem nakGuard_runConsumerMessage_ackNone {b : ConsumerBinding} (hp : b.ackPolicy = .ackNone) :
    Guarded (nakGuard (.consumer b) kind actionMeta msg) (fun _ _ => True) []
      (runConsumerMessage (R := R) kind b actionMeta msg 1) := by
  unfold runConsumerMessage
  refine (nakGuard_lift_execution rfl).bind fun h₁ reply _ => ?_
  rcases reply with ⟨body, _ | execErr⟩ | _
  · dsimp only
    rw [if_pos hp]
    trivial
  · dsimp only
    rw [if_pos hp]
    split
    · exact (nakGuard_dlqConsumerMessage b execErr 1 false).bind fun _ _ _ => trivial
    · trivial
  · trivial

theorem nakGuard_handleConsumerMessage {b : ConsumerBinding}
    (hb : validateConsumerBinding b = none) :
    Guarded (nakGuard (.consumer b) kind actionMeta msg) (fun _ _ => True) []
      (handleConsumerMessage (R := R) kind b actionMeta msg) := by
  unfold handleConsumerMessage
  split
  · exact nakGuard_runConsumerMessage_ackNone ‹_›
  · rename_i hp
    unfold metadata
    rw [guarded_perform_bind]
    refine ⟨nakGuard_of_isQuiet rfl, fun r => ?_⟩
    cases r with
    | error metadataErr => exact NakCause.consumer hb (.unread metadataErr rfl)
    | ok info =>
        have ht : ToldFirst (R := R) msg [⟨.metadata msg.reply, .ok info⟩] info :=
          List.suffix_refl _
        dsimp only
        split
        · split
          · refine (nakGuard_dlqConsumerMessage b _ _ true).bind ?_
            rintro h₂ r ⟨hsuf₂, hsame, hfail⟩
            cases r with
            | some err =>
                obtain ⟨err', rfl, hlatest⟩ := hfail err rfl
                exact NakCause.consumer hb (.unlettered info err' (ht.mono hsuf₂) hsame hlatest)
            | none => trivial
          · exact guarded_perform_of_isQuiet rfl
        · exact nakGuard_runConsumerMessage hb hp ht rfl

/-- Durable work waits as its binding says, unless dead-lettering has failed. -/
theorem NakCause.durable {b : DurableBinding} {deliveries : ℕ} {err : Err}
    (hc : NakCause kind actionMeta msg h deliveries err) (hl : ¬ LetterFailed h) :
    Guarded (nakGuard (.durable b) kind actionMeta msg) (fun _ _ => True) h
      (do let _ ← nakWithDelay msg (durableRetryDelay err b.retryDelay); return ()) :=
  guarded_nakWithDelay_of_cause (B := .durable b) hc ⟨fun h => absurd h hl, fun _ => rfl⟩

theorem nakGuard_runDurableMessage {b : DurableBinding} (ht : ToldFirst msg h info)
    (hu : execHist h = []) :
    Guarded (nakGuard (.durable b) kind actionMeta msg) (fun _ _ => True) h
      (runDurableMessage (R := R) kind b actionMeta msg info.numDelivered) := by
  unfold runDurableMessage
  refine (nakGuard_lift_execution hu).bind ?_
  rintro h₁ reply ⟨hsuf, hret, hl⟩
  have ht₁ := ht.mono hsuf
  rcases reply with ⟨body, _ | execErr⟩ | _
  · exact guarded_perform_of_isQuiet rfl
  · dsimp only
    split
    · refine (nakGuard_dlqConsumerMessage _ execErr _ true).bind ?_
      rintro h₂ r ⟨hsuf₂, hsame, hfail⟩
      cases r with
      | some err =>
          obtain ⟨err', rfl, hlatest⟩ := hfail err rfl
          have hfailed : LetterFailed h₂ := by
            refine ⟨fun hnil => ?_, by rw [hlatest]; rfl⟩
            rw [← hsame, hnil] at hret
            exact not_returns_nil hret
          exact guarded_nakWithDelay_of_cause (B := .durable b)
            (.failed info body execErr (ht₁.mono hsuf₂) (hsame ▸ hret))
            ⟨fun _ => rfl, fun h => absurd hfailed h⟩
      | none => trivial
    · exact NakCause.durable (.failed info body execErr ht₁ hret) hl
  · trivial

theorem nakGuard_handleDurableMessage {b : DurableBinding} :
    Guarded (nakGuard (.durable b) kind actionMeta msg) (fun _ _ => True) []
      (handleDurableMessage (R := R) kind b actionMeta msg) := by
  unfold handleDurableMessage metadata
  rw [guarded_perform_bind]
  refine ⟨nakGuard_of_isQuiet rfl, fun r => ?_⟩
  cases r with
  | error metadataErr =>
      exact NakCause.durable (.unread metadataErr rfl) fun hl => hl.1 rfl
  | ok info =>
      have ht : ToldFirst (R := R) msg [⟨.metadata msg.reply, .ok info⟩] info :=
        List.suffix_refl _
      dsimp only
      split
      · refine (nakGuard_dlqConsumerMessage _ _ _ true).bind ?_
        rintro h₂ r ⟨hsuf₂, hsame, hfail⟩
        cases r with
        | some err =>
            obtain ⟨err', rfl, hlatest⟩ := hfail err rfl
            refine NakCause.durable (.unlettered info err' (ht.mono hsuf₂) hsame hlatest) ?_
            exact fun hl => hl.1 hsame
        | none => trivial
      · exact nakGuard_runDurableMessage ht rfl

theorem nakGuard_handle (hB : B.validate = none) :
    Guarded (nakGuard B kind actionMeta msg) (fun _ _ => True) []
      (B.handle R kind actionMeta msg) := by
  cases B with
  | consumer b => exact nakGuard_handleConsumerMessage hB
  | durable b => exact nakGuard_handleDurableMessage

theorem Prescribed.pos (hB : B.validate = none) {deliveries : ℕ} {err : Err} {delay : ℤ}
    (hd : Prescribed h deliveries err B delay) : 0 < delay := by
  cases B with
  | consumer b =>
      by_cases hafter : 0 < retryAfter err
      · rw [hd.heeded hafter]
        exact hafter
      by_cases hempty : b.backOff = []
      · rw [hd.unscheduled (not_lt.mp hafter) hempty]
        decide
      · obtain ⟨-, -, -, -, hpos⟩ := accepted_of_validateConsumerBinding hB
        exact hpos _ (List.mem_of_getElem? (hd.scheduled (not_lt.mp hafter) hempty))
  | durable b =>
      by_cases hl : LetterFailed h
      · rw [hd.1 hl]
        exact (accepted_of_validateDurableBinding hB).2.2
      · rw [hd.2 hl]
        exact durableRetryDelay_pos hB err

end

/-- Every request of either handler to deliver a message again has the delay that
its binding prescribes for the count of deliveries and the error that the handler
has met, and it is positive. The schedule of a consumer is read in machine words
within its bounds, at every count and for every error. -/
theorem nakWithDelay_waits (R : Runtime) {D : Type} {B : Binding} (hB : B.validate = none)
    (kind : StoreKind) (actionMeta : Option IdempotencyConfig) (msg : NatsMsg D) :
    Guarded (S := handlerSig R D)
        (fun h o => ∀ d delay, o = .nakWithDelay d delay →
          0 < delay ∧ (∃ deliveries err, NakCause kind actionMeta msg h deliveries err) ∧
            ∀ deliveries err, NakCause kind actionMeta msg h deliveries err →
              Prescribed h deliveries err B delay)
        (fun _ _ => True) [] (B.handle R kind actionMeta msg) ∧
      ∀ b, B = .consumer b → ∀ (deliveries : UInt64) (execErr : Err),
        consumerRetryDelayWord b deliveries execErr =
            some (consumerRetryDelay b deliveries.toNat execErr) ∧
          (b.backOff ≠ [] →
            0 ≤ (backoffIndexWord deliveries (.ofNat b.backOff.length)).toInt ∧
              (backoffIndexWord deliveries (.ofNat b.backOff.length)).toInt <
                b.backOff.length) ∧
          (retryAfter execErr ≤ 0 →
            (b.backOff = [] → consumerRetryDelay b deliveries.toNat execErr = second) ∧
              (b.backOff ≠ [] →
                b.backOff[min (max deliveries.toNat 1) b.backOff.length - 1]? =
                  some (consumerRetryDelay b deliveries.toNat execErr))) := by
  constructor
  · refine (nakGuard_handle hB).mono (fun h o hg d delay ho => ?_) fun _ _ _ => trivial
    obtain ⟨deliveries, err, hc, hd⟩ := hg d delay ho
    refine ⟨hd.pos hB, ⟨deliveries, err, hc⟩, fun deliveries' err' hc' => ?_⟩
    obtain ⟨rfl, rfl⟩ := hc.unique hc'
    exact hd
  rintro b rfl deliveries execErr
  have hsched := scheduled_consumerRetryDelay hB deliveries.toNat execErr
  refine ⟨hsched.word deliveries rfl, fun hne => ?_,
    fun hafter => ⟨hsched.unscheduled hafter, hsched.scheduled hafter⟩⟩
  rw [toInt_backoffIndexWord deliveries (length_backOff_lt hB)]
  have hlt := backoffIndex_lt deliveries.toNat (List.length_pos_of_ne_nil hne)
  omega

/-- A consumer that waits a second, then a minute. -/
def steppedConsumer : ConsumerBinding :=
  { stream := "S", subject := "work", durable := "D", maxDeliver := ⟨4, by decide, by decide⟩,
    ackWait := 1, maxAckPending := 1, backOff := [second, 60 * second] }

theorem nakWithDelay_waits_stepped :
    (Binding.consumer steppedConsumer).validate = none ∧
      Guarded (S := handlerSig .plain Unit)
        (fun h o => ∀ d delay, o = .nakWithDelay d delay →
          0 < delay ∧
            (∃ deliveries err,
              NakCause .coordinator none { sampleMsg with reply := () } h deliveries err) ∧
            ∀ deliveries err,
              NakCause .coordinator none { sampleMsg with reply := () } h deliveries err →
                Prescribed h deliveries err (.consumer steppedConsumer) delay)
        (fun _ _ => True) []
        (handleConsumerMessage .coordinator steppedConsumer none
          { sampleMsg with reply := () }) := by
  have hvalid : (Binding.consumer steppedConsumer).validate = none := by decide
  exact ⟨hvalid, (nakWithDelay_waits .plain hvalid .coordinator none _).1⟩

end TransportNats.Delivery
