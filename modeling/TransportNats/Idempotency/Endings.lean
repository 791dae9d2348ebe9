import TransportNats.Idempotency.Replay

/-!
How an execution ends.

An execution either finds a reason not to run its action, an outcome to replay
or a refusal, or it runs the action and then has three more things to do, each
of which can fail: to learn that its lease was kept, to marshal the result and
to complete the claim. The reply is that of the first of them that has failed;
a lease that was lost comes even before an error of the action itself.
-/

namespace TransportNats.Idempotency

open Interleaving Program

section
variable {R : Runtime}

/-! ### Executions without a run -/

/-- The call of `Claim` that an execution begins with. -/
def claiming (R : Runtime) (cfg : IdempotencyConfig) (msg : Msg) :
    Exec R (Except Err IdempotencyClaim) :=
  (kvCoordinator R).claim (idempotencyKey R cfg msg) (msgHash R.sha256 msg) cfg.effectiveLeaseTTL

/-- The entry was stored for another request. -/
def Mismatch (R : Runtime) (msg : Msg) (entry : IdempotencyEntry) : Prop :=
  entry.requestHash ≠ "" ∧ entry.requestHash ≠ msgHash R.sha256 msg

/-- The refusal of a key that stands for another request. -/
def differentPayload : Err :=
  .app .conflict "idempotency key already used with a different payload"

/-- Why an execution with the history `h` does not run its action: it has found
an entry to replay, or an error to refuse with. -/
inductive Unexecuted (R : Runtime) (cfg : IdempotencyConfig) (msg : Msg) :
    StoreKind → ExecHist R → Except Err IdempotencyEntry → Prop
  | claimFailed {h : ExecHist R} {err : Err} (hret : (claiming R cfg msg).Returns h (.error err)) :
      Unexecuted R cfg msg .coordinator h (.error err)
  | replayed {h : ExecHist R} {claim : IdempotencyClaim}
      (hret : (claiming R cfg msg).Returns h (.ok claim)) (hstate : claim.state = .completed)
      (hentry : ¬ Mismatch R msg claim.entry) :
      Unexecuted R cfg msg .coordinator h (.ok claim.entry)
  | mismatched {h : ExecHist R} {claim : IdempotencyClaim}
      (hret : (claiming R cfg msg).Returns h (.ok claim))
      (hstate : claim.state = .conflict ∨
        claim.state = .completed ∧ Mismatch R msg claim.entry) :
      Unexecuted R cfg msg .coordinator h (.error differentPayload)
  | inProgress {h : ExecHist R} {claim : IdempotencyClaim}
      (hret : (claiming R cfg msg).Returns h (.ok claim)) (hstate : claim.state = .inProgress) :
      Unexecuted R cfg msg .coordinator h
        (.error (.app .unavailable "an identical request is currently in progress"))
  | unknown {h : ExecHist R} {claim : IdempotencyClaim}
      (hret : (claiming R cfg msg).Returns h (.ok claim)) (hstate : claim.state = .other) :
      Unexecuted R cfg msg .coordinator h
        (.error (.app .internal "invalid idempotency claim state"))
  | found {entry : IdempotencyEntry} (hentry : ¬ Mismatch R msg entry) :
      Unexecuted R cfg msg .legacy [⟨.storeGet (idempotencyKey R cfg msg), some entry⟩] (.ok entry)
  | foundMismatched {entry : IdempotencyEntry} (hentry : Mismatch R msg entry) :
      Unexecuted R cfg msg .legacy [⟨.storeGet (idempotencyKey R cfg msg), some entry⟩]
        (.error differentPayload)

/-! ### Executions with a run -/

/-- The action was run once in the history `h`, with the given outcome; `renewal`
is what the execution has learned about its lease. -/
structure Ran (msg : Msg) (h : ExecHist R) (outcome : Outcome R.Value) (renewal : Option Err) :
    Prop where
  runs : ∀ m o, ⟨.executeDecoded m, o⟩ ∈ h ↔ m = msg ∧ o = outcome
  renewals : ∀ err, ⟨.renewalError, some err⟩ ∈ h ↔ renewal = some err

/-- What is left of an execution that is about to complete its claim. -/
def completing (R : Runtime) (cfg : IdempotencyConfig) (msg : Msg) (token : String)
    (entry : IdempotencyEntry) : Exec R Reply := do
  match ← (kvCoordinator R).complete (idempotencyKey R cfg msg) token entry cfg.ttl with
  | some err =>
      releaseThen (kvCoordinator R) (idempotencyKey R cfg msg) token
        (failReply R (.appOf .conflict "idempotency outcome is indeterminate" err))
  | none => return .returned entry.body none

/-- In the history `h` an execution has come to its call of `Complete`, and the
call has returned an error. -/
def CompleteRefused (R : Runtime) (cfg : IdempotencyConfig) (msg : Msg) :
    StoreKind → ExecHist R → Prop
  | .coordinator, h =>
      ∃ token entry h₀ hc err,
        (executeWithIdempotency R (StoreKind.coordinator.store R) cfg msg).Leads h₀
          (completing R cfg msg token entry) ∧
        ((kvCoordinator R).complete (idempotencyKey R cfg msg) token entry cfg.ttl).Returns hc
          (some err) ∧
        hc ++ h₀ <:+ h
  | .legacy, _ => False

/-- The reply of an execution with the history `h` that has run its action. -/
inductive Concludes (R : Runtime) (cfg : IdempotencyConfig) (msg : Msg) (kind : StoreKind)
    (h : ExecHist R) : Outcome R.Value → Option Err → Reply → Prop
  | panicked : Concludes R cfg msg kind h .panicked none .panicked
  | leaseLost {outcome : Outcome R.Value} {err : Err} (hne : outcome ≠ .panicked) :
      Concludes R cfg msg kind h outcome (some err) (failReply R err)
  | failed {err : Err} : Concludes R cfg msg kind h (.failed err) none (failReply R err)
  | unmarshalled {v : R.Value} {err : Err} (hm : R.marshal v = .error err) :
      Concludes R cfg msg kind h (.value v) none
        (failReply R (.appOf .internal "failed to marshal idempotent response" err))
  | refused {v : R.Value} {body : Bytes} {err : Err} (hm : R.marshal v = .ok body)
      (hc : CompleteRefused R cfg msg kind h) :
      Concludes R cfg msg kind h (.value v) none
        (failReply R (.appOf .conflict "idempotency outcome is indeterminate" err))
  | completed {v : R.Value} {body : Bytes} (hm : R.marshal v = .ok body) :
      Concludes R cfg msg kind h (.value v) none (.returned body none)

/-! ### Parts of a history -/

variable {cfg : IdempotencyConfig} {msg : Msg} {h : ExecHist R}

/-- Nothing in the history runs the action or asks about the lease. -/
def Aside (h : ExecHist R) : Prop :=
  ∀ x ∈ h, (∀ m, x.op ≠ .executeDecoded m) ∧ x.op ≠ .renewalError

theorem aside_nil : Aside ([] : ExecHist R) := fun x hx => by cases hx

theorem aside_singleton {x : Answered (execSig R)} (hrun : ∀ m, x.op ≠ .executeDecoded m)
    (hask : x.op ≠ .renewalError) : Aside [x] := by
  intro y hy
  obtain rfl := List.mem_singleton.mp hy
  exact ⟨hrun, hask⟩

theorem aside_map (hk : Hist) : Aside (hk.map (kvEmbedding R).answered) := by
  intro x hx
  obtain ⟨y, -, rfl⟩ := List.mem_map.mp hx
  exact ⟨fun _ => ExecOp.noConfusion, ExecOp.noConfusion⟩

theorem Aside.append {h' : ExecHist R} (hh : Aside h) (hh' : Aside h') : Aside (h ++ h') := by
  intro x hx
  rcases List.mem_append.mp hx with hx | hx
  · exact hh x hx
  · exact hh' x hx

theorem aside_of_returns_lift {α : Type} {p : Kv α} {a : α}
    (hret : (p.lift (kvEmbedding R)).Returns h a) : Aside h := by
  obtain ⟨hk, rfl, -⟩ := hret.of_lift
  exact aside_map hk

/-- What comes before, around and after a run of the action may be anything else. -/
theorem ran_of_parts {after asked stopped before : ExecHist R} {outcome : Outcome R.Value}
    {renewal : Option Err} (hafter : Aside after) (hstopped : Aside stopped)
    (hbefore : Aside before) (hasked : ∀ x ∈ asked, ∀ m, x.op ≠ .executeDecoded m)
    (hrenewal : ∀ err, ⟨.renewalError, some err⟩ ∈ asked ↔ renewal = some err) :
    Ran msg (after ++ (asked ++ (stopped ++ ⟨.executeDecoded msg, outcome⟩ :: before))) outcome
      renewal where
  runs m o := by
    have hnot : ∀ {part : ExecHist R}, Aside part → ⟨.executeDecoded m, o⟩ ∉ part :=
      fun hpart hmem => (hpart _ hmem).1 m rfl
    have hasked' : (⟨.executeDecoded m, o⟩ : Answered (execSig R)) ∉ asked :=
      fun hmem => hasked _ hmem m rfl
    simp [hnot hafter, hnot hstopped, hnot hbefore, hasked']
  renewals err := by
    have hnot : ∀ {part : ExecHist R}, Aside part → ⟨.renewalError, some err⟩ ∉ part :=
      fun hpart hmem => (hpart _ hmem).2 rfl
    simp [hnot hafter, hnot hstopped, hnot hbefore, hrenewal err]

/-- The same where nobody was asked for a renewal error. -/
theorem ran_of_unasked {after stopped before : ExecHist R} {outcome : Outcome R.Value}
    (hafter : Aside after) (hstopped : Aside stopped) (hbefore : Aside before) :
    Ran msg (after ++ (stopped ++ ⟨.executeDecoded msg, outcome⟩ :: before)) outcome none := by
  have hran : Ran msg (after ++ ([] ++ (stopped ++ ⟨.executeDecoded msg, outcome⟩ :: before)))
      outcome none := ran_of_parts hafter hstopped hbefore (fun x hx => by cases hx) (by simp)
  exact hran

/-! ### The coordinator -/

theorem returns_releaseThen {key token : String} {reply r : Reply}
    (hret : (releaseThen (kvCoordinator R) key token reply).Returns h r) :
    r = reply ∧ Aside h := by
  obtain ⟨h₁, h₂, err, rfl, hrel, -, hret⟩ := hret.of_bind
  cases hret
  exact ⟨rfl, aside_of_returns_lift hrel⟩

/-- An execution whose `Complete` was refused replies so. -/
theorem returns_completing {token : String} {entry : IdempotencyEntry} {r : Reply}
    (hret : (completing R cfg msg token entry).Returns h r) :
    Aside h ∧ (r = .returned entry.body none ∨ ∃ hc err,
      ((kvCoordinator R).complete (idempotencyKey R cfg msg) token entry cfg.ttl).Returns hc
        (some err) ∧ hc <:+ h ∧
      r = failReply R (.appOf .conflict "idempotency outcome is indeterminate" err)) := by
  obtain ⟨h₁, h₂, res, rfl, hcomplete, -, hret⟩ := hret.of_bind
  have h₁a := aside_of_returns_lift hcomplete
  cases res with
  | none =>
      cases hret
      exact ⟨h₁a, .inl rfl⟩
  | some err =>
      obtain ⟨rfl, h₂a⟩ := returns_releaseThen hret
      exact ⟨h₂a.append h₁a, .inr ⟨h₁, err, hcomplete, List.suffix_append _ _, rfl⟩⟩

theorem returns_startCoordinatorLeaseRenewal {key token : String} {leaseTTL : ℤ} {started : Bool}
    (hret : (startCoordinatorLeaseRenewal (kvCoordinator R) key token leaseTTL).Returns h
      started) : Aside h := by
  unfold startCoordinatorLeaseRenewal at hret
  split at hret
  · cases hret with
    | call hret =>
        cases hret
        exact aside_singleton (fun _ => ExecOp.noConfusion) ExecOp.noConfusion
  · cases hret
    exact aside_nil

theorem returns_stopRenewal {started : Bool} {u : Unit}
    (hret : (stopRenewal started).Returns h u) : Aside h := by
  cases started with
  | true =>
      obtain rfl := hret.of_perform
      exact aside_singleton (fun _ => ExecOp.noConfusion) ExecOp.noConfusion
  | false =>
      cases hret
      exact aside_nil

theorem returns_receiveRenewalError {started : Bool} {renewal : Option Err}
    (hret : (receiveRenewalError started).Returns h renewal) :
    (∀ x ∈ h, ∀ m, x.op ≠ .executeDecoded m) ∧
      ∀ err, ⟨.renewalError, some err⟩ ∈ h ↔ renewal = some err := by
  cases started with
  | true =>
      obtain rfl := hret.of_perform
      refine ⟨fun x hx m => ?_, fun err => ?_⟩
      · obtain rfl := List.mem_singleton.mp hx
        exact ExecOp.noConfusion
      · simp [eq_comm]
  | false =>
      cases hret
      refine ⟨fun x hx => ?_, fun err => by simp⟩
      cases hx

/-- An execution that comes to its call of `Complete` after the history `h₀` replies
with its result or that the call was refused. -/
theorem concludes_completing {token : String} {entry : IdempotencyEntry} {v : R.Value}
    {h₀ : ExecHist R} {r : Reply} (hm : R.marshal v = .ok entry.body)
    (hlead : (executeWithIdempotency R (StoreKind.coordinator.store R) cfg msg).Leads h₀
      (completing R cfg msg token entry))
    (hret : (completing R cfg msg token entry).Returns h r) :
    Aside h ∧ Concludes R cfg msg .coordinator (h ++ h₀) (.value v) none r := by
  obtain ⟨ha, rfl | ⟨hc, err, hcomplete, ⟨newer, rfl⟩, rfl⟩⟩ := returns_completing hret
  · exact ⟨ha, .completed hm⟩
  · refine ⟨ha, .refused hm ⟨token, entry, h₀, hc, err, hlead, hcomplete, newer, ?_⟩⟩
    rw [List.append_assoc]

/-- How an execution that owns its claim ends, after the history `h₀` of the
call of `Claim`. -/
theorem returns_executeClaimed {token : String} {h₀ : ExecHist R} {r : Reply}
    (h₀a : Aside h₀)
    (hlead : (executeWithIdempotency R (StoreKind.coordinator.store R) cfg msg).Leads h₀
      (executeClaimed (kvCoordinator R) cfg msg (idempotencyKey R cfg msg) (msgHash R.sha256 msg)
        token))
    (hret : (executeClaimed (kvCoordinator R) cfg msg (idempotencyKey R cfg msg)
      (msgHash R.sha256 msg) token).Returns h r) :
    ∃ outcome renewal, Ran msg (h ++ h₀) outcome renewal ∧
      Concludes R cfg msg .coordinator (h ++ h₀) outcome renewal r := by
  unfold executeClaimed at hlead hret
  obtain ⟨h₁, h', started, rfl, hstart, hl₁, hret₁⟩ := hret.of_bind
  have hlead₁ := hlead.trans hl₁
  have h₁a := (returns_startCoordinatorLeaseRenewal hstart).append h₀a
  obtain ⟨h₂, h', outcome, rfl, hrun, hl₂, hret₂⟩ := hret₁.of_bind
  have hlead₂ := hlead₁.trans hl₂
  obtain ⟨h₃, h', u, rfl, hstop, hl₃, hret₃⟩ := hret₂.of_bind
  have hlead₃ := hlead₂.trans hl₃
  have h₃a := returns_stopRenewal hstop
  obtain rfl := hrun.of_perform
  -- an execution that asks about its lease goes on from there
  have hparts : ∀ {after asked : ExecHist R} {renewal : Option Err}, Aside after →
      (receiveRenewalError started).Returns asked renewal →
      Ran msg (after ++ (asked ++ (h₃ ++ ⟨.executeDecoded msg, outcome⟩ :: (h₁ ++ h₀)))) outcome
        renewal := by
    intro after asked renewal hafter hask
    obtain ⟨hruns, hrenewal⟩ := returns_receiveRenewalError hask
    exact ran_of_parts hafter h₃a h₁a hruns hrenewal
  have hassoc : ∀ after : ExecHist R,
      after ++ h₃ ++ [⟨.executeDecoded msg, outcome⟩] ++ h₁ ++ h₀ =
        after ++ (h₃ ++ ⟨.executeDecoded msg, outcome⟩ :: (h₁ ++ h₀)) := by simp
  rw [hassoc]
  refine ⟨outcome, ?_⟩
  cases outcome with
  | panicked =>
      obtain ⟨rfl, hafter⟩ := returns_releaseThen hret₃
      refine ⟨none, ?_, .panicked⟩
      exact ran_of_unasked hafter h₃a h₁a
  | failed execErr =>
      obtain ⟨asked, after, renewal, rfl, hask, -, hret₄⟩ := hret₃.of_bind
      rw [List.append_assoc]
      cases renewal with
      | some renewalErr =>
          obtain ⟨rfl, hafter⟩ := returns_releaseThen hret₄
          exact ⟨_, hparts hafter hask, .leaseLost nofun⟩
      | none =>
          obtain ⟨rfl, hafter⟩ := returns_releaseThen hret₄
          exact ⟨_, hparts hafter hask, .failed⟩
  | value res =>
      obtain ⟨asked, after, renewal, rfl, hask, hl₄, hret₄⟩ := hret₃.of_bind
      have hlead₄ := hlead₃.trans hl₄
      rw [List.append_assoc]
      cases renewal with
      | some renewalErr =>
          obtain ⟨rfl, hafter⟩ := returns_releaseThen hret₄
          exact ⟨_, hparts hafter hask, .leaseLost nofun⟩
      | none =>
          dsimp only at hret₄ hlead₄
          split at hret₄
          · rename_i err hm
            obtain ⟨rfl, hafter⟩ := returns_releaseThen hret₄
            exact ⟨_, hparts hafter hask, .unmarshalled hm⟩
          · rename_i replyBytes hm
            rw [hm] at hlead₄
            obtain ⟨hn, hc, now, rfl, hnow, hl₅, hret₅⟩ := hret₄.of_bind
            have hcompleting : (completing R cfg msg token
                ⟨200, replyBytes, now.val, msgHash R.sha256 msg⟩).Returns hc _ := hret₅
            obtain ⟨hca, hend⟩ := concludes_completing hm (hlead₄.trans hl₅) hcompleting
            refine ⟨_, hparts (hca.append (aside_of_returns_lift hnow)) hask, ?_⟩
            simpa using hend

/-- An execution whose `Complete` was refused says so. -/
theorem CompleteRefused.reply {kind : StoreKind} {r : Reply} (hc : CompleteRefused R cfg msg kind h)
    (hret : (executeWithIdempotency R (kind.store R) cfg msg).Returns h r) :
    ∃ err, r = failReply R (.appOf .conflict "idempotency outcome is indeterminate" err) := by
  cases kind with
  | legacy => exact hc.elim
  | coordinator =>
      obtain ⟨token, entry, h₀, hc, err, hlead, hcomplete, newer, rfl⟩ := hc
      rw [← List.append_assoc] at hret
      have hrest := (hcomplete.leads_bind _).returns (hlead.returns hret)
      exact ⟨err, (returns_releaseThen hrest).1⟩

/-! ### Every execution -/

theorem aside_storeGet (key : String) (r : Option IdempotencyEntry) :
    Aside (R := R) [⟨.storeGet key, r⟩] :=
  aside_singleton (fun _ => ExecOp.noConfusion) ExecOp.noConfusion

theorem Unexecuted.aside {kind : StoreKind} {res : Except Err IdempotencyEntry}
    (hu : Unexecuted R cfg msg kind h res) : Aside h := by
  cases hu with
  | claimFailed hret => exact aside_of_returns_lift hret
  | replayed hret | mismatched hret | inProgress hret | unknown hret =>
      exact aside_of_returns_lift hret
  | found | foundMismatched => exact aside_storeGet _ _

/-- What is replayed is not refused. -/
theorem Unexecuted.not_refused {kind : StoreKind} {entry : IdempotencyEntry} {err : Err}
    (hu : Unexecuted R cfg msg kind h (.ok entry)) :
    ¬ Unexecuted R cfg msg kind h (.error err) := by
  intro hu'
  cases hu with
  | replayed hret hstate hentry =>
      cases hu' with
      | claimFailed hret' => cases hret.unique hret'
      | mismatched hret' hstate' =>
          cases hret.unique hret'
          rcases hstate' with hconflict | ⟨-, hmis⟩
          · cases hstate.symm.trans hconflict
          · exact hentry hmis
      | inProgress hret' hstate' | unknown hret' hstate' =>
          cases hret.unique hret'
          cases hstate.symm.trans hstate'
  | found hentry =>
      cases hu' with
      | foundMismatched hmis => exact hentry hmis

/-- The reply of an execution that does not run its action. -/
def unexecutedReply (R : Runtime) : Except Err IdempotencyEntry → Reply
  | .error err => failReply R err
  | .ok entry => .returned entry.body none

/-- An execution gives a reason not to run its action, or it runs it and concludes. -/
inductive EndsAs (R : Runtime) (cfg : IdempotencyConfig) (msg : Msg) (kind : StoreKind)
    (h : ExecHist R) (r : Reply) : Prop
  | unexecuted (res : Except Err IdempotencyEntry) (reason : Unexecuted R cfg msg kind h res)
      (reply : r = unexecutedReply R res)
  | executed (outcome : Outcome R.Value) (renewal : Option Err) (ran : Ran msg h outcome renewal)
      (concludes : Concludes R cfg msg kind h outcome renewal r)

theorem endsAs_coordinator {r : Reply}
    (hret : (executeWithIdempotency R (StoreKind.coordinator.store R) cfg msg).Returns h r) :
    EndsAs R cfg msg .coordinator h r := by
  obtain ⟨h₀, h₁, res, rfl, hclaim, hlead, hret₁⟩ :=
    Returns.of_bind (p := claiming R cfg msg) hret
  have h₀a := aside_of_returns_lift hclaim
  cases res with
  | error err =>
      cases hret₁
      exact .unexecuted _ (.claimFailed hclaim) rfl
  | ok claim =>
      dsimp only at hlead hret₁
      cases hstate : claim.state <;> rw [hstate] at hlead hret₁
      case acquired =>
        obtain ⟨outcome, renewal, hran, hend⟩ := returns_executeClaimed h₀a hlead hret₁
        exact .executed outcome renewal hran hend
      case completed =>
        dsimp only at hret₁
        split at hret₁
        · rename_i hmis
          cases hret₁
          exact .unexecuted _ (.mismatched hclaim (.inr ⟨hstate, hmis⟩)) rfl
        · rename_i hmatch
          cases hret₁
          exact .unexecuted _ (.replayed hclaim hstate hmatch) rfl
      case conflict =>
        cases hret₁
        exact .unexecuted _ (.mismatched hclaim (.inl hstate)) rfl
      case inProgress =>
        cases hret₁
        exact .unexecuted _ (.inProgress hclaim hstate) rfl
      case other =>
        cases hret₁
        exact .unexecuted _ (.unknown hclaim hstate) rfl

/-- The action is run after the store was found empty. -/
theorem ran_legacy {after : ExecHist R} {outcome : Outcome R.Value} (hafter : Aside after) :
    Ran msg (after ++ [⟨.executeDecoded msg, outcome⟩] ++
      [⟨.storeGet (idempotencyKey R cfg msg), none⟩]) outcome none := by
  have hparts : Ran msg (after ++ ([] ++ ⟨.executeDecoded msg, outcome⟩ ::
      [⟨.storeGet (idempotencyKey R cfg msg), none⟩])) outcome none :=
    ran_of_unasked hafter aside_nil (aside_storeGet _ _)
  simpa using hparts

theorem endsAs_legacy {r : Reply}
    (hret : (executeWithIdempotency R (StoreKind.legacy.store R) cfg msg).Returns h r) :
    EndsAs R cfg msg .legacy h r := by
  obtain ⟨h₀, h₁, found, rfl, hget, -, hret₁⟩ :=
    Returns.of_bind (p := storeGet (idempotencyKey R cfg msg)) hret
  obtain rfl := hget.of_perform
  cases found with
  | some entry =>
      dsimp only at hret₁
      split at hret₁
      · rename_i hmis
        cases hret₁
        exact .unexecuted _ (.foundMismatched hmis) rfl
      · rename_i hmatch
        cases hret₁
        exact .unexecuted _ (.found hmatch) rfl
  | none =>
      obtain ⟨h₂, h', outcome, rfl, hrun, -, hret₂⟩ := hret₁.of_bind
      obtain rfl := hrun.of_perform
      cases outcome with
      | panicked =>
          cases hret₂
          exact .executed _ _ (ran_legacy aside_nil) .panicked
      | failed execErr =>
          cases hret₂
          exact .executed _ _ (ran_legacy aside_nil) .failed
      | value res =>
          dsimp only at hret₂
          split at hret₂
          · rename_i err hm
            cases hret₂
            exact .executed _ _ (ran_legacy aside_nil) (.unmarshalled hm)
          · rename_i replyBytes hm
            obtain ⟨hn, h', now, rfl, hnow, -, hret₃⟩ := hret₂.of_bind
            obtain ⟨hs, h', u, rfl, hset, -, hret₄⟩ := hret₃.of_bind
            obtain rfl := hset.of_perform
            cases hret₄
            refine .executed _ _ (ran_legacy ?_) (.completed hm)
            refine Aside.append ?_ (aside_of_returns_lift hnow)
            exact aside_singleton (fun _ => ExecOp.noConfusion) ExecOp.noConfusion

theorem endsAs_of_returns {kind : StoreKind} {r : Reply}
    (hret : (executeWithIdempotency R (kind.store R) cfg msg).Returns h r) :
    EndsAs R cfg msg kind h r := by
  cases kind with
  | coordinator => exact endsAs_coordinator hret
  | legacy => exact endsAs_legacy hret

end

end TransportNats.Idempotency
