import TransportNats.Idempotency.Execute

/-!
A claimed request next to the renewal of its lease.

`Execute` takes the coordinator's methods apart and treats the renewal
goroutine as something that is started and stopped. Here it is the other way
round: a call of the coordinator is one operation with any result, and what the
executor shares with the goroutine is modelled in full, the mutex, the flag,
the two channels that are closed and the channel that carries one error.

The goroutine loops until it is told to stop. A run in which its ticker fires
at most `ticks` times is a run of the loop below with that parameter: when the
ticks are used up, only the stop channel can wake it.

The two views fit together. When every operation of the executor is replaced by
the program that `Execute` has in its place, the result is the executor of
`Execute`.
-/

namespace TransportNats.Renewal

open Interleaving Idempotency

/-! ### Operations -/

/-- Which case of the goroutine's `select` is taken. -/
inductive Wakeup
  | stop | tick

inductive RenewalOp (R : Runtime)
  | claim (key requestHash : String) (leaseTTL : ℤ)
  | executeDecoded (msg : Msg)
  | marshal (res : R.Value)
  | now
  | complete (key token : String) (entry : IdempotencyEntry) (ttl : ℤ)
  | release (key token : String)
  | cancelAction
  | goRenewal (key token : String) (leaseTTL : ℤ)
  | lockState
  | unlockState
  | setStopped
  | isStopped
  | closeStop
  | awaitDone
  | receiveError
  | awaitStop
  | select
  | renewBegin (key token : String) (leaseTTL : ℤ)
  | renewEnd
  | sendError (err : Err)
  | closeDone

@[reducible] def RenewalOp.Ret {R : Runtime} : RenewalOp R → Type
  | .claim _ _ _ => Except Err IdempotencyClaim
  | .executeDecoded _ => Outcome R.Value
  | .marshal _ => Outcome Bytes
  | .now => I64
  | .complete _ _ _ _ => Option Err
  | .release _ _ => Option Err
  | .isStopped => Bool
  | .receiveError => Option Err
  | .select => Wakeup
  | .renewEnd => Option Err
  | .cancelAction | .goRenewal _ _ _ | .lockState | .unlockState | .setStopped | .closeStop
  | .awaitDone | .awaitStop | .renewBegin _ _ _ | .sendError _ | .closeDone => Unit

abbrev renewalSig (R : Runtime) : Signature := ⟨RenewalOp R, RenewalOp.Ret⟩

abbrev Renewing (R : Runtime) := Program (renewalSig R)

section
variable {R : Runtime}

/-- One operation as a program. -/
def op (o : RenewalOp R) : Renewing R o.Ret := .perform (S := renewalSig R) o

/-! ### The executor -/

/-- The function returned by `startCoordinatorLeaseRenewal`, when it is called for
the first time. Without a goroutine it does nothing. -/
def stopRenewal (started : Bool) : Renewing R Unit := do
  if started then
    op .lockState
    op .setStopped
    op .unlockState
    op .closeStop
    op .awaitDone
  else return ()

def startCoordinatorLeaseRenewal (renews : Bool) (key token : String) (leaseTTL : ℤ) :
    Renewing R Bool := do
  if renews ∧ 0 < leaseTTL then
    op (.goRenewal key token leaseTTL)
    return true
  else return false

/-- The receive with a default case; the channel is nil without a goroutine. -/
def receiveError (started : Bool) : Renewing R (Option Err) := do
  if started then op .receiveError else return none

/-- The deferred functions, the last one first. `stopped` says that `stopRenewal`
has been called already and does nothing any more. -/
def deferred (started stopped completed : Bool) (key token : String) (reply : Reply) :
    Renewing R Reply := do
  if stopped then pure () else stopRenewal started
  op .cancelAction
  if completed then return reply
  else
    let _ ← op (.release key token)
    return reply

/-- The part of `executeWithCoordinator` after no error of a renewal was found. -/
def storeOutcome (started : Bool) (cfg : IdempotencyConfig) (key reqHash token : String)
    (outcome : Except Err R.Value) : Renewing R Reply := do
  match outcome with
  | .error execErr => deferred started true false key token (failReply R execErr)
  | .ok res =>
      match ← op (.marshal res) with
      | .panicked => deferred started true false key token .panicked
      | .failed err =>
          deferred started true false key token
            (failReply R (.appOf .internal "failed to marshal idempotent response" err))
      | .value replyBytes =>
          let now ← op .now
          match ← op (.complete key token ⟨200, replyBytes, now.val, reqHash⟩ cfg.ttl) with
          | some err =>
              deferred started true false key token
                (failReply R (.appOf .conflict "idempotency outcome is indeterminate" err))
          | none => deferred started true true key token (.returned replyBytes none)

/-- The part of `executeWithCoordinator` after the action has returned. -/
def finalize (started : Bool) (cfg : IdempotencyConfig) (key reqHash token : String)
    (outcome : Except Err R.Value) : Renewing R Reply := do
  stopRenewal started
  op .cancelAction
  match ← receiveError started with
  | some renewalErr => deferred started true false key token (failReply R renewalErr)
  | none => storeOutcome started cfg key reqHash token outcome

/-- The part of `executeWithCoordinator` that owns the execution right. -/
def executeClaimed (renews : Bool) (cfg : IdempotencyConfig) (msg : Msg)
    (key reqHash token : String) : Renewing R Reply := do
  let started ← startCoordinatorLeaseRenewal renews key token cfg.effectiveLeaseTTL
  match ← op (.executeDecoded msg) with
  | .panicked => deferred started false false key token .panicked
  | .failed execErr => finalize started cfg key reqHash token (.error execErr)
  | .value res => finalize started cfg key reqHash token (.ok res)

def executeWithCoordinator (renews : Bool) (cfg : IdempotencyConfig) (msg : Msg)
    (key reqHash : String) : Renewing R Reply := do
  match ← op (.claim key reqHash cfg.effectiveLeaseTTL) with
  | .error err => return failReply R err
  | .ok claim =>
      match claim.state with
      | .completed =>
          if claim.entry.requestHash ≠ "" ∧ claim.entry.requestHash ≠ reqHash then
            return failReply R
              (.app .conflict "idempotency key already used with a different payload")
          else return .returned claim.entry.body none
      | .conflict =>
          return failReply R
            (.app .conflict "idempotency key already used with a different payload")
      | .inProgress =>
          return failReply R (.app .unavailable "an identical request is currently in progress")
      | .acquired => executeClaimed renews cfg msg key reqHash claim.token
      | .other => return failReply R (.app .internal "invalid idempotency claim state")

/-! ### The goroutine -/

/-- What the goroutine does with the error of a renewal. -/
def reportError (renewErr : Err) : Renewing R Unit := do
  op .lockState
  if ← op .isStopped then op .unlockState
  else
    op (.sendError (mapError renewErr))
    op .cancelAction
    op .unlockState

def renewalLoop (key token : String) (leaseTTL : ℤ) : ℕ → Renewing R Unit
  | 0 => op .awaitStop
  | ticks + 1 => do
      match ← op .select with
      | .stop => return ()
      | .tick =>
          op (.renewBegin key token leaseTTL)
          match ← op .renewEnd with
          | none => renewalLoop key token leaseTTL ticks
          | some renewErr => reportError renewErr

def renewal (key token : String) (leaseTTL : ℤ) (ticks : ℕ) : Renewing R Unit := do
  renewalLoop key token leaseTTL ticks
  op .closeDone

end

/-! ### The executor of `Execute` -/

section
variable {R : Runtime}

/-- How a marshalling ends that does not panic. -/
def marshalled (R : Runtime) (res : R.Value) : Outcome Bytes :=
  match R.marshal res with
  | .ok b => .value b
  | .error err => .failed err

/-- What `Execute` has in the place of an operation. It does not look at what the
executor and the goroutine do to stop each other; the operations of the
goroutine do not occur in the executor. -/
def refine (c : Coordinator R) : (o : RenewalOp R) → Exec R o.Ret
  | .claim key requestHash leaseTTL => c.claim key requestHash leaseTTL
  | .executeDecoded msg => Idempotency.executeDecoded msg
  | .marshal res => pure (marshalled R res)
  | .now => timeNow.lift (kvEmbedding R)
  | .complete key token entry ttl => c.complete key token entry ttl
  | .release key token => c.release key token
  | .goRenewal key token leaseTTL => .perform (S := execSig R) (.startRenewal key token leaseTTL)
  | .awaitDone => .perform (S := execSig R) .stopRenewal
  | .receiveError => .perform (S := execSig R) .renewalError
  | .cancelAction | .lockState | .unlockState | .setStopped | .closeStop | .awaitStop
  | .renewBegin _ _ _ | .sendError _ | .closeDone => pure ()
  | .isStopped => pure true
  | .select => pure .stop
  | .renewEnd => pure none

variable (c : Coordinator R)

theorem interp_stopRenewal (started : Bool) :
    (stopRenewal started : Renewing R Unit).interp (refine c) =
      Idempotency.stopRenewal started := by
  cases started <;> rfl

theorem interp_receiveError (started : Bool) :
    (receiveError started : Renewing R (Option Err)).interp (refine c) =
      receiveRenewalError started := by
  cases started <;> rfl

theorem interp_startCoordinatorLeaseRenewal (key token : String) (leaseTTL : ℤ) :
    (startCoordinatorLeaseRenewal c.renews key token leaseTTL : Renewing R Bool).interp
        (refine c) = Idempotency.startCoordinatorLeaseRenewal c key token leaseTTL := by
  unfold startCoordinatorLeaseRenewal Idempotency.startCoordinatorLeaseRenewal
  split <;> rfl

theorem interp_deferred (started completed : Bool) (key token : String) (reply : Reply) :
    (deferred started true completed key token reply : Renewing R Reply).interp (refine c) =
      if completed then pure reply else releaseThen c key token reply := by
  cases completed <;> rfl

theorem interp_deferred_stop (started : Bool) (key token : String) (reply : Reply) :
    (deferred started false false key token reply : Renewing R Reply).interp (refine c) =
      Idempotency.stopRenewal started >>= fun _ => releaseThen c key token reply := by
  change ((stopRenewal started >>= fun _ => deferred started true false key token reply :
    Renewing R Reply)).interp (refine c) = _
  rw [Program.interp_bind, interp_stopRenewal]
  rfl

theorem interp_finalize (started : Bool) (cfg : IdempotencyConfig)
    (key reqHash token : String) (outcome : Except Err R.Value) :
    (finalize started cfg key reqHash token outcome).interp (refine c) = (do
      Idempotency.stopRenewal started
      match ← receiveRenewalError started with
      | some renewalErr => releaseThen c key token (failReply R renewalErr)
      | none => (storeOutcome started cfg key reqHash token outcome).interp (refine c)) := by
  unfold finalize
  rw [Program.interp_bind, interp_stopRenewal]
  congr 1
  funext _
  unfold op
  rw [Program.interp_perform_bind]
  refine (Program.interp_bind _ _).trans ?_
  rw [interp_receiveError]
  congr 1
  funext r
  cases r with
  | some renewalErr => exact interp_deferred c started false key token _
  | none => rfl

theorem interp_storeOutcome (started : Bool) (cfg : IdempotencyConfig)
    (key reqHash token : String) (res : R.Value) :
    (storeOutcome started cfg key reqHash token (.ok res)).interp (refine c) =
      match R.marshal res with
      | .error err =>
          releaseThen c key token
            (failReply R (.appOf .internal "failed to marshal idempotent response" err))
      | .ok replyBytes => do
          let now ← timeNow.lift (kvEmbedding R)
          match ← c.complete key token ⟨200, replyBytes, now.val, reqHash⟩ cfg.ttl with
          | some err =>
              releaseThen c key token
                (failReply R (.appOf .conflict "idempotency outcome is indeterminate" err))
          | none => return .returned replyBytes none := by
  unfold storeOutcome op
  dsimp only
  rw [Program.interp_perform_bind]
  have hmarshal : refine c (.marshal res) = pure (marshalled R res) := rfl
  rw [hmarshal, marshalled]
  cases R.marshal res with
  | error err => exact interp_deferred c started false key token _
  | ok replyBytes =>
      refine congrArg (timeNow.lift (kvEmbedding R) >>= ·) (funext fun now => ?_)
      refine congrArg (c.complete key token _ cfg.ttl >>= ·) (funext fun r => ?_)
      cases r with
      | some err => exact interp_deferred c started false key token _
      | none => exact interp_deferred c started true key token _

theorem interp_executeClaimed (cfg : IdempotencyConfig) (msg : Msg) (key reqHash token : String) :
    (executeClaimed c.renews cfg msg key reqHash token).interp (refine c) =
      Idempotency.executeClaimed c cfg msg key reqHash token := by
  unfold executeClaimed Idempotency.executeClaimed
  rw [Program.interp_bind, interp_startCoordinatorLeaseRenewal]
  congr 1
  funext started
  unfold op Idempotency.executeDecoded
  rw [Program.interp_perform_bind]
  congr 1
  funext outcome
  cases outcome with
  | panicked => exact interp_deferred_stop c started key token .panicked
  | failed execErr =>
      exact interp_finalize c started cfg key reqHash token (.error execErr)
  | value res =>
      refine (interp_finalize c started cfg key reqHash token (.ok res)).trans ?_
      congr 1
      funext _
      dsimp only
      congr 1
      funext r
      cases r with
      | some renewalErr => rfl
      | none =>
          exact interp_storeOutcome c started cfg key reqHash token res

/-- With the coordinator's methods in the place of the operations, the executor is
the one of `Execute`. -/
theorem interp_executeWithCoordinator (cfg : IdempotencyConfig) (msg : Msg)
    (key reqHash : String) :
    (executeWithCoordinator c.renews cfg msg key reqHash).interp (refine c) =
      Idempotency.executeWithCoordinator c cfg msg key reqHash := by
  unfold executeWithCoordinator Idempotency.executeWithCoordinator op
  rw [Program.interp_perform_bind]
  refine congrArg (c.claim key reqHash cfg.effectiveLeaseTTL >>= ·) (funext fun r => ?_)
  cases r with
  | error err => rfl
  | ok claim =>
      dsimp only
      cases claim.state with
      | completed =>
          dsimp only
          split <;> rfl
      | conflict | inProgress | other => rfl
      | acquired => exact interp_executeClaimed c cfg msg key reqHash claim.token

end

end TransportNats.Renewal
