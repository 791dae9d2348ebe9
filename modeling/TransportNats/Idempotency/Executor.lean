import TransportNats.Idempotency.Renewal
import TransportNats.Idempotency.Replay

/-!
What the executor of a claimed request and its renewal goroutine do.

The marks of each summarise its history: whether it holds the mutex, what has
been closed and received, which of the final operations it has performed. A
guard on the marks says when an operation may come next, and every program
follows its guard, whatever the coordinator and the action answer.
-/

namespace TransportNats.Renewal

open Interleaving Idempotency Program

/-! ### The system -/

/-- What one call of `executeWithCoordinator` is given. -/
structure Request where
  renews : Bool
  cfg : IdempotencyConfig
  msg : Msg
  key : String
  reqHash : String

/-- Whether a goroutine is started for the claim. -/
def Request.started (q : Request) : Bool := q.renews && 0 < q.cfg.effectiveLeaseTTL

/-- The variables that executor and goroutine share. A goroutine that has been
launched waits for its first step with its arguments. -/
structure Shared where
  entered : Bool := false
  launched : Option (String × String × ℤ) := none
  stateMu : Bool := false
  stopped : Bool := false
  stopClosed : Bool := false
  doneClosed : Bool := false
  renewalErrors : List Err := []
  cancelled : Bool := false

/-- What the schedule decides: the results of the calls and whether a `select`
takes the ticker. -/
structure RenewalChoice (R : Runtime) where
  claim : Except Err IdempotencyClaim
  outcome : Outcome R.Value
  marshalled : Outcome Bytes
  now : I64
  completed : Option Err
  released : Option Err
  renewed : Option Err
  tick : Bool

section
variable {R : Runtime}

def exec (ch : RenewalChoice R) (s : Shared) : (o : RenewalOp R) → Shared × o.Ret
  | .claim _ _ _ => (s, ch.claim)
  | .executeDecoded _ => (s, ch.outcome)
  | .marshal _ => (s, ch.marshalled)
  | .now => (s, ch.now)
  | .complete _ _ _ _ => (s, ch.completed)
  | .release _ _ => (s, ch.released)
  | .cancelAction => ({ s with cancelled := true }, ())
  | .goRenewal key token leaseTTL => ({ s with launched := some (key, token, leaseTTL) }, ())
  | .lockState => ({ s with stateMu := true }, ())
  | .unlockState => ({ s with stateMu := false }, ())
  | .setStopped => ({ s with stopped := true }, ())
  | .isStopped => (s, s.stopped)
  | .closeStop => ({ s with stopClosed := true }, ())
  | .receiveError => ({ s with renewalErrors := s.renewalErrors.tail }, s.renewalErrors.head?)
  | .select => (s, if ch.tick then .tick else .stop)
  | .renewEnd => (s, ch.renewed)
  | .sendError err => ({ s with renewalErrors := s.renewalErrors ++ [err] }, ())
  | .closeDone => ({ s with doneClosed := true }, ())
  | .awaitDone | .awaitStop | .renewBegin _ _ _ => (s, ())

/-- Whether an operation goes through or blocks. The error channel holds one
error; a `select` goes through when the case it takes is ready, and the ticker
may be ready at any time. -/
def ready (ch : RenewalChoice R) (s : Shared) : RenewalOp R → Bool
  | .lockState => !s.stateMu
  | .awaitDone => s.doneClosed
  | .awaitStop => s.stopClosed
  | .select => ch.tick || s.stopClosed
  | .sendError _ => s.renewalErrors.length < 1
  | _ => true

inductive RenewalCall
  | execute
  | renewal (key token : String) (leaseTTL : ℤ) (ticks : ℕ)

def RenewalCall.program (q : Request) : RenewalCall → Renewing R (Option Reply)
  | .execute => do
      return some (← executeWithCoordinator q.renews q.cfg q.msg q.key q.reqHash)
  | .renewal key token leaseTTL ticks => do
      Renewal.renewal key token leaseTTL ticks
      return none

/-- There is one executor, and one goroutine for every `go` statement. -/
def RenewalCall.enter : RenewalCall → Shared → Option Shared
  | .execute, s => if s.entered then none else some { s with entered := true }
  | .renewal key token leaseTTL _, s =>
      if s.launched = some (key, token, leaseTTL) then some { s with launched := none } else none

end

/-- One call with its goroutine. -/
@[reducible] def finalizing (R : Runtime) (q : Request) : System where
  sig := renewalSig R
  State := Shared
  Call := RenewalCall
  Result := Option Reply
  Choice := RenewalChoice R
  Env := Empty
  program := RenewalCall.program q
  exec := exec
  enter := RenewalCall.enter
  env e := nomatch e

/-- Before the call. -/
def Request.start (R : Runtime) (q : Request) : World (finalizing R q) := .init {}

section
variable {R : Runtime} {q : Request}

/-- The operation that an action performs, if any, goes through. -/
def unblocked (w : World (finalizing R q)) (a : Act (finalizing R q)) : Bool :=
  match w.performs? a, a with
  | some (_, o), .step _ ch => ready ch w.state o
  | _, _ => true

/-- No operation is performed while it blocks. -/
def Unblocked (w : World (finalizing R q)) (a : Act (finalizing R q)) : Prop :=
  unblocked w a = true

instance (w : World (finalizing R q)) (a : Act (finalizing R q)) : Decidable (Unblocked w a) :=
  inferInstanceAs (Decidable (_ = _))

end

/-! ### What the executor does -/

abbrev RenewalHist (R : Runtime) := History (renewalSig R)

section
variable {R : Runtime}

/-- The two ways to finalise a claim. -/
inductive Final
  | complete | release
  deriving DecidableEq

def RenewalOp.final? : RenewalOp R → Option Final
  | .complete _ _ _ _ => some .complete
  | .release _ _ => some .release
  | _ => none

/-- How often a history has tried to finalise the claim in one of the ways. -/
def times (k : Final) (h : RenewalHist R) : ℕ := h.countP fun x => RenewalOp.final? x.op = some k

@[simp] theorem times_nil (k : Final) : times k ([] : RenewalHist R) = 0 := rfl

@[simp] theorem times_cons (k : Final) (x : Answered (renewalSig R)) (h : RenewalHist R) :
    times k (x :: h) = times k h + if RenewalOp.final? x.op = some k then 1 else 0 := by
  simp [times, List.countP_cons]

/-- What a thread has done to the other one so far. -/
structure Marks where
  /-- It has launched the goroutine. -/
  went : Bool := false
  /-- It holds the mutex. -/
  holding : Bool := false
  /-- It has closed the stop channel. -/
  told : Bool := false
  /-- It has waited for the done channel. -/
  awaited : Bool := false
  /-- It has looked into the error channel, and found this. -/
  received : Option (Option Err) := none
  /-- A renewal of it has begun and not come back. -/
  inFlight : Bool := false
  /-- It has sent an error. -/
  sent : Bool := false
  /-- It has closed the done channel. -/
  closed : Bool := false

def Marks.after (m : Marks) : Answered (renewalSig R) → Marks
  | ⟨.goRenewal _ _ _, _⟩ => { m with went := true }
  | ⟨.lockState, _⟩ => { m with holding := true }
  | ⟨.unlockState, _⟩ => { m with holding := false }
  | ⟨.closeStop, _⟩ => { m with told := true }
  | ⟨.awaitDone, _⟩ => { m with awaited := true }
  | ⟨.receiveError, r⟩ => { m with received := some r }
  | ⟨.renewBegin _ _ _, _⟩ => { m with inFlight := true }
  | ⟨.renewEnd, _⟩ => { m with inFlight := false }
  | ⟨.sendError _, _⟩ => { m with sent := true }
  | ⟨.closeDone, _⟩ => { m with closed := true }
  | _ => m

def marks : RenewalHist R → Marks
  | [] => {}
  | x :: h => (marks h).after x

@[simp] theorem marks_cons (x : Answered (renewalSig R)) (h : RenewalHist R) :
    marks (x :: h) = (marks h).after x := rfl

/-- `Claim` has granted the key with `token`. -/
def Acquired (q : Request) (h : RenewalHist R) (token : String) : Prop :=
  ∃ c : IdempotencyClaim, ⟨.claim q.key q.reqHash q.cfg.effectiveLeaseTTL, .ok c⟩ ∈ h ∧
    c.state = .acquired ∧ c.token = token

/-- `Complete` has returned nil. -/
def CompletedNil (h : RenewalHist R) : Prop :=
  ∃ key token entry ttl, ⟨.complete key token entry ttl, none⟩ ∈ h

def executorGuard (q : Request) (h : RenewalHist R) : RenewalOp R → Prop
  | .claim _ _ _ | .marshal _ | .now | .cancelAction => True
  | .executeDecoded msg => msg = q.msg ∧ ∃ token, Acquired q h token
  | .goRenewal key token _ =>
      q.started = true ∧ (marks h).went = false ∧ key = q.key ∧ Acquired q h token
  | .lockState => q.started = true ∧ (marks h).holding = false
  | .setStopped | .unlockState | .closeStop => q.started = true
  | .awaitDone => (marks h).went = true ∧ (marks h).holding = false ∧ (marks h).told = true
  | .receiveError => (marks h).awaited = true ∧ (marks h).received = none
  | .complete key token entry _ =>
      key = q.key ∧ Acquired q h token ∧ times .complete h = 0 ∧
        (q.started = true → (marks h).awaited = true ∧ (marks h).received = some none) ∧
        ∃ res, ⟨.executeDecoded q.msg, .value res⟩ ∈ h ∧ ⟨.marshal res, .value entry.body⟩ ∈ h
  | .release key token =>
      key = q.key ∧ Acquired q h token ∧ times .release h = 0 ∧ ¬ CompletedNil h ∧
        (q.started = true → (marks h).awaited = true)
  | .isStopped | .awaitStop | .select | .renewBegin _ _ _ | .renewEnd | .sendError _
  | .closeDone => False

/-- When the executor ends, it has released the claim once if it had one and has
not completed it, and not at all otherwise. -/
def executorPost (q : Request) (h : RenewalHist R) : Prop :=
  ((∃ token, Acquired q h token) ∧ ¬ CompletedNil h → times .release h = 1) ∧
    (¬ ((∃ token, Acquired q h token) ∧ ¬ CompletedNil h) → times .release h = 0)

theorem guarded_op_bind {α : Type} {G : RenewalHist R → RenewalOp R → Prop}
    {Q : RenewalHist R → α → Prop} {h : RenewalHist R} (o : RenewalOp R)
    (f : o.Ret → Renewing R α) :
    Guarded G Q h (op o >>= f) ↔ G h o ∧ ∀ r, Guarded G Q (⟨o, r⟩ :: h) (f r) := Iff.rfl

variable {q : Request} {h : RenewalHist R} {token : String}

theorem Acquired.cons (ha : Acquired q h token) (x : Answered (renewalSig R)) :
    Acquired q (x :: h) token := by
  obtain ⟨c, hc, hst, ht⟩ := ha
  exact ⟨c, List.mem_cons_of_mem _ hc, hst, ht⟩

theorem completedNil_cons {x : Answered (renewalSig R)}
    (hx : ∀ key token entry ttl, ⟨.complete key token entry ttl, none⟩ ≠ x) :
    CompletedNil (x :: h) ↔ CompletedNil h := by
  constructor
  · rintro ⟨key, token, entry, ttl, hmem⟩
    rcases List.mem_cons.mp hmem with hx' | hmem
    · exact absurd hx' (hx key token entry ttl)
    · exact ⟨key, token, entry, ttl, hmem⟩
  · rintro ⟨key, token, entry, ttl, hmem⟩
    exact ⟨key, token, entry, ttl, List.mem_cons_of_mem _ hmem⟩

theorem not_completedNil (hz : times .complete h = 0) : ¬ CompletedNil h := by
  rintro ⟨key, token, entry, ttl, hmem⟩
  have hno := List.countP_eq_zero.mp hz _ hmem
  simp [RenewalOp.final?] at hno

/-- What holds of the executor's history while it owns the execution right. -/
structure Owning (q : Request) (token : String) (h : RenewalHist R) : Prop where
  acquired : Acquired q h token
  released : times .release h = 0
  completed : times .complete h = 0

theorem Owning.cons (hs : Owning q token h) {x : Answered (renewalSig R)}
    (hx : RenewalOp.final? x.op = none) : Owning q token (x :: h) :=
  ⟨hs.acquired.cons x, by simp [hs.released, hx], by simp [hs.completed, hx]⟩

/-- The history after `stopRenewal`. -/
def afterStop (started : Bool) (h : RenewalHist R) : RenewalHist R :=
  if started then
    ⟨.awaitDone, ()⟩ :: ⟨.closeStop, ()⟩ :: ⟨.unlockState, ()⟩ :: ⟨.setStopped, ()⟩ ::
      ⟨.lockState, ()⟩ :: h
  else h

theorem guarded_stopRenewal (hgo : q.started = true → (marks h).went = true)
    (hmu : (marks h).holding = false) :
    Guarded (executorGuard q) (fun h' _ => h' = afterStop q.started h) h
      (stopRenewal q.started) := by
  unfold stopRenewal afterStop
  cases hst : q.started with
  | false => rfl
  | true =>
      refine ⟨⟨hst, hmu⟩, fun _ => ⟨hst, fun _ => ⟨hst, fun _ => ⟨hst, fun _ => ?_⟩⟩⟩⟩
      exact ⟨⟨hgo hst, rfl, rfl⟩, fun _ => rfl⟩

theorem Owning.afterStop (hs : Owning q token h) (started : Bool) :
    Owning q token (afterStop started h) := by
  cases started with
  | false => exact hs
  | true =>
      have h₁ := hs.cons (x := ⟨.lockState, ()⟩) rfl
      have h₂ := h₁.cons (x := ⟨.setStopped, ()⟩) rfl
      have h₃ := h₂.cons (x := ⟨.unlockState, ()⟩) rfl
      have h₄ := h₃.cons (x := ⟨.closeStop, ()⟩) rfl
      exact h₄.cons (x := ⟨.awaitDone, ()⟩) rfl

theorem awaited_afterStop (hst : q.started = true) :
    (marks (Renewal.afterStop q.started h)).awaited = true := by
  rw [hst]
  rfl

theorem received_afterStop (started : Bool) :
    (marks (Renewal.afterStop started h)).received = (marks h).received := by
  cases started <;> rfl

theorem guarded_deferred (hacq : Acquired q h token) (hrel : times .release h = 0)
    (hj : q.started = true → (marks h).awaited = true) (completed : Bool)
    (hc : completed = true ↔ CompletedNil h) (started : Bool) (reply : Reply) :
    Guarded (executorGuard q) (fun h _ => executorPost q h) h
      (deferred started true completed q.key token reply) := by
  have hacq' : Acquired q (⟨.cancelAction, ()⟩ :: h) token := hacq.cons _
  have hc' : CompletedNil (⟨.cancelAction, ()⟩ :: h) ↔ CompletedNil h :=
    completedNil_cons nofun
  unfold deferred
  refine ⟨trivial, fun _ => ?_⟩
  cases completed with
  | true => exact ⟨fun hn => absurd (hc'.mpr (hc.mp rfl)) hn.2, fun _ => hrel⟩
  | false =>
      have hnil : ¬ CompletedNil (⟨.cancelAction, ()⟩ :: h) := fun hn =>
        absurd (hc.mpr (hc'.mp hn)) Bool.false_ne_true
      refine ⟨⟨rfl, hacq', hrel, hnil, hj⟩, fun r => ⟨fun _ => ?_, fun hn => ?_⟩⟩
      · simp [hrel, RenewalOp.final?]
      · have hnil' := mt (completedNil_cons (x := ⟨.release q.key token, r⟩) nofun).mp hnil
        exact absurd ⟨⟨token, hacq'.cons _⟩, hnil'⟩ hn

/-- Without a completion the deferred functions release the claim. -/
theorem Owning.guarded_deferred (hs : Owning q token h)
    (hj : q.started = true → (marks h).awaited = true) (started : Bool) (reply : Reply) :
    Guarded (executorGuard q) (fun h _ => executorPost q h) h
      (deferred started true false q.key token reply) :=
  Renewal.guarded_deferred hs.acquired hs.released hj false
    ⟨nofun, fun hn => absurd hn (not_completedNil hs.completed)⟩ started reply

theorem guarded_storeOutcome (hs : Owning q token h)
    (hj : q.started = true → (marks h).awaited = true ∧ (marks h).received = some none)
    (outcome : Except Err R.Value)
    (hout : ∀ res, outcome = .ok res → ⟨.executeDecoded q.msg, .value res⟩ ∈ h)
    (started : Bool) :
    Guarded (executorGuard q) (fun h _ => executorPost q h) h
      (storeOutcome started q.cfg q.key q.reqHash token outcome) := by
  have hj' : q.started = true → (marks h).awaited = true := fun hst => (hj hst).1
  unfold storeOutcome
  cases outcome with
  | error execErr => exact hs.guarded_deferred hj' started _
  | ok res =>
      refine ⟨trivial, fun r => ?_⟩
      have hs₁ : Owning q token (⟨.marshal res, r⟩ :: h) := hs.cons rfl
      cases r with
      | panicked => exact hs₁.guarded_deferred hj' started _
      | failed err => exact hs₁.guarded_deferred hj' started _
      | value replyBytes =>
          refine ⟨trivial, fun now => ?_⟩
          have hs₂ : Owning q token (⟨.now, now⟩ :: ⟨.marshal res, .value replyBytes⟩ :: h) :=
            hs₁.cons rfl
          refine ⟨⟨rfl, hs₂.acquired, hs₂.completed, hj, res, ?_, ?_⟩, fun r => ?_⟩
          · exact List.mem_cons_of_mem _ (List.mem_cons_of_mem _ (hout res rfl))
          · exact List.mem_cons_of_mem _ List.mem_cons_self
          · have hacq := hs₂.acquired.cons ⟨.complete q.key token
              ⟨200, replyBytes, now.val, q.reqHash⟩ q.cfg.ttl, r⟩
            cases r with
            | some err =>
                refine guarded_deferred hacq hs.released hj' false ⟨nofun, ?_⟩ started _
                rw [completedNil_cons fun _ _ _ _ hx => by cases hx]
                exact fun hn => absurd hn (not_completedNil hs₂.completed)
            | none =>
                refine guarded_deferred hacq hs.released hj' true ?_ started _
                exact ⟨fun _ => ⟨_, _, _, _, List.mem_cons_self⟩, fun _ => rfl⟩

/-- The history after `receiveError`. -/
def afterReceive (started : Bool) (r : Option Err) (h : RenewalHist R) : RenewalHist R :=
  if started then ⟨.receiveError, r⟩ :: h else h

theorem guarded_receiveError (hj : q.started = true → (marks h).awaited = true)
    (hrec : (marks h).received = none) :
    Guarded (executorGuard q) (fun h' r => h' = afterReceive q.started r h) h
      (receiveError q.started : Renewing R (Option Err)) := by
  unfold receiveError afterReceive
  cases hst : q.started with
  | false => rfl
  | true => exact ⟨⟨hj hst, hrec⟩, fun _ => rfl⟩

theorem guarded_finalize (hs : Owning q token h)
    (hgo : q.started = true → (marks h).went = true) (hmu : (marks h).holding = false)
    (hrec : (marks h).received = none) (outcome : Except Err R.Value)
    (hout : ∀ res, outcome = .ok res → ⟨.executeDecoded q.msg, .value res⟩ ∈ h) :
    Guarded (executorGuard q) (fun h _ => executorPost q h) h
      (finalize q.started q.cfg q.key q.reqHash token outcome) := by
  unfold finalize
  refine (guarded_stopRenewal hgo hmu).bind ?_
  rintro _ _ rfl
  refine ⟨trivial, fun _ => ?_⟩
  have hs₁ := (hs.afterStop q.started).cons (x := ⟨.cancelAction, ()⟩) rfl
  have hrec₁ := (received_afterStop (h := h) q.started).trans hrec
  refine (guarded_receiveError (h := ⟨.cancelAction, ()⟩ :: afterStop q.started h)
    awaited_afterStop hrec₁).bind ?_
  rintro _ r rfl
  have hs₂ : Owning q token
      (afterReceive q.started r (⟨.cancelAction, ()⟩ :: afterStop q.started h)) := by
    unfold afterReceive
    split
    · exact hs₁.cons rfl
    · exact hs₁
  have hj₂ : q.started = true → (marks (afterReceive q.started r
        (⟨.cancelAction, ()⟩ :: afterStop q.started h))).awaited = true ∧
      (marks (afterReceive q.started r
        (⟨.cancelAction, ()⟩ :: afterStop q.started h))).received = some r := by
    intro hst
    rw [hst]
    exact ⟨rfl, rfl⟩
  cases r with
  | some renewalErr => exact hs₂.guarded_deferred (fun hst => (hj₂ hst).1) q.started _
  | none =>
      refine guarded_storeOutcome hs₂ hj₂ outcome (fun res hres => ?_) q.started
      have := hout res hres
      cases q.started <;> simp [afterReceive, afterStop, this]

/-- The history after `startCoordinatorLeaseRenewal`. -/
def afterStart (q : Request) (token : String) (h : RenewalHist R) : RenewalHist R :=
  if q.started then ⟨.goRenewal q.key token q.cfg.effectiveLeaseTTL, ()⟩ :: h else h

theorem guarded_startCoordinatorLeaseRenewal (hacq : Acquired q h token)
    (hgo : (marks h).went = false) :
    Guarded (executorGuard q)
      (fun h' started => started = q.started ∧ h' = afterStart q token h) h
      (startCoordinatorLeaseRenewal q.renews q.key token q.cfg.effectiveLeaseTTL :
        Renewing R Bool) := by
  unfold startCoordinatorLeaseRenewal afterStart
  by_cases hc : q.renews = true ∧ 0 < q.cfg.effectiveLeaseTTL
  · have hst : q.started = true := by simp [Request.started, hc.1, hc.2]
    rw [if_pos hc, if_pos hst]
    exact ⟨⟨hst, hgo, rfl, hacq⟩, fun _ => ⟨hst.symm, rfl⟩⟩
  · have hst : q.started = false := by simpa [Request.started] using hc
    rw [if_neg hc, hst]
    exact ⟨rfl, rfl⟩

theorem guarded_executeClaimed (hs : Owning q token h) (hm : marks h = {}) :
    Guarded (executorGuard q) (fun h _ => executorPost q h) h
      (executeClaimed q.renews q.cfg q.msg q.key q.reqHash token : Renewing R Reply) := by
  unfold executeClaimed
  refine (guarded_startCoordinatorLeaseRenewal hs.acquired (by rw [hm])).bind ?_
  rintro h₁ _ ⟨rfl, hh₁⟩
  have hs₁ : Owning q token h₁ := by
    rw [hh₁, afterStart]
    split
    · exact hs.cons rfl
    · exact hs
  have hm₁ : marks h₁ = { went := q.started } := by
    rw [hh₁, afterStart]
    split
    · rename_i hst
      rw [marks_cons, hm, hst]
      rfl
    · rename_i hst
      rw [hm, Bool.eq_false_iff.mpr hst]
  refine ⟨⟨rfl, token, hs₁.acquired⟩, fun r => ?_⟩
  have hs₂ := hs₁.cons (x := ⟨.executeDecoded q.msg, r⟩) rfl
  have hm₂ : marks (⟨.executeDecoded q.msg, r⟩ :: h₁) = { went := q.started } := hm₁
  have hgo₂ : q.started = true → (marks (⟨.executeDecoded q.msg, r⟩ :: h₁)).went = true := by
    intro hst
    rw [hm₂, hst]
  cases r with
  | panicked =>
      -- the deferred `stopRenewal` is the first one
      change Guarded _ _ _ (stopRenewal q.started >>= fun _ =>
        deferred q.started true false q.key token .panicked)
      refine (guarded_stopRenewal hgo₂ (by rw [hm₂])).bind ?_
      rintro _ _ rfl
      exact (hs₂.afterStop q.started).guarded_deferred awaited_afterStop q.started _
  | failed execErr => exact guarded_finalize hs₂ hgo₂ (by rw [hm₂]) (by rw [hm₂]) _ nofun
  | value res =>
      refine guarded_finalize hs₂ hgo₂ (by rw [hm₂]) (by rw [hm₂]) _ fun res' hres => ?_
      cases hres
      exact List.mem_cons_self

theorem guarded_executeWithCoordinator :
    Guarded (executorGuard q) (fun h _ => executorPost q h) []
      (executeWithCoordinator q.renews q.cfg q.msg q.key q.reqHash : Renewing R Reply) := by
  unfold executeWithCoordinator
  rw [guarded_op_bind]
  refine ⟨trivial, fun r => ?_⟩
  -- without the execution right there is nothing to release
  have hnone : (∀ c, r = .ok c → c.state ≠ .acquired) →
      executorPost q [⟨.claim q.key q.reqHash q.cfg.effectiveLeaseTTL, r⟩] := by
    refine fun hr => ⟨?_, fun _ => rfl⟩
    rintro ⟨⟨token, c, hmem, hst, -⟩, -⟩
    have hr' : r = .ok c := by simpa using (List.mem_singleton.mp hmem).symm
    exact absurd hst (hr c hr')
  cases r with
  | error err => exact hnone nofun
  | ok claim =>
      obtain ⟨state, token, entry⟩ := claim
      cases state with
      | completed =>
          dsimp only
          split <;> exact hnone (by simp)
      | conflict | inProgress | other => exact hnone (by simp)
      | acquired =>
          exact guarded_executeClaimed ⟨⟨_, List.mem_cons_self, rfl, rfl⟩, rfl, rfl⟩ rfl

/-! ### What the goroutine does -/

/-- The goroutine does nothing after it has closed the done channel, sends at most
one error and only while it holds the mutex, and waits for nothing else then. -/
def goroutineGuard (h : RenewalHist R) (o : RenewalOp R) : Prop :=
  (marks h).closed = false ∧
    match o with
    | .awaitStop | .select | .renewBegin _ _ _ | .closeDone | .lockState =>
        (marks h).inFlight = false ∧ (marks h).holding = false
    | .renewEnd => (marks h).holding = false
    | .sendError _ => (marks h).sent = false ∧ (marks h).holding = true
    | .isStopped | .unlockState => (marks h).holding = true
    | .cancelAction => True
    | .claim _ _ _ | .executeDecoded _ | .marshal _ | .now | .complete _ _ _ _ | .release _ _
    | .goRenewal _ _ _ | .setStopped | .closeStop | .awaitDone | .receiveError => False

/-- What holds of the goroutine's history at the head of its loop. -/
structure Looping (h : RenewalHist R) : Prop where
  unclosed : (marks h).closed = false
  landed : (marks h).inFlight = false
  unlocked : (marks h).holding = false

theorem guarded_reportError (hl : Looping h) (hz : (marks h).sent = false) (err : Err) :
    Guarded goroutineGuard (fun h _ => Looping h) h (reportError err : Renewing R Unit) := by
  unfold reportError
  rw [guarded_op_bind]
  refine ⟨⟨hl.unclosed, hl.landed, hl.unlocked⟩, fun _ => ?_⟩
  rw [guarded_op_bind]
  refine ⟨⟨hl.unclosed, rfl⟩, fun r => ?_⟩
  cases r with
  | true => exact ⟨⟨hl.unclosed, rfl⟩, fun _ => ⟨hl.unclosed, hl.landed, rfl⟩⟩
  | false =>
      refine ⟨⟨hl.unclosed, hz, rfl⟩, fun _ => ⟨⟨hl.unclosed, trivial⟩, fun _ => ?_⟩⟩
      exact ⟨⟨hl.unclosed, rfl⟩, fun _ => ⟨hl.unclosed, hl.landed, rfl⟩⟩

theorem guarded_renewalLoop (hl : Looping h) (hz : (marks h).sent = false)
    (key token : String) (leaseTTL : ℤ) (ticks : ℕ) :
    Guarded goroutineGuard (fun h _ => Looping h) h
      (renewalLoop key token leaseTTL ticks : Renewing R Unit) := by
  induction ticks generalizing h with
  | zero =>
      refine ⟨⟨hl.unclosed, hl.landed, hl.unlocked⟩, fun _ => ?_⟩
      exact ⟨hl.unclosed, hl.landed, hl.unlocked⟩
  | succ ticks ih =>
      unfold renewalLoop
      rw [guarded_op_bind]
      refine ⟨⟨hl.unclosed, hl.landed, hl.unlocked⟩, fun r => ?_⟩
      cases r with
      | stop => exact ⟨hl.unclosed, hl.landed, hl.unlocked⟩
      | tick =>
          rw [guarded_op_bind]
          refine ⟨⟨hl.unclosed, hl.landed, hl.unlocked⟩, fun _ => ?_⟩
          rw [guarded_op_bind]
          refine ⟨⟨hl.unclosed, hl.unlocked⟩, fun r => ?_⟩
          have hl₂ : Looping (⟨.renewEnd, r⟩ :: ⟨.renewBegin key token leaseTTL, ()⟩ ::
              ⟨.select, .tick⟩ :: h) := ⟨hl.unclosed, rfl, hl.unlocked⟩
          cases r with
          | none => exact ih hl₂ hz
          | some renewErr => exact guarded_reportError hl₂ hz renewErr

theorem guarded_renewal (key token : String) (leaseTTL : ℤ) (ticks : ℕ) :
    Guarded goroutineGuard (fun h _ => (marks h).closed = true ∧ (marks h).holding = false) []
      (renewal key token leaseTTL ticks : Renewing R Unit) := by
  have hl : Looping ([] : RenewalHist R) := ⟨rfl, rfl, rfl⟩
  refine (guarded_renewalLoop hl rfl key token leaseTTL ticks).bind fun h _ hl => ?_
  exact ⟨⟨hl.unclosed, hl.landed, hl.unlocked⟩, fun _ => ⟨rfl, hl.unlocked⟩⟩

end

/-- What every thread does, in every run. -/
def finalizingContract (R : Runtime) (q : Request) : Contract (finalizing R q) where
  guard c h o :=
    match c with
    | .execute => executorGuard q h o
    | .renewal _ _ _ _ => goroutineGuard h o
  post c h _ :=
    match c with
    | .execute => executorPost q h
    | .renewal _ _ _ _ => (marks h).closed = true ∧ (marks h).holding = false
  sound _ _ := True
  program c := by
    cases c with
    | execute => exact guarded_executeWithCoordinator.bind fun _ _ h => h
    | renewal key token leaseTTL ticks =>
        exact (guarded_renewal key token leaseTTL ticks).bind fun _ _ h => h
  answer _ _ _ := trivial
  stable _ _ _ := trivial

end TransportNats.Renewal
