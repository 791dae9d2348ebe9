import Mathlib.Data.List.Nodup
import Mathlib.Data.List.Perm.Subperm
import TransportNats.Delivery.Loss

/-!
How often the action is run for one message.

The broker redelivers without a limit, so that failed dead-lettering can be
repeated; the limit of the binding is enforced by the handlers alone. A handler
runs the action at most once, and only if the number of its delivery is within
the limit. Since no number is handed out twice, there are at most as many runs
as there are numbers within the limit, however many handlers work at a time.
-/

namespace TransportNats.Delivery

open Interleaving Idempotency Program

section
variable {R : Runtime} {D : Type}

def isRun : HandlerOp D → Bool
  | .exec (.executeDecoded _) => true
  | _ => false

/-- The number of runs of the action in a history. -/
def runs (h : HandlerHist R D) : ℕ := h.countP fun x => isRun x.op

theorem runs_eq_zero {h : HandlerHist R D} (hu : Unrun h) : runs h = 0 := by
  refine List.countP_eq_zero.mpr fun x hx => ?_
  have hne := hu x hx
  unfold isRun
  split
  · rename_i m hop
    exact absurd hop (hne m)
  · exact Bool.false_ne_true

/-- Whoever may only run an action that has not been run runs it once at most. -/
theorem runs_le_one {W : Worker} {msg : NatsMsg D} {h : HandlerHist R D}
    (hall : ∀ {x h'}, x :: h' <:+ h → handlerGuard W msg h' x.op) : runs h ≤ 1 := by
  induction h with
  | nil => exact Nat.zero_le 1
  | cons x h ih =>
      have hx := hall (List.suffix_refl (x :: h))
      have hih := ih fun hsuf => hall (hsuf.trans (List.suffix_cons _ _))
      unfold runs at hih ⊢
      rw [List.countP_cons]
      by_cases hrun : isRun x.op = true
      · unfold isRun at hrun
        split at hrun
        · rename_i m hop
          rw [hop] at hx
          have hzero := runs_eq_zero hx.2.1
          unfold runs at hzero
          rw [hzero]
          split <;> simp
        · cases hrun
      · rw [if_neg hrun]
        exact hih

/-- Two runs of the action in a history are one. -/
theorem run_unique {W : Worker} {msg : NatsMsg D} {h : HandlerHist R D}
    (hall : ∀ {x h'}, x :: h' <:+ h → handlerGuard W msg h' x.op) {m m' : Msg}
    {r r' : Outcome R.Value} (hr : ⟨.exec (.executeDecoded m), r⟩ ∈ h)
    (hr' : ⟨.exec (.executeDecoded m'), r'⟩ ∈ h) :
    (⟨.exec (.executeDecoded m), r⟩ : Answered (handlerSig R D)) =
      ⟨.exec (.executeDecoded m'), r'⟩ := by
  induction h with
  | nil => cases hr
  | cons x h ih =>
      have hx := hall (List.suffix_refl (x :: h))
      rcases List.mem_cons.mp hr with heq | hin <;> rcases List.mem_cons.mp hr' with heq' | hin'
      · rw [heq, heq']
      · subst heq
        exact absurd rfl (hx.2.1 _ hin' m')
      · subst heq'
        exact absurd rfl (hx.2.1 _ hin m)
      · exact ih (fun hsuf => hall (hsuf.trans (List.suffix_cons _ _))) hin hin'

/-- A run in a history was allowed after some part of it. -/
theorem exists_run {h : HandlerHist R D} (hr : runs h ≠ 0) :
    ∃ m r h', ⟨.exec (.executeDecoded m), r⟩ :: h' <:+ h := by
  obtain ⟨x, hx, hrun⟩ := List.countP_pos_iff.mp (Nat.pos_of_ne_zero hr)
  obtain ⟨h₁, h₂, rfl⟩ := List.append_of_mem hx
  obtain ⟨op, r⟩ := x
  unfold isRun at hrun
  split at hrun
  · rename_i m hop
    subst hop
    exact ⟨m, r, h₂, List.suffix_append _ _⟩
  · cases hrun

end

/-! ### Delivery numbers -/

section
variable {R : Runtime} {F : Fleet}

/-- No two handlers work on one delivery. -/
structure Numbered (w : World (handlers R F)) : Prop where
  ok : (handling R F).Ok w
  nodup : (w.threads.map (·.call)).Nodup
  handed : ∀ d ∈ w.threads.map (·.call), d ∈ w.state.handed ∧ d.number ≠ 0

theorem numbered_init : Numbered (F.start R) where
  ok := (handling R F).ok_init _
  nodup := List.nodup_nil
  handed _ h := by cases h

theorem numbered_moves {w w' : World (handlers R F)} {a : Act (handlers R F)}
    (hm : w.Moves a w') (hw : Numbered w) : Numbered w' := by
  have hok := (handling R F).ok_moves hm hw.ok
  have hgrows := handlers_grows hm
  cases hm with
  | idle => exact hw
  | @enter d s h =>
      have hdel := delivers_of_deliver h
      refine ⟨hok, ?_, fun d' hd' => ?_⟩
      · rw [List.map_append]
        refine List.Nodup.append hw.nodup (List.nodup_singleton _) ?_
        intro d' hd' hself
        obtain rfl := List.mem_singleton.mp hself
        exact hdel.fresh (hw.handed _ hd').1
      · rw [List.map_append] at hd'
        rcases List.mem_append.mp hd' with hd' | hself
        · exact ⟨hgrows.handed (hw.handed _ hd').1, (hw.handed _ hd').2⟩
        · obtain rfl := List.mem_singleton.mp hself
          exact ⟨hdel.handed ▸ List.mem_cons_self, hdel.number⟩
  | @perform t ch d h o k ht =>
      refine ⟨hok, ?_, fun d' hd' => ?_⟩
      · rw [World.map_call_perform ht]
        exact hw.nodup
      · rw [World.map_call_perform ht] at hd'
        exact ⟨hgrows.handed (hw.handed _ hd').1, (hw.handed _ hd').2⟩
  | env e => exact e.elim

/-- A handler that has run the action has a delivery number within the limit. -/
theorem number_le_of_run {w : World (handlers R F)} (hw : Numbered w) {t : ℕ}
    {th : Thread (handlers R F)} (ht : w.threads[t]? = some th)
    (hp : (F.binding th.call.consumer).ackPolicy ≠ .ackNone) (hr : runs th.hist ≠ 0) :
    th.call.number ≤ (F.binding th.call.consumer).maxDeliver.val.toNat := by
  obtain ⟨m, r, h', hsuf⟩ := exists_run hr
  obtain ⟨-, -, hwithin⟩ := (hw.ok _ _ ht).allowed hsuf
  obtain ⟨info, hmem, hlim⟩ := hwithin hp
  have hmem' := hsuf.subset (List.mem_cons_of_mem _ hmem)
  obtain rfl := ((hw.ok _ _ ht).sound _ hmem').metadata _ _ rfl
  exact (maxDeliverExceeded_eq_false (Binding.maxDeliver_pos (F.accepted _))).mp hlim

/-- How often the action has been run for message `n` by consumer `i`. -/
def executions (w : World (handlers R F)) (i : F.Consumer) (n : ℕ) : ℕ :=
  ((w.threads.filter fun th => th.call.consumer = i ∧ th.call.sequence = n).map
    fun th => runs th.hist).sum

theorem sum_map_le_length_filter {α : Type} {f : α → ℕ} {l : List α} (hf : ∀ x ∈ l, f x ≤ 1) :
    (l.map f).sum ≤ (l.filter fun x => f x ≠ 0).length := by
  induction l with
  | nil => exact Nat.le_refl 0
  | cons x l ih =>
      have hx := hf x List.mem_cons_self
      have hl := ih fun y hy => hf y (List.mem_cons_of_mem _ hy)
      rw [List.map_cons, List.sum_cons, List.filter_cons]
      split
      · rw [List.length_cons]
        omega
      · rename_i hzero
        have hzero : f x = 0 := by simpa using hzero
        omega

/-- Bounded executions. Whatever is redelivered, at whatever time and to however
many handlers, the action is run for one message at most `MaxDeliver` times. -/
theorem executions_le_maxDeliver (R : Runtime) (F : Fleet) (i : F.Consumer)
    (hp : (F.binding i).ackPolicy ≠ .ackNone) (acts : List (Act (handlers R F))) (n : ℕ) :
    (executions ((F.start R).run acts) i n : ℤ) ≤ (F.binding i).maxDeliver.val := by
  have hw := World.run_invariant numbered_moves (numbered_init (R := R) (F := F)) acts
  generalize (F.start R).run acts = w at hw ⊢
  have hpos : 0 < (F.binding i).maxDeliver.val := Binding.maxDeliver_pos (F.accepted i)
  -- the handlers of the message, and among them those that have run the action
  let L := w.threads.filter fun th => th.call.consumer = i ∧ th.call.sequence = n
  let ran := L.filter fun th => runs th.hist ≠ 0
  have hL : ∀ th ∈ L, th ∈ w.threads ∧ th.call.consumer = i ∧ th.call.sequence = n := by
    intro th hth
    simpa using List.mem_filter.mp hth
  have hran : ∀ th ∈ ran, th ∈ L ∧ runs th.hist ≠ 0 := by
    intro th hth
    simpa using List.mem_filter.mp hth
  have hsum : executions w i n ≤ ran.length := by
    refine sum_map_le_length_filter fun th hth => ?_
    obtain ⟨t, ht⟩ := List.mem_iff_getElem?.mp (hL th hth).1
    exact runs_le_one (hw.ok _ _ ht).allowed
  have hcalls : ((ran.map (·.call)).map (·.number)).Nodup := by
    refine List.Nodup.map_on ?_
      (hw.nodup.sublist ((List.filter_sublist.trans List.filter_sublist).map _))
    intro d hd d' hd' hnum
    obtain ⟨th, hth, rfl⟩ := List.mem_map.mp hd
    obtain ⟨th', hth', rfl⟩ := List.mem_map.mp hd'
    obtain ⟨-, hc, hs⟩ := hL th (hran th hth).1
    obtain ⟨-, hc', hs'⟩ := hL th' (hran th' hth').1
    exact Delivered.ext (hc.trans hc'.symm) (hs.trans hs'.symm) hnum
  have hnumbers : (ran.map (·.call)).map (·.number) ⊆
      List.range' 1 (F.binding i).maxDeliver.val.toNat := by
    intro k hk
    obtain ⟨d, hd, rfl⟩ := List.mem_map.mp hk
    obtain ⟨th, hth, rfl⟩ := List.mem_map.mp hd
    obtain ⟨hmem, rfl, -⟩ := hL th (hran th hth).1
    obtain ⟨t, ht⟩ := List.mem_iff_getElem?.mp hmem
    have hle := number_le_of_run hw ht hp (hran th hth).2
    have hne := (hw.handed _ (List.mem_map_of_mem hmem)).2
    rw [List.mem_range'_1]
    omega
  have hlen := (hcalls.subperm hnumbers).length_le
  rw [List.length_map, List.length_map, List.length_range'] at hlen
  omega

/-- The action fails, the dead letter cannot be published, and the message is
delivered again and dead-lettered. -/
def retriedLetter : List (Act (handlers .plain sampleFleet)) :=
  .spawn ⟨(), 1, 1⟩ :: handlerSteps 0 4 (acting (.failed (.other "failed" none)) .ok) ++
    handlerSteps 0 2 (acting .panicked (.dropped (.other "no responders" none))) ++
    .spawn ⟨(), 1, 2⟩ :: handlerSteps 1 5 (acting .panicked .ok)

/-- Two deliveries, but one run of the action. -/
theorem executions_le_maxDeliver_retried :
    (sampleFleet.binding ()).ackPolicy ≠ .ackNone ∧
      executions ((sampleFleet.start .plain).run retriedLetter) () 1 = 1 ∧
      (executions ((sampleFleet.start .plain).run retriedLetter) () 1 : ℤ) ≤
        (sampleFleet.binding ()).maxDeliver.val :=
  ⟨by decide, by decide +kernel,
    executions_le_maxDeliver .plain sampleFleet () (by decide) retriedLetter 1⟩

end

end TransportNats.Delivery
