import TransportNats.Lifecycle.Closing

/-!
The readiness signal.

`signalReady` closes the channel `ready` inside a `sync.Once`, so on a transport
that was built by `New` it is closed at most once however many runs there are.
`FromConn` closes the channel itself and leaves the `Once` unused: the first run
of `Do` on such a transport closes it again, which panics while the mutex is
held. The error of the signal is assigned at most once either way.
-/

namespace TransportNats.Lifecycle

open Interleaving

/-- Calls that start a run of `Do`. -/
def Call.startsRun : Call → Bool
  | .doRun _ _ | .listen _ | .goroutine (.listener _ _) _ => true
  | _ => false

/-- The action enters the body of `readyOnce`, which assigns `readyErr` and
closes `ready`. -/
def signals (w : World transport) (a : Act transport) : Bool :=
  match w.performs? a with
  | some (_, .ready (.signalReady _)) => !w.state.readiness.readyOnce
  | _ => false

/-- The action closes the channel `ready` although it is closed. -/
def ClosesClosed (w : World transport) (a : Act transport) : Prop :=
  signals w a = true ∧ w.state.readiness.ready = true

/-- How often a run assigns `readyErr`. -/
def assignments : World transport → List (Act transport) → ℕ
  | _, [] => 0
  | w, a :: acts => (if signals w a then 1 else 0) + assignments (w.act a) acts

/-! ### The `Once` -/

/-- What the body of `readyOnce` does. -/
def Readiness.signal (r : Readiness) (err : Option Err) : Readiness :=
  if r.ready then { r with readyOnce := true, readyErr := err, mutexLost := true }
  else { r with readyOnce := true, readyErr := err, ready := true }

theorem Readiness.signal_readyOnce (r : Readiness) (err : Option Err) :
    (r.signal err).readyOnce = true := by
  unfold Readiness.signal
  split <;> rfl

theorem Readiness.signal_ready (r : Readiness) (err : Option Err) :
    (r.signal err).ready = true := by
  unfold Readiness.signal
  split
  · assumption
  · rfl

section
variable {w : World transport}

theorem signals_step {t : ℕ} {c : Call} {h : History lifecycleSig} {o : Op}
    {k : o.Ret → Routine Result} (ch : Choice) (ht : w.threads[t]? = some ⟨c, h, .call o k⟩)
    (ho : ∀ err, o ≠ .ready (.signalReady err)) : signals w (.step t ch) = false := by
  rw [signals, World.performs?_step ch ht]
  split
  · rename_i heq
    cases heq
    exact absurd rfl (ho _)
  · rfl

/-- An action leaves the signal as it is, or it gives it for the first time. -/
theorem readiness_act (w : World transport) (a : Act transport) :
    signals w a = false ∧ (w.act a).state.readiness = w.state.readiness ∨
      signals w a = true ∧ w.state.readiness.readyOnce = false ∧
        ∃ err, (w.act a).state.readiness = w.state.readiness.signal err := by
  cases a with
  | spawn c =>
      refine .inl ⟨rfl, ?_⟩
      rcases henter : transport.enter c w.state with _ | s
      · rw [World.act, henter]
      · rw [World.act_spawn henter]
        exact Call.enter_readiness henter
  | env e => exact .inl ⟨rfl, by cases e <;> rfl⟩
  | step t ch =>
      rcases ht : w.threads[t]? with _ | ⟨c, h, r | ⟨o, k⟩⟩
      · exact .inl ⟨by simp [signals, World.performs?, ht], by rw [World.act, ht]⟩
      · refine .inl ⟨?_, by rw [World.act, ht]⟩
        rw [signals, World.performs?, ht]
        rfl
      · rw [World.act_step ch ht]
        cases o with
        | link o => exact .inl ⟨signals_step ch ht (by simp), rfl⟩
        | pool o => exact .inl ⟨signals_step ch ht (by simp), PoolOp.exec_readiness _ w.state o⟩
        | external o => exact .inl ⟨signals_step ch ht (by simp), rfl⟩
        | ready o =>
            cases o with
            | awaitReady ctx => exact .inl ⟨signals_step ch ht (by simp), rfl⟩
            | readReadyErr => exact .inl ⟨signals_step ch ht (by simp), rfl⟩
            | signalReady err =>
                have hsignals : signals w (.step t ch) = !w.state.readiness.readyOnce := by
                  rw [signals, World.performs?_step ch ht]
                cases honce : w.state.readiness.readyOnce with
                | true =>
                    refine .inl ⟨by rw [hsignals, honce]; rfl, ?_⟩
                    simp only [World.perform, exec, ReadyOp.exec, honce, if_true]
                | false =>
                    refine .inr ⟨by rw [hsignals, honce]; rfl, rfl, err, ?_⟩
                    simp only [World.perform, exec, ReadyOp.exec, honce, Readiness.signal,
                      Bool.false_eq_true, if_false]
                    split <;> rfl

/-- Once the signal has been given it is not given again. -/
theorem assignments_le (w : World transport) (acts : List (Act transport)) :
    assignments w acts ≤ if w.state.readiness.readyOnce then 0 else 1 := by
  induction acts generalizing w with
  | nil => exact Nat.zero_le _
  | cons a acts ih =>
      have hrest := ih (w.act a)
      rcases readiness_act w a with ⟨hsig, hsame⟩ | ⟨hsig, honce, err, hsignal⟩
      · simpa [assignments, hsig, hsame] using hrest
      · have hzero : assignments (w.act a) acts = 0 := by
          simpa [hsignal, Readiness.signal_readyOnce] using hrest
        simp [assignments, hsig, honce, hzero]

end

/-! ### Closed once -/

/-- On a transport built by `New` the channel is closed exactly when the `Once`
is used up. -/
def ReadyByOnce (w : World transport) : Prop :=
  w.state.readiness.ready = w.state.readiness.readyOnce

theorem ReadyByOnce.moves {w w' : World transport} {a : Act transport} (hm : World.Moves w a w')
    (hw : ReadyByOnce w) : ReadyByOnce w' := by
  rcases hm.eq_or_eq_act with rfl | rfl
  · exact hw
  · rcases readiness_act w a with ⟨-, hsame⟩ | ⟨-, -, err, hsignal⟩
    · rw [ReadyByOnce, hsame]
      exact hw
    · rw [ReadyByOnce, hsignal, Readiness.signal_ready, Readiness.signal_readyOnce]

theorem ReadyByOnce.not_closesClosed {w : World transport} {a : Act transport}
    (hw : ReadyByOnce w) : ¬ ClosesClosed w a := by
  rintro ⟨hsig, hready⟩
  rcases readiness_act w a with ⟨hnot, -⟩ | ⟨-, honce, -⟩
  · rw [hnot] at hsig
    cases hsig
  · rw [hw, honce] at hready
    cases hready

/-- No goroutine may start a run. -/
def NoRun (_ : State) (ms : List Marks) : Prop :=
  ∀ (i : ℕ) (m : Marks), ms[i]? = some m → m.pool.runner = false ∧ m.pool.running = false

theorem noRun_enter {c : Call} {s s' : State} {ms : List Marks} (hallowed : c.startsRun = false)
    (hms : NoRun s ms) : NoRun s' (ms ++ [c.marks]) := by
  refine forall_enter ?_ hms
  cases c with
  | goroutine g turns =>
      cases g with
      | listener id ctx => cases hallowed
      | _ => exact ⟨rfl, rfl⟩
  | doRun signals ctx => cases hallowed
  | _ => exact ⟨rfl, rfl⟩

theorem noRun_step {s s' : State} {ms : List Marks} {t : ℕ} {m : Marks} {o : Op}
    (ht : ms[t]? = some m) (ha : m.allows o) (r : o.Ret) (hms : NoRun s ms) :
    NoRun s' (ms.set t (m.after ⟨o, r⟩)) :=
  forall_set (Marks.calm_after (hms t m ht).1 (hms t m ht).2 ha r) fun i x _ hx => hms i x hx

theorem NoRun.not_closesClosed {w : World transport} {a : Act transport}
    (hok : watched.contract.Ok w) (hw : NoRun w.state (watched.marks w)) : ¬ ClosesClosed w a := by
  rintro ⟨hsig, -⟩
  unfold signals at hsig
  split at hsig
  · rename_i c err hp
    obtain ⟨t, ch, h, k, rfl, ht⟩ := World.exists_of_performs? hp
    have hrunning := (Marks.allows_signalReady (hok.guard ht)).1
    exact absurd ((hw t _ (watched.getElem?_marks ht)).2.symm.trans hrunning) Bool.false_ne_true
  · cases hsig

/-- In every run on a transport that was built by `New`, and in every run that
starts no `Do` on any transport, the channel is not closed when it is closed;
and `readyErr` is assigned at most once. -/
theorem ready_closed_once {s : State} (hs : Built s) {acts : List (Act transport)}
    (hadm : World.Always (Admissible fun c => !s.readiness.ready || !c.startsRun)
      (built s) acts) :
    World.Always (fun w a => ¬ ClosesClosed w a) (built s) acts ∧
      assignments (built s) acts ≤ 1 := by
  refine ⟨?_, (assignments_le _ _).trans (by split <;> simp)⟩
  cases hs with
  | new rawURL initErr embedded =>
      have hstart : ReadyByOnce (built (newTransport rawURL initErr embedded)) := rfl
      exact World.always_of_invariant ReadyByOnce.moves ReadyByOnce.not_closesClosed hstart acts
  | fromConn nc =>
      refine World.Always.imp (P := fun w => watched.contract.Ok w ∧
        NoRun w.state (watched.marks w)) (fun hm ha hw => ?_)
        (fun _ hw => NoRun.not_closesClosed hw.1 hw.2)
        ⟨watched.contract.ok_init _, by simp [NoRun, Watch.marks, World.init]⟩ hadm
      refine ⟨watched.contract.ok_moves hm hw.1, ?_⟩
      exact Watch.moves_invariant (K := watched) (I := NoRun)
        (fun hallowed _ hms => noRun_enter (by simpa [fromConn] using hallowed) hms)
        (fun ht ha _ hms => noRun_step ht ha _ hms) (fun hms => hms) hm
        (regular_of_admissible ha) hw.1 hw.2

/-- Two runs of `Do`, of which the first finds its context cancelled. -/
def twoRuns : List (Act transport) :=
  [.spawn (.doRun 0 [.caller 0]), .env (.callerDone 0 .canceled)] ++
    List.replicate 9 (.step 0 smooth) ++ [.spawn (.doRun 0 [.caller 1])] ++
    List.replicate 26 (.step 1 smooth)

theorem ready_closed_once_two_runs :
    (World.Always (fun w a => ¬ ClosesClosed w a) (built plain) twoRuns ∧
      assignments (built plain) twoRuns ≤ 1) ∧
    assignments (built plain) twoRuns = 1 ∧
      ((built plain).run twoRuns).state.pool.running = true :=
  ⟨ready_closed_once (.new _ _ _) (by decide +kernel), by decide +kernel, rfl⟩

/-- A transport around a connection. -/
def wrapped : State := fromConn (some ("nats://127.0.0.1:4222", true))

/-- A run of `Do` up to its readiness signal. -/
def firstDo : List (Act transport) :=
  .spawn (.doRun 0 [.caller 0]) :: List.replicate 11 (.step 0 smooth)

/-- The first run of `Do` on a transport around a connection, in which nothing
fails, closes the channel that `FromConn` has closed. -/
theorem fromConn_closes_ready_again :
    World.Always (Admissible fun _ => true) (built wrapped) firstDo ∧
      ClosesClosed ((built wrapped).run firstDo) (.step 0 smooth) ∧
      ((built wrapped).run (firstDo ++ [.step 0 smooth])).state.readiness.mutexLost = true :=
  ⟨by decide +kernel, ⟨by decide +kernel, rfl⟩, rfl⟩

end TransportNats.Lifecycle
