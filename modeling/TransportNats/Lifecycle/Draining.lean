import TransportNats.Library.Exhaustion
import TransportNats.Lifecycle.Ready
import TransportNats.Lifecycle.Shutdown
import TransportNats.Lifecycle.Waits

/-!
A transport whose callers have given up comes to rest.

Once the contexts of all calls are done, no goroutine of the transport is stuck
for good. One that waits for a context goes on. One that waits for the gate
waits for its holder, which waits for nothing but its context. Every other wait
is for a goroutine of a lower level, which has been started and has not ended
without the effect that is waited for. So as long as anything is left to do
somebody can go on, and since there is less to do after every step, the whole
transport can be run to its end: everyone has returned, and every subscription,
service and watcher that was opened has been released.

What the outside is taken to do: the client library answers, handlers return, and
the updates of a watcher end when it is stopped. A goroutine that stops a
watcher gives up waiting for its context only after the updates have ended and
the watcher has been stopped.
-/

namespace TransportNats.Lifecycle

open Interleaving

/-! ### Who is attended to -/

/-- What the goroutines wait for is on its way, and all contexts that are handed
around meet `D`. -/
structure Attended (D : Ctx → Prop) (s : State) (ms : List Waits) : Prop where
  gate : s.link.connectGate = true → ∃ (i : ℕ) (m : Waits), ms[i]? = some m ∧ m.gate = true
  helpers : ∀ (i : ℕ) (m : Waits), ms[i]? = some m → ∀ g ∈ m.helpers, g ∈ s.pool.started ∨
    ∃ (j : ℕ) (m' : Waits), ms[j]? = some m' ∧ ∃ turns, m'.call = .goroutine g turns
  sent : ∀ (i : ℕ) (m : Waits), ms[i]? = some m → m.sent = true →
    ∀ id ctx turns, m.call = .goroutine (.listener id ctx) turns → ∃ err, (id, err) ∈ s.pool.done
  panicked : ∀ (i : ℕ) (m : Waits), ms[i]? = some m → m.panicked = true →
    s.readiness.mutexLost = true
  started : ∀ g ∈ s.pool.started, D g.ctx
  called : ∀ (i : ℕ) (m : Waits), ms[i]? = some m → ∀ ctx, m.call.ctx? = some ctx → D ctx

section
variable {D : Ctx → Prop} {s s' : State} {ms : List Waits} {t : ℕ} {m m' : Waits} {ch : Choice}

/-- What a step may do: the state only gains, and so do the marks, except that
the gate is released. -/
structure Gains (s s' : State) (m m' : Waits) : Prop where
  call : m'.call = m.call
  gate : s'.link.connectGate = true →
    m'.gate = true ∨ s.link.connectGate = true ∧ (m.gate = true → m'.gate = true)
  started : s.pool.started ⊆ s'.pool.started
  helpers : ∀ g ∈ m'.helpers, g ∈ m.helpers ∨ g ∈ s'.pool.started
  done : s.pool.done ⊆ s'.pool.done
  sent : m'.sent = true → m.sent = true ∨
    ∀ id ctx turns, m.call = .goroutine (.listener id ctx) turns → ∃ err, (id, err) ∈ s'.pool.done
  lost : s.readiness.mutexLost = true → s'.readiness.mutexLost = true
  panicked : m'.panicked = true → m.panicked = true ∨ s'.readiness.mutexLost = true
  ctx : ∀ g ∈ s'.pool.started, g ∈ s.pool.started ∨ m.call.Passes g.ctx

theorem Attended.gains (h : Attended D s ms) (hD : ∀ {own ctx : Ctx}, own <:+ ctx → D own → D ctx)
    (ht : ms[t]? = some m) (hg : Gains s s' m m') : Attended D s' (ms.set t m') where
  gate hgate := by
    rcases hg.gate hgate with hself | ⟨hheld, hkeep⟩
    · exact ⟨t, m', getElem?_set_self_of ht m', hself⟩
    · exact exists_set ht m' hkeep (h.gate hheld)
  helpers := by
    have hrun : ∀ g : Goroutine,
        (∃ (j : ℕ) (x : Waits), ms[j]? = some x ∧ ∃ turns, x.call = .goroutine g turns) →
        ∃ (j : ℕ) (x : Waits), (ms.set t m')[j]? = some x ∧ ∃ turns, x.call = .goroutine g turns :=
      fun g => exists_set ht m' (Exists.imp fun _ hcall => hg.call.trans hcall)
    refine forall_set (fun g hmem => ?_) fun i x _ hx g hmem => ?_
    · rcases hg.helpers g hmem with hmem | hmem
      · exact (h.helpers t m ht g hmem).imp (@hg.started g) (hrun g)
      · exact .inl hmem
    · exact (h.helpers i x hx g hmem).imp (@hg.started g) (hrun g)
  sent := by
    refine forall_set (fun hsent id ctx turns hcall => ?_)
      fun i x _ hx hsent id ctx turns hcall => ?_
    · rw [hg.call] at hcall
      rcases hg.sent hsent with hsent | hdone
      · obtain ⟨err, hmem⟩ := h.sent t m ht hsent id ctx turns hcall
        exact ⟨err, hg.done hmem⟩
      · exact hdone id ctx turns hcall
    · obtain ⟨err, hmem⟩ := h.sent i x hx hsent id ctx turns hcall
      exact ⟨err, hg.done hmem⟩
  panicked := forall_set
    (fun hp => (hg.panicked hp).elim (fun hp => hg.lost (h.panicked t m ht hp)) id)
    fun i x _ hx hp => hg.lost (h.panicked i x hx hp)
  started g hmem := by
    rcases hg.ctx g hmem with hmem | ⟨own, hown, hsuf⟩
    · exact h.started g hmem
    · exact hD hsuf (h.called t m ht own hown)
  called := forall_set (fun ctx hctx => h.called t m ht ctx (hg.call ▸ hctx))
    fun i x _ hx => h.called i x hx

theorem Gains.refl (s : State) (m : Waits) : Gains s s m m where
  call := rfl
  gate h := .inr ⟨h, id⟩
  started := List.Subset.refl _
  helpers _ h := .inl h
  done := List.Subset.refl _
  sent h := .inl h
  lost h := h
  panicked h := .inl h
  ctx _ h := .inl h

theorem gains_link (o : LinkOp) :
    Gains s (exec ch s (.link o)).1 m (m.after ⟨.link o, (exec ch s (.link o)).2⟩) := by
  have hquiet : ∀ l : Link, l.connectGate = s.link.connectGate → Gains s { s with link := l } m m :=
    fun l hl => { Gains.refl s m with gate := fun h => .inr ⟨hl ▸ h, id⟩ }
  have hlocked : ∀ l : Link, Gains s { s with link := l } m { m with gate := true } :=
    fun l => { Gains.refl s m with gate := fun _ => .inl rfl }
  cases o with
  | lockConnect ctx =>
      simp only [exec, LinkOp.exec]
      rcases ch (.link (.lockConnect ctx)) with _ | err
      · exact hlocked _
      · exact hquiet _ rfl
  | lockGate => exact hlocked _
  | unlockConnect => exact { Gains.refl s m with gate := fun h => absurd h Bool.false_ne_true }
  | publishCancel tok =>
      simp only [exec, LinkOp.exec]
      split <;> exact hquiet _ rfl
  | connect url =>
      simp only [exec, LinkOp.exec]
      split <;> exact hquiet _ rfl
  | storeConn nc =>
      simp only [exec, LinkOp.exec]
      split <;> exact hquiet _ rfl
  | _ => exact hquiet _ rfl

theorem gains_pool {o : PoolOp} (ha : m.allowsPool o) {out : State × o.Ret} (h : o.Does s out) :
    Gains s out.1 m (m.after ⟨.pool o, out.2⟩) := by
  have hquiet := Gains.refl s m
  -- the goroutine that is started may be one that is waited for later
  have hstart : ∀ (g : Goroutine) (p : Pool) (helpers : List Goroutine), m.call.Passes g.ctx →
      p.started = g :: s.pool.started → p.done = s.pool.done → helpers ⊆ g :: m.helpers →
      Gains s { s with pool := p } m { m with helpers := helpers } := by
    intro g p helpers hctx hstarted hdone hhelpers
    refine { hquiet with
      started := by simp [hstarted]
      helpers := fun x hx => ?_
      done := by simp [hdone]
      sent := .inl
      ctx := fun x hx => ?_ }
    · rcases List.mem_cons.mp (hhelpers hx) with rfl | hx
      · exact .inr (by simp [hstarted])
      · exact .inl hx
    · rw [hstarted] at hx
      rcases List.mem_cons.mp hx with rfl | hx
      · exact .inr hctx
      · exact .inl hx
  cases h with
  | goWorker g => exact hstart g _ m.helpers ha.2 rfl rfl (List.subset_cons_self _ _)
  | goStopper ctx watcher =>
      exact hstart (.stopWatcher ctx watcher) _ _ ha.2 rfl rfl (List.Subset.refl _)
  | goListener ctx =>
      exact hstart (.listener s.pool.listeners ctx) _ _ ha.2 rfl rfl (List.Subset.refl _)
  | sendDone id err =>
      refine { hquiet with
        done := List.subset_cons_self _ _
        sent := fun _ => .inr fun id' ctx' turns' hcall => ?_ }
      obtain ⟨ctx, turns, hown⟩ := ha
      rw [hown] at hcall
      cases hcall
      exact ⟨err, List.mem_cons_self⟩
  | _ => exact { hquiet with }

theorem gains_ready (o : ReadyOp) :
    Gains s (exec ch s (.ready o)).1 m (m.after ⟨.ready o, (exec ch s (.ready o)).2⟩) := by
  have hquiet := Gains.refl s m
  cases o with
  | signalReady err =>
      simp only [exec, ReadyOp.exec]
      split
      · exact hquiet
      · split
        · exact { hquiet with lost := fun _ => rfl, panicked := fun _ => .inr rfl }
        · exact { hquiet with }
  | awaitReady ctx => exact hquiet
  | readReadyErr => exact hquiet

theorem gains_exec {o : Op} (ha : m.allows o) :
    Gains s (exec ch s o).1 m (m.after ⟨o, (exec ch s o).2⟩) := by
  cases o with
  | link o => exact gains_link o
  | pool o => exact gains_pool ha (PoolOp.does (fun o => ch (.pool o)) s o)
  | ready o => exact gains_ready o
  | external o => exact Gains.refl s m

/-- Calls from outside come with contexts that meet `D`; a goroutine that begins
has been started with one. -/
theorem Attended.enter (h : Attended D s ms) {c : Call} (henter : c.enter s = some s')
    (hc : (∀ g turns, c ≠ .goroutine g turns) → ∀ ctx, c.ctx? = some ctx → D ctx) :
    Attended D s' (ms ++ [{ call := c }]) := by
  have hlen : (ms ++ [({ call := c } : Waits)])[ms.length]? = some { call := c } :=
    List.getElem?_concat_length
  rcases Call.enter_cases henter with ⟨rfl, hcall⟩ | ⟨g, turns, rfl, hmem, rfl⟩
  · refine ⟨fun hgate => exists_enter (h.gate hgate), ?_, ?_, ?_, h.started, ?_⟩
    · refine forall_enter (by simp) fun i x hx g hg => ?_
      exact (h.helpers i x hx g hg).imp_right exists_enter
    · exact forall_enter (by simp) h.sent
    · exact forall_enter (by simp) h.panicked
    · exact forall_enter (hc hcall) h.called
  · refine ⟨fun hgate => exists_enter (h.gate hgate), ?_, ?_, ?_, ?_, ?_⟩
    · refine forall_enter (by simp) fun i x hx g' hg' => ?_
      rcases h.helpers i x hx g' hg' with hstarted | hrun
      · -- one that was waited for is still to begin, or it is the one that begins
        by_cases heq : g' = g
        · exact .inr ⟨_, _, hlen, turns, by rw [heq]⟩
        · exact .inl ((List.mem_erase_of_ne heq).mpr hstarted)
      · exact .inr (exists_enter hrun)
    · exact forall_enter (by simp) h.sent
    · exact forall_enter (by simp) h.panicked
    · exact fun g' hg' => h.started g' (List.mem_of_mem_erase hg')
    · refine forall_enter (fun ctx hctx => ?_) h.called
      obtain rfl := Option.some.inj hctx
      exact h.started g hmem

theorem Attended.env (h : Attended D s ms) (e : Event) : Attended D (e.happen s) ms := by
  cases e <;> exact { h with }

theorem attended_built (hs : Built s) : Attended D s [] := by
  cases hs <;> exact ⟨by simp [newTransport, fromConn], by simp, by simp, by simp,
    by simp [newTransport, fromConn], by simp⟩

end

/-! ### Watchers that are stopped -/

/-- A goroutine that stops a watcher gives up waiting for its context only when
the watcher has been stopped. -/
def stopsInTime (w : World transport) : Act transport → Bool
  | .step t ch =>
      match w.performs? (.step t ch) with
      | some (.goroutine (.stopWatcher _ watcher) _, .external (.awaitCtx ctx)) =>
          ch (.external (.awaitCtx ctx)) || watcher ∈ w.state.pool.released
      | _ => true
  | .spawn _ | .env _ => true

/-- The runs of the transport. -/
def Faithful (w : World transport) (a : Act transport) : Prop :=
  Admissible (fun _ => true) w a ∧ stopsInTime w a = true

instance Faithful.decide (w : World transport) (a : Act transport) : Decidable (Faithful w a) :=
  inferInstanceAs (Decidable (_ ∧ _))

/-- Where a goroutine that stops a watcher is. -/
inductive Stopping (s : State) (ctx : Ctx) (watcher : Resource) : Routine Result → Prop
  | awaits : Stopping s ctx watcher (finishing (stopWatcher ctx watcher))
  | stops : Stopping s ctx watcher (finishing (pool (.release watcher)))
  | ended (r : Result) (h : watcher ∈ s.pool.released) : Stopping s ctx watcher (.ret r)

def StopsWatcher (s : State) (th : Thread transport) : Prop :=
  ∀ ctx watcher turns, th.call = .goroutine (.stopWatcher ctx watcher) turns →
    Stopping s ctx watcher th.rest

theorem PoolOp.Does.released {s : State} {o : PoolOp} {out : State × o.Ret} (h : o.Does s out) :
    s.pool.released ⊆ out.1.pool.released := by
  cases h with
  | release r => exact List.subset_cons_self _ _
  | _ => exact List.Subset.refl _

theorem released_exec (ch : Choice) (s : State) (o : Op) :
    s.pool.released ⊆ (exec ch s o).1.pool.released := by
  cases o with
  | pool o => exact (PoolOp.does (fun o => ch (.pool o)) s o).released
  | _ => exact List.Subset.refl _

theorem released_moves {w w' : World transport} {a : Act transport} (hm : World.Moves w a w') :
    w.state.pool.released ⊆ w'.state.pool.released := by
  cases hm with
  | idle => exact List.Subset.refl _
  | enter h =>
      rcases Call.enter_cases h with ⟨rfl, -⟩ | ⟨g, turns, rfl, -, rfl⟩ <;> exact List.Subset.refl _
  | perform ht => exact released_exec _ _ _
  | env e => cases e <;> exact List.Subset.refl _

theorem Stopping.mono {s s' : State} {ctx : Ctx} {watcher : Resource} {p : Routine Result}
    (h : Stopping s ctx watcher p) (hs : s.pool.released ⊆ s'.pool.released) :
    Stopping s' ctx watcher p := by
  cases h with
  | awaits => exact .awaits
  | stops => exact .stops
  | ended r h => exact .ended r (hs h)

theorem stopsWatcher_moves {w w' : World transport} {a : Act transport}
    (hm : World.Moves w a w') (ha : stopsInTime w a = true)
    (hw : ∀ (t : ℕ) (th : Thread transport), w.threads[t]? = some th → StopsWatcher w.state th) :
    ∀ (t : ℕ) (th : Thread transport), w'.threads[t]? = some th → StopsWatcher w'.state th := by
  refine hm.forall_threads (P := StopsWatcher) hw (fun th hth ctx watcher turns hcall => ?_)
    (fun c ctx watcher turns hcall => ?_) ?_
  · exact (hth ctx watcher turns hcall).mono (released_moves hm)
  · obtain rfl : c = .goroutine (.stopWatcher ctx watcher) turns := hcall
    exact .awaits
  · intro t ch c h o k hact ht hs ctx watcher turns hcall
    obtain rfl : c = .goroutine (.stopWatcher ctx watcher) turns := hcall
    subst hact
    have hstage := hw t _ ht ctx watcher turns rfl
    simp only at hstage
    generalize hp : Program.call o k = p at hstage
    cases hstage with
    | awaits =>
        injection hp with ho hk
        subst ho
        obtain rfl := eq_of_heq hk
        simp only [stopsInTime, World.performs?_step ch ht, Bool.or_eq_true,
          decide_eq_true_eq] at ha
        change Stopping w'.state ctx watcher (finishing
          (if ch (.external (.awaitCtx ctx)) = true then pool (.release watcher) else pure ()))
        split
        · exact .stops
        · exact .ended _ (released_moves hm (ha.resolve_left ‹_›))
    | stops =>
        injection hp with ho hk
        subst ho
        obtain rfl := eq_of_heq hk
        refine .ended _ ?_
        rw [hs]
        exact List.mem_cons_self
    | ended r h => cases hp

/-! ### Going on -/

/-- The operation goes through, and does so in the code: a wait for a context
ends because the context is done, and the updates of a watcher because it has
been stopped. -/
def Op.Goes (ch : Choice) (s : State) (o : Op) : Prop :=
  Lifecycle.ready ch s o = true ∧
    match o with
    | .external (.awaitCtx ctx) => ch (.external (.awaitCtx ctx)) = true
    | .external (.nextUpdate watcher) =>
        watcher ∈ s.pool.released ∧ ch (.external (.nextUpdate watcher)) = .closed
    | _ => True

/-- A goroutine that has been started begins, or one that has begun performs its
next operation. -/
def Goes (w : World transport) : Act transport → Prop
  | .spawn c => ∃ g turns, c = .goroutine g turns ∧ g ∈ w.state.pool.started
  | .step t ch => ∃ th o, w.threads[t]? = some th ∧ th.rest.next? = some o ∧ o.Goes ch w.state
  | .env _ => False

/-- The choice in which every wait with a context ends because the context is
done, and a watcher has no more updates. -/
def giveUp (s : State) : Choice
  | .link o =>
      match o with
      | .lockConnect ctx => if s.link.connectGate then s.link.ctxErr ctx else none
      | .awaitConnected ctx _ _ => (s.link.ctxErr ctx).map .ctxDone
      | .awaitEnd ctx _ _ => (s.link.ctxErr ctx).elim .connectDone .ctxDone
      | o => smooth (.link o)
  | .pool o => smooth (.pool o)
  | .ready o =>
      match o with
      | .awaitReady ctx => s.link.ctxErr ctx
      | o => smooth (.ready o)
  | .external o =>
      match o with
      | .pause _ | .awaitCtx _ => true
      | o => smooth (.external o)

/-- The waits that are not for a context. -/
inductive Blocked (s : State) : Op → Prop
  | gate (h : s.link.connectGate = true) : Blocked s (.link .lockGate)
  | workers (h : s.pool.workers ≠ 0) : Blocked s (.pool .awaitWorkers)
  | result (id : ℕ) (h : ∀ err, (id, err) ∉ s.pool.done) : Blocked s (.pool (.receiveDone id))
  | update (watcher : Resource) (h : watcher ∉ s.pool.released) :
      Blocked s (.external (.nextUpdate watcher))

/-- Nobody who has the gate is blocked. -/
theorem Blocked.gate_eq_false {s : State} {o : Op} (hb : Blocked s o) {m : Waits}
    (ha : m.allows o) : m.gate = false := by
  cases hb with
  | gate h => exact ha
  | workers h => exact ha.1
  | result id h => exact ha.1
  | update watcher h => exact ha.1

theorem goes_or_blocked {s : State} {m : Waits} {o : Op} (hlost : s.readiness.mutexLost = false)
    (hdone : ∀ ctx, m.call.Passes ctx → (s.link.ctxErr ctx).isSome) (ha : m.allows o) :
    o.Goes (giveUp s) s ∨ Blocked s o := by
  have hready : ∀ o : Op, o.canProceed (giveUp s) s = true → ready (giveUp s) s o = true := by
    intro o ho
    simp [ready, ho, hlost]
  cases o with
  | link o =>
      cases o with
      | lockConnect ctx =>
          obtain ⟨err, herr⟩ := Option.isSome_iff_exists.mp (hdone ctx ha)
          refine .inl ⟨hready _ ?_, trivial⟩
          cases hgate : s.link.connectGate <;> simp [Op.canProceed, giveUp, hgate, herr]
      | lockGate =>
          cases hgate : s.link.connectGate with
          | true => exact .inr (.gate hgate)
          | false => exact .inl ⟨hready _ (by simp [Op.canProceed, hgate]), trivial⟩
      | awaitConnected ctx connectCtx nc =>
          obtain ⟨err, herr⟩ := Option.isSome_iff_exists.mp (hdone ctx ha)
          refine .inl ⟨hready _ ?_, trivial⟩
          simp [Op.canProceed, giveUp, herr, WaitEnd.possible]
      | awaitEnd ctx connectCtx nc =>
          obtain ⟨err, herr⟩ := Option.isSome_iff_exists.mp (hdone ctx ha)
          refine .inl ⟨hready _ ?_, trivial⟩
          simp [Op.canProceed, giveUp, herr, WaitEnd.possible]
      | _ => exact .inl ⟨hready _ rfl, trivial⟩
  | pool o =>
      cases o with
      | awaitWorkers =>
          by_cases hzero : s.pool.workers = 0
          · exact .inl ⟨hready _ (by simp [Op.canProceed, hzero]), trivial⟩
          · exact .inr (.workers hzero)
      | receiveDone id =>
          by_cases hsent : ∃ err, (id, err) ∈ s.pool.done
          · obtain ⟨err, hmem⟩ := hsent
            refine .inl ⟨hready _ ?_, trivial⟩
            exact List.any_eq_true.mpr ⟨_, hmem, by simp⟩
          · exact .inr (.result id fun err hmem => hsent ⟨err, hmem⟩)
      | _ => exact .inl ⟨hready _ rfl, trivial⟩
  | ready o =>
      cases o with
      | awaitReady ctx =>
          obtain ⟨err, herr⟩ := Option.isSome_iff_exists.mp (hdone ctx ha)
          exact .inl ⟨hready _ (by simp [Op.canProceed, giveUp, herr]), trivial⟩
      | _ => exact .inl ⟨hready _ rfl, trivial⟩
  | external o =>
      cases o with
      | awaitStop ctx nc => exact .inl ⟨hready _ (hdone ctx ha), trivial⟩
      | pause ctx =>
          exact .inl ⟨hready _ (by simp [Op.canProceed, hdone ctx ha]), trivial⟩
      | awaitCtx ctx => exact .inl ⟨hready _ (by simp [Op.canProceed, hdone ctx ha]), rfl⟩
      | nextUpdate watcher =>
          by_cases hmem : watcher ∈ s.pool.released
          · exact .inl ⟨hready _ rfl, hmem, rfl⟩
          · exact .inr (.update watcher hmem)
      | _ => exact .inl ⟨hready _ rfl, trivial⟩

/-! ### Nobody is stuck -/

theorem Link.isSome_ctxErr {l : Link} {ctx : Ctx} :
    (l.ctxErr ctx).isSome ↔ ∃ x ∈ l.cancelled, x.1 ∈ ctx := by
  simp [Link.ctxErr]

theorem Link.isSome_ctxErr_of_suffix {l : Link} {own ctx : Ctx} (hsuf : own <:+ ctx)
    (h : (l.ctxErr own).isSome) : (l.ctxErr ctx).isSome := by
  obtain ⟨x, hx, hmem⟩ := Link.isSome_ctxErr.mp h
  exact Link.isSome_ctxErr.mpr ⟨x, hx, hsuf.subset hmem⟩

theorem Waits.after_call (m : Waits) (x : Answered lifecycleSig) : (m.after x).call = m.call := by
  obtain ⟨o, r⟩ := x
  cases o with
  | link o =>
      cases o with
      | lockConnect ctx => cases r <;> rfl
      | _ => rfl
  | pool o => cases o <;> rfl
  | ready o => cases o <;> rfl
  | external o => rfl

theorem call_mark (th : Thread transport) : (attended.mark th).call = th.call := by
  obtain ⟨c, h, p⟩ := th
  induction h with
  | nil => rfl
  | cons x h ih => exact (Waits.after_call _ x).trans ih

/-- What is known of a transport all of whose callers have given up. -/
structure GivenUp (w : World transport) : Prop where
  marked : watched.contract.Ok w
  accounted : Accounted w.state (watched.marks w)
  waits : attended.contract.Ok w
  attends : Attended (fun ctx => (w.state.link.ctxErr ctx).isSome) w.state (attended.marks w)
  stops : ∀ (t : ℕ) (th : Thread transport), w.threads[t]? = some th → StopsWatcher w.state th
  lost : w.state.readiness.mutexLost = false

section
variable {w : World transport}

/-- Only a message callback and the workers of a run count in the wait group. -/
theorem level_of_worker (hok : attended.contract.Ok w) {t : ℕ} {th : Thread transport}
    (ht : w.threads[t]? = some th) (hworker : (watched.mark th).pool.worker = true) :
    th.call.level ≤ 1 := by
  by_cases hstart : th.call.marks.pool.worker = true
  · obtain ⟨c, h, p⟩ := th
    cases c with
    | goroutine g turns =>
        cases g with
        | fetchLoop ctx nc sub => exact le_refl 1
        | watch ctx what watcher => exact le_refl 1
        | stopWatcher ctx watcher => cases hstart
        | listener id ctx => cases hstart
    | _ => cases hstart
  · -- it has been admitted by `startWorker`, which only a callback calls
    obtain ⟨⟨o, r⟩, h, hsuf, hbefore, hafter⟩ := watched.exists_change
      (P := fun m : Marks => m.pool.worker = true) hstart hworker
    have hallowed := (hok t th ht).allowed hsuf
    cases o with
    | pool o =>
        cases o with
        | startWorker =>
            have hlevel : (attended.mark ⟨th.call, h, th.rest⟩).call.level = 0 := hallowed
            rw [call_mark] at hlevel
            exact hlevel.le.trans (Nat.zero_le 1)
        | startRunning => cases r <;> exact absurd hafter hbefore
        | ensureJetStream => cases r <;> exact absurd hafter hbefore
        | openResource what => cases r <;> exact absurd hafter hbefore
        | goWorker g => cases g <;> exact absurd hafter hbefore
        | workerDone => cases hafter
        | _ => exact absurd hafter hbefore
    | _ => exact absurd hafter hbefore

theorem GivenUp.goes_or_blocked (hw : GivenUp w) {t : ℕ} {c : Call} {h : History lifecycleSig}
    {o : Op} {k : o.Ret → Routine Result} (ht : w.threads[t]? = some ⟨c, h, .call o k⟩) :
    (∃ a, Goes w a) ∨ Blocked w.state o := by
  have hdone : ∀ ctx, (attended.mark ⟨c, h, .call o k⟩).call.Passes ctx →
      (w.state.link.ctxErr ctx).isSome := by
    rintro ctx ⟨own, hown, hsuf⟩
    exact Link.isSome_ctxErr_of_suffix hsuf
      (hw.attends.called t _ (attended.getElem?_marks ht) own hown)
  refine (Lifecycle.goes_or_blocked hw.lost hdone (hw.waits.guard ht)).imp_left fun hgoes => ?_
  exact ⟨.step t (giveUp w.state), _, o, ht, rfl, hgoes⟩

theorem goes_of_started {g : Goroutine} (hg : g ∈ w.state.pool.started) : ∃ a, Goes w a :=
  ⟨.spawn (.goroutine g 0), g, 0, rfl, hg⟩

/-- Who has the gate goes on. -/
theorem GivenUp.goes_of_gate (hw : GivenUp w) (hgate : w.state.link.connectGate = true) :
    ∃ a, Goes w a := by
  obtain ⟨t, m, hm, hholds⟩ := hw.attends.gate hgate
  obtain ⟨⟨c, h, p⟩, ht, rfl⟩ := attended.exists_of_getElem?_marks hm
  cases p with
  | ret r => exact absurd ((hw.waits.post ht rfl).1.symm.trans hholds) Bool.false_ne_true
  | call o k =>
      rcases hw.goes_or_blocked ht with hgoes | hblocked
      · exact hgoes
      · have hfree := hblocked.gate_eq_false (hw.waits.guard ht)
        exact absurd (hfree.symm.trans hholds) Bool.false_ne_true

/-- Somebody is still to begin, or somebody of at most this level has not returned. -/
def Unfinished (w : World transport) (level : ℕ) : Prop :=
  (∃ g, g ∈ w.state.pool.started) ∨ ∃ (t : ℕ) (th : Thread transport),
    w.threads[t]? = some th ∧ th.rest.result? = none ∧ th.call.level ≤ level

/-- As long as somebody counts in the wait group, a worker has not returned. -/
theorem GivenUp.unfinished_of_workers (hw : GivenUp w) (hworkers : w.state.pool.workers ≠ 0) :
    Unfinished w 1 := by
  have hcounted := hw.accounted.counted
  rw [Counted] at hcounted
  by_cases hstarted : 0 < w.state.pool.started.countP (·.isWorker)
  · obtain ⟨g, hg, -⟩ := List.countP_pos_iff.mp hstarted
    exact .inl ⟨g, hg⟩
  · have hpos : 0 < (pools (watched.marks w)).countP (·.worker) := by omega
    obtain ⟨p, hp, hworker⟩ := List.countP_pos_iff.mp hpos
    obtain ⟨t, hp⟩ := List.mem_iff_getElem?.mp hp
    obtain ⟨m, hm, rfl⟩ := exists_of_getElem?_map hp
    obtain ⟨th, ht, rfl⟩ := watched.exists_of_getElem?_marks hm
    refine .inr ⟨t, th, ht, ?_, level_of_worker hw.waits ht hworker⟩
    by_contra hreturned
    have hidle := (idle_of_returned hw.marked ht (Option.isSome_iff_ne_none.mpr hreturned)).1
    exact absurd (hidle.worker.symm.trans hworker) Bool.false_ne_true

/-- A goroutine that somebody has started is there, and it is at work if it cannot
have returned. -/
theorem GivenUp.unfinished_of_helper (hw : GivenUp w) {t : ℕ} {th : Thread transport}
    {g : Goroutine} (ht : w.threads[t]? = some th) (hhelper : g ∈ (attended.mark th).helpers)
    (hrest : ∀ (u : ℕ) (th' : Thread transport) (turns : ℕ), w.threads[u]? = some th' →
      th'.call = .goroutine g turns → th'.rest.result? = none) :
    Unfinished w g.level := by
  rcases hw.attends.helpers t _ (attended.getElem?_marks ht) g hhelper with
    hstarted | ⟨u, m, hm, turns, hcall⟩
  · exact .inl ⟨g, hstarted⟩
  · obtain ⟨th', hu, rfl⟩ := attended.exists_of_getElem?_marks hm
    rw [call_mark] at hcall
    have hlevel : th'.call.level = g.level := congrArg Call.level hcall
    exact .inr ⟨u, th', hu, hrest u th' turns hu hcall, hlevel.le⟩

/-- The goroutine that is to send a result does not end without sending it. -/
theorem GivenUp.unfinished_of_result (hw : GivenUp w) {t : ℕ} {th : Thread transport} {id : ℕ}
    {ctx : Ctx} (ht : w.threads[t]? = some th)
    (hhelper : .listener id ctx ∈ (attended.mark th).helpers)
    (hnone : ∀ err, (id, err) ∉ w.state.pool.done) : Unfinished w 2 := by
  refine hw.unfinished_of_helper ht hhelper fun u th' turns hu hcall => ?_
  by_contra hreturned
  obtain ⟨r, hr⟩ := Option.ne_none_iff_exists'.mp hreturned
  have hm := attended.getElem?_marks hu
  rcases (hw.waits.post hu hr).2 id ctx turns hcall with hsent | hpanicked
  · obtain ⟨err, hmem⟩ := hw.attends.sent u _ hm hsent id ctx turns ((call_mark th').trans hcall)
    exact hnone err hmem
  · exact absurd (hw.lost.symm.trans (hw.attends.panicked u _ hm hpanicked)) Bool.false_ne_true

/-- The goroutine that is to stop a watcher does not end before that. -/
theorem GivenUp.unfinished_of_update (hw : GivenUp w) {t : ℕ} {th : Thread transport} {ctx : Ctx}
    {watcher : Resource} (ht : w.threads[t]? = some th)
    (hhelper : .stopWatcher ctx watcher ∈ (attended.mark th).helpers)
    (hopen : watcher ∉ w.state.pool.released) : Unfinished w 0 := by
  refine hw.unfinished_of_helper ht hhelper fun u th' turns hu hcall => ?_
  have hstage := hw.stops u th' hu ctx watcher turns hcall
  generalize th'.rest = p at hstage ⊢
  cases hstage with
  | awaits => rfl
  | stops => rfl
  | ended r h => exact absurd h hopen

/-- Whoever has not returned goes on, or somebody of a lower level does, or the
one that has the gate. -/
theorem GivenUp.goes_of_unfinished (hw : GivenUp w) {t : ℕ} {th : Thread transport}
    (ht : w.threads[t]? = some th) (hrest : th.rest.result? = none) : ∃ a, Goes w a := by
  induction hn : th.call.level using Nat.strong_induction_on generalizing t th with
  | _ n ih =>
      obtain ⟨c, h, p⟩ := th
      cases p with
      | ret r => cases hrest
      | call o k =>
          rcases hw.goes_or_blocked ht with hgoes | hblocked
          · exact hgoes
          have ha : (attended.mark ⟨c, h, .call o k⟩).allows o := hw.waits.guard ht
          have hlower : ∀ l, l < n → Unfinished w l → ∃ a, Goes w a := by
            rintro l hl (⟨g, hg⟩ | ⟨u, th', hu, hrest', hle⟩)
            · exact goes_of_started hg
            · exact ih _ (by omega) hu hrest' rfl
          have hlevel : (attended.mark ⟨c, h, .call o k⟩).call.level = n := by rw [call_mark, ← hn]
          cases hblocked with
          | gate hgate => exact hw.goes_of_gate hgate
          | workers hworkers =>
              have htwo := ha.2
              exact hlower 1 (by omega) (hw.unfinished_of_workers hworkers)
          | result id hnone =>
              obtain ⟨-, hthree, ctx, hhelper⟩ := ha
              exact hlower 2 (by omega) (hw.unfinished_of_result ht hhelper hnone)
          | update watcher hopen =>
              obtain ⟨-, hone, ctx, hhelper⟩ := ha
              exact hlower 0 (by omega) (hw.unfinished_of_update ht hhelper hopen)

/-! ### At rest -/

/-- Everyone has returned, nobody is still to begin, and every subscription, service
and watcher that was opened has been released. Connections are not meant: one that
was dialed stays until `Close`. -/
structure Drained (w : World transport) : Prop where
  returned : ∀ (t : ℕ) (th : Thread transport), w.threads[t]? = some th → th.rest.result?.isSome
  started : w.state.pool.started = []
  workers : w.state.pool.workers = 0
  gate : w.state.link.connectGate = false
  released : ∀ r ∈ w.state.pool.opened, r ∈ w.state.pool.released

/-- Where nobody has anything in hand and no run serves, all is released. -/
theorem Resourced.released {p : Pool} {ms : List PoolMarks} (h : Resourced p ms)
    (hstarted : p.started = [])
    (hidle : ∀ (i : ℕ) (m : PoolMarks), ms[i]? = some m → m.running = false ∧ m.hands = [])
    {r : Resource} (hr : r ∈ p.opened) : r ∈ p.released := by
  have hlists : p.subs ++ p.microServices = [] := by
    by_contra hne
    obtain ⟨i, m, hm, hserving⟩ := h.listed hne
    simp [PoolMarks.serving, (hidle i m hm).1] at hserving
  obtain ⟨hsubs, hservices⟩ := List.append_eq_nil_iff.mp hlists
  rcases h.held r hr with (hr | hr | hr | ⟨g, hg, -⟩) | ⟨i, m, hm, hr⟩
  · exact hr
  · simp [hsubs] at hr
  · simp [hservices] at hr
  · simp [hstarted] at hg
  · simp [(hidle i m hm).2] at hr

theorem GivenUp.drained_or_goes (hw : GivenUp w) : Drained w ∨ ∃ a, Goes w a := by
  by_cases hstarted : w.state.pool.started = []
  case neg =>
    obtain ⟨g, hg⟩ := List.exists_mem_of_ne_nil _ hstarted
    exact .inr (goes_of_started hg)
  by_cases hreturned : ∀ (t : ℕ) (th : Thread transport), w.threads[t]? = some th →
      th.rest.result?.isSome
  case neg =>
    push Not at hreturned
    obtain ⟨t, th, ht, hrest⟩ := hreturned
    exact .inr (hw.goes_of_unfinished ht (by simpa using hrest))
  cases hgate : w.state.link.connectGate with
  | true => exact .inr (hw.goes_of_gate hgate)
  | false =>
      refine .inl ⟨hreturned, hstarted, ?_, hgate, fun r hr => ?_⟩
      · by_contra hworkers
        rcases hw.unfinished_of_workers hworkers with ⟨g, hg⟩ | ⟨t, th, ht, hrest, -⟩
        · simp [hstarted] at hg
        · simpa [hrest] using hreturned t th ht
      · refine hw.accounted.resourced.released hstarted (fun i p hp => ?_) hr
        obtain ⟨m, hm, rfl⟩ := exists_of_getElem?_map hp
        obtain ⟨th, ht, rfl⟩ := watched.exists_of_getElem?_marks hm
        have hidle := (idle_of_returned hw.marked ht (hreturned i th ht)).1
        exact ⟨hidle.running, hidle.hands⟩

/-! ### What is left to do -/

/-- The goroutines that are still to begin, by their levels. -/
def stillToBegin (s : State) : List ℕ := s.pool.started.map (·.level)

/-- A goroutine starts only goroutines of lower levels. -/
theorem started_exec {m : Waits} {o : Op} (ha : m.allows o) (ch : Choice) (s : State) :
    ∃ fresh, (exec ch s o).1.pool.started = fresh ++ s.pool.started ∧
      ∀ g ∈ fresh, g.level < m.call.level := by
  have hnone : ∃ fresh, s.pool.started = fresh ++ s.pool.started ∧
      ∀ g ∈ fresh, g.level < m.call.level := ⟨[], rfl, by simp⟩
  cases o with
  | pool o =>
      have hdoes : o.Does s (exec ch s (.pool o)) := PoolOp.does (fun o => ch (.pool o)) s o
      generalize exec ch s (.pool o) = out at hdoes
      cases hdoes with
      | goWorker g => exact ⟨[g], rfl, by simpa using ha.1⟩
      | goStopper ctx watcher =>
          exact ⟨[.stopWatcher ctx watcher], rfl, by simpa [Goroutine.level] using ha.1⟩
      | goListener ctx =>
          exact ⟨[.listener s.pool.listeners ctx], rfl, by simpa [Goroutine.level] using ha.1⟩
      | _ => exact hnone
  | _ => exact hnone

theorem load_of_goes (hok : attended.contract.Ok w) {a : Act transport} (ha : Goes w a) :
    Relation.CutExpand Load.Less (World.load Call.level stillToBegin (w.act a))
      (World.load Call.level stillToBegin w) := by
  cases a with
  | env e => cases ha
  | spawn c =>
      obtain ⟨g, turns, rfl, hg⟩ := ha
      have henter : transport.enter (.goroutine g turns) w.state =
          some { w.state with pool :=
            { w.state.pool with started := w.state.pool.started.erase g } } := if_pos hg
      rw [World.act_spawn henter]
      exact World.load_enter ((List.perm_cons_erase hg).map Goroutine.level)
  | step t ch =>
      obtain ⟨⟨c, h, p⟩, o, ht, hnext, -⟩ := ha
      cases p with
      | ret r => cases hnext
      | call o' k =>
          rw [World.act_step ch ht]
          have hallows : (attended.mark ⟨c, h, .call o' k⟩).allows o' := hok.guard ht
          obtain ⟨fresh, hstarted, hlower⟩ := started_exec hallows ch w.state
          rw [call_mark] at hlower
          have hpending : stillToBegin (transport.exec ch w.state o').1 =
              fresh.map Goroutine.level ++ stillToBegin w.state := by
            rw [stillToBegin, hstarted, List.map_append, stillToBegin]
          refine World.load_perform ht (.of_eq hpending) fun n hn => ?_
          obtain ⟨g, hg, rfl⟩ := List.mem_map.mp hn
          exact hlower g hg

theorem faithful_of_goes {a : Act transport} (ha : Goes w a) : Faithful w a := by
  cases a with
  | env e => cases ha
  | spawn c => exact ⟨rfl, rfl⟩
  | step t ch =>
      obtain ⟨⟨c, h, p⟩, o, ht, hnext, hready, hgoes⟩ := ha
      cases p with
      | ret r => cases hnext
      | call o' k =>
          cases hnext
          have hperforms := World.performs?_step ch ht
          constructor
          · simp only [Admissible, admissible, hperforms]
            exact hready
          · simp only [stopsInTime, hperforms]
            split
            · rename_i heq
              cases heq
              simp only [Bool.or_eq_true]
              exact .inl hgoes
            · rfl

end

/-! ### The result -/

/-- The context of a call from outside. -/
def outsideCtx? : Act transport → Option Ctx
  | .spawn (.goroutine _ _) => none
  | .spawn c => c.ctx?
  | .step _ _ | .env _ => none

/-- All calls of the run that take a context have one that is done. -/
def AllDone (l : Link) (acts : List (Act transport)) : Prop :=
  ∀ ctx ∈ acts.filterMap outsideCtx?, (l.ctxErr ctx).isSome = true

instance AllDone.decide (l : Link) (acts : List (Act transport)) : Decidable (AllDone l acts) :=
  inferInstanceAs (Decidable (∀ ctx ∈ acts.filterMap outsideCtx?, _))

theorem outsideCtx?_spawn {c : Call} (hc : ∀ g turns, c ≠ .goroutine g turns) :
    outsideCtx? (.spawn c) = c.ctx? := by
  cases c with
  | goroutine g turns => exact absurd rfl (hc g turns)
  | _ => rfl

/-- What is cancelled stays cancelled. -/
theorem cancelled_moves {w w' : World transport} {a : Act transport} (hm : World.Moves w a w') :
    w.state.link.cancelled ⊆ w'.state.link.cancelled := by
  cases hm with
  | idle => exact List.Subset.refl _
  | enter h => exact (congrArg Link.cancelled (Call.enter_link h)).symm ▸ List.Subset.refl _
  | @perform t ch c h o k ht =>
      cases o with
      | link o =>
          change w.state.link.cancelled ⊆ (o.exec (fun o => ch (.link o)) w.state.link).1.cancelled
          cases o with
          | cancel tok => exact List.subset_append_left _ _
          | lockConnect ctx =>
              simp only [LinkOp.exec]
              split <;> exact List.Subset.refl _
          | publishCancel tok =>
              simp only [LinkOp.exec]
              split <;> exact List.Subset.refl _
          | connect url =>
              simp only [LinkOp.exec]
              split <;> exact List.Subset.refl _
          | storeConn nc =>
              simp only [LinkOp.exec]
              split <;> exact List.Subset.refl _
          | _ => exact List.Subset.refl _
      | pool o => exact (PoolOp.exec_cancelled (fun o => ch (.pool o)) w.state o).symm ▸
          List.Subset.refl _
      | ready o => exact List.Subset.refl _
      | external o => exact List.Subset.refl _
  | env e =>
      cases e with
      | callerDone n err => exact List.subset_append_left _ _
      | connLost nc => exact List.Subset.refl _

theorem not_mutexLost (rawURL : String) (initErr : Option Err) (embedded : Bool)
    (acts : List (Act transport)) :
    ((built (newTransport rawURL initErr embedded)).run acts).state.readiness.mutexLost =
      false := by
  have hstart : ReadyByOnce (built (newTransport rawURL initErr embedded)) := rfl
  refine (World.run_invariant
    (P := fun w => ReadyByOnce w ∧ w.state.readiness.mutexLost = false)
    (fun {w a w'} hm hw => ⟨hw.1.moves hm, ?_⟩) ⟨hstart, rfl⟩ acts).2
  rcases hm.eq_or_eq_act with rfl | rfl
  · exact hw.2
  · rcases readiness_act w a with ⟨-, hsame⟩ | ⟨-, honce, err, hsignal⟩
    · rw [hsame]
      exact hw.2
    · rw [hsignal, Readiness.signal, hw.1, honce]
      exact hw.2

theorem AllDone.act {w : World transport} {acts : List (Act transport)} {a : Act transport}
    (hdone : AllDone w.state.link acts) (ha : Goes w a) :
    AllDone (w.act a).state.link (acts ++ [a]) := by
  have hinside : outsideCtx? a = none := by
    cases a with
    | env e => cases ha
    | step t ch => rfl
    | spawn c =>
        obtain ⟨g, turns, rfl, -⟩ := ha
        rfl
  intro ctx hctx
  rw [List.filterMap_append, List.filterMap_cons, hinside, List.filterMap_nil,
    List.append_nil] at hctx
  obtain ⟨x, hx, hmem⟩ := Link.isSome_ctxErr.mp (hdone ctx hctx)
  exact Link.isSome_ctxErr.mpr ⟨x, cancelled_moves (World.moves_act w a) hx, hmem⟩

section
variable {rawURL : String} {initErr : Option Err} {embedded : Bool} {acts : List (Act transport)}

theorem givenUp_run
    (hacts : World.Always Faithful (built (newTransport rawURL initErr embedded)) acts)
    (hdone : AllDone ((built (newTransport rawURL initErr embedded)).run acts).state.link acts) :
    GivenUp ((built (newTransport rawURL initErr embedded)).run acts) := by
  have hbuilt := Built.new rawURL initErr embedded
  obtain ⟨hmarked, haccounted⟩ := accounted_run hbuilt (hacts.mono fun h => h.1)
  let D : Ctx → Prop := fun ctx =>
    (((built (newTransport rawURL initErr embedded)).run acts).state.link.ctxErr ctx).isSome
  have hregular : World.Always (attended.Regular
      (fun c => (∀ g turns, c ≠ .goroutine g turns) → ∀ ctx, c.ctx? = some ctx → D ctx)
      fun _ _ _ _ => True) (built (newTransport rawURL initErr embedded)) acts := by
    refine World.always_of_forall_mem (fun a ha w => ?_) _
    cases a with
    | spawn c =>
        intro hc ctx hctx
        exact hdone ctx (List.mem_filterMap.mpr ⟨_, ha, (outsideCtx?_spawn hc).trans hctx⟩)
    | step t ch => exact fun _ _ _ => trivial
    | env e => trivial
  obtain ⟨hwaits, hattends⟩ := Watch.run_invariant (K := attended) (I := Attended D)
    (fun hc henter h => h.enter henter hc)
    (fun ht ha _ h => h.gains Link.isSome_ctxErr_of_suffix ht (gains_exec ha))
    (fun h => h.env _) (attended.contract.ok_init _) (attended_built hbuilt) hregular
  refine ⟨hmarked, haccounted, hwaits, hattends, ?_, not_mutexLost _ _ _ _⟩
  exact World.run_invariant_of_always
    (P := fun w => ∀ (t : ℕ) (th : Thread transport), w.threads[t]? = some th →
      StopsWatcher w.state th)
    (fun hm ha hw => stopsWatcher_moves hm ha.2 hw) (by simp [built, World.init]) hacts

/-- Wherever a transport built by `New` has come to when the contexts of all calls
on it are done, its goroutines can run to their end, and then no subscription,
service or watcher is left. -/
theorem shutdown_completes
    (hacts : World.Always Faithful (built (newTransport rawURL initErr embedded)) acts)
    (hdone : AllDone ((built (newTransport rawURL initErr embedded)).run acts).state.link acts) :
    ∃ rest, World.Always Goes ((built (newTransport rawURL initErr embedded)).run acts) rest ∧
      Drained (((built (newTransport rawURL initErr embedded)).run acts).run rest) := by
  have hrun := World.exists_run_of_goes Load.wellFounded_less.cutExpand
    (World.load Call.level stillToBegin) (C := Goes) (F := Drained)
    (P := fun w => ∃ acts, w = (built (newTransport rawURL initErr embedded)).run acts ∧
      World.Always Faithful (built (newTransport rawURL initErr embedded)) acts ∧
      AllDone w.state.link acts) ?_ ⟨acts, rfl, hacts, hdone⟩
  · obtain ⟨rest, hgoes, -, hdrained⟩ := hrun
    exact ⟨rest, hgoes, hdrained⟩
  · rintro w ⟨acts, rfl, hacts, hdone⟩
    have hw := givenUp_run hacts hdone
    refine hw.drained_or_goes.imp_right fun hgoes => ?_
    obtain ⟨a, ha⟩ := hgoes
    refine ⟨a, ha, ⟨acts ++ [a], ?_, ?_, ?_⟩, load_of_goes hw.waits ha⟩
    · rw [World.run_append, World.run_cons, World.run_nil]
    · exact World.always_append.mpr ⟨hacts, faithful_of_goes ha, trivial⟩
    · exact hdone.act ha

end

/-- A run watches a bucket when its caller gives up. It waits for its worker, the
worker for the end of the updates, and the goroutine that is to stop the watcher
has not begun. -/
def watchRun : List (Act transport) :=
  [.spawn (.mount [⟨true, [.kv "config" "theme"]⟩]), .step 0 smooth,
      .spawn (.doRun 0 [.caller 0])] ++ List.replicate 30 (.step 1 smooth) ++
    [.spawn (.goroutine (.watch [.derived 0, .caller 0] (.watchKV "config" "theme")
      ⟨.watcher, 0⟩) 1), .step 2 smooth, .env (.callerDone 0 .canceled)] ++
    List.replicate 3 (.step 1 smooth)

theorem shutdown_completes_watching :
    (∃ rest, World.Always Goes ((built plain).run watchRun) rest ∧
      Drained (((built plain).run watchRun).run rest)) ∧
      ((built plain).run watchRun).state.pool.workers = 1 ∧
      ((built plain).run watchRun).threads.map (·.rest.next?) =
        [none, some (.pool .awaitWorkers), some (.external (.nextUpdate ⟨.watcher, 0⟩))] :=
  ⟨shutdown_completes (by decide +kernel) (by decide +kernel), rfl, rfl⟩

/-! ### The wait group and the gate -/

/-- A run of `Do` between its start and its end. -/
def InRun (th : Thread transport) : Prop := (watched.mark th).pool.running = true

/-- What `sync.WaitGroup` and the gate demand of those who use them. -/
structure Disciplined (w : World transport) : Prop where
  /-- The counter does not fall below zero, which would panic. -/
  done : ∀ (t : ℕ) (th : Thread transport), w.threads[t]? = some th →
    th.rest.next? = some (.pool .workerDone) → 0 < w.state.pool.workers
  /-- While somebody waits for the counter nobody raises it. -/
  add : ∀ (t : ℕ) (th : Thread transport), w.threads[t]? = some th →
    th.rest.next? = some (.pool .awaitWorkers) →
    ∀ a, (w.act a).state.pool.workers ≤ w.state.pool.workers
  /-- Who empties the gate does not have to wait for it to be filled. -/
  unlock : ∀ (t : ℕ) (th : Thread transport), w.threads[t]? = some th →
    th.rest.next? = some (.link .unlockConnect) → w.state.link.connectGate = true
  run : ∀ (t u : ℕ) (th th' : Thread transport), w.threads[t]? = some th →
    w.threads[u]? = some th' → InRun th → InRun th' → t = u

section
variable {w : World transport}

theorem workers_moves {w' : World transport} {a : Act transport} (hm : World.Moves w a w')
    (hclosing : w.state.link.closing = true)
    (hserving : ∀ (t : ℕ) (th : Thread transport) (g : Goroutine), w.threads[t]? = some th →
      th.rest.next? ≠ some (.pool (.goWorker g))) :
    w'.state.pool.workers ≤ w.state.pool.workers := by
  cases hm with
  | idle => exact le_refl _
  | enter h => rcases Call.enter_cases h with ⟨rfl, -⟩ | ⟨g, turns, rfl, -, rfl⟩ <;> exact le_refl _
  | @perform t ch c h o k ht =>
      cases o with
      | pool o =>
          have hdoes : o.Does w.state (exec ch w.state (.pool o)) :=
            PoolOp.does (fun o => ch (.pool o)) w.state o
          change (exec ch w.state (.pool o)).1.pool.workers ≤ _
          generalize exec ch w.state (.pool o) = out at hdoes
          cases hdoes with
          | goWorker g => exact absurd rfl (hserving t _ g ht)
          | startWorker hopen => exact absurd (hopen.symm.trans hclosing) Bool.false_ne_true
          | workerDone => exact Nat.sub_le _ _
          | _ => exact le_refl _
      | _ => exact le_refl _
  | env e => cases e <;> exact le_refl _

/-- In every run of the transport, however it was built, the wait group and the
gate are used as they have to be, and there is one run of `Do` at a time. -/
theorem primitives_disciplined {s : State} (hs : Built s) {acts : List (Act transport)}
    (hadm : World.Always (Admissible fun _ => true) (built s) acts) :
    Disciplined ((built s).run acts) := by
  obtain ⟨hok, hacc⟩ := accounted_run hs hadm
  have hpool : ∀ {t : ℕ} {th : Thread transport} {o : PoolOp},
      ((built s).run acts).threads[t]? = some th → th.rest.next? = some (.pool o) →
      (watched.mark th).pool.allows (watched.mark th).link (watched.mark th).listen o :=
    fun ht hnext => Marks.allows_pool (allows_of_next hok ht hnext)
  refine ⟨fun t th ht hnext => ?_, fun t th ht hnext a => ?_, fun t th ht hnext => ?_,
    fun t u th th' ht hu hrun hrun' => ?_⟩
  · obtain ⟨hworker, -⟩ := hpool ht hnext
    have hcounted := hacc.counted
    have hpos : 0 < (pools (watched.marks ((built s).run acts))).countP (·.worker) :=
      List.countP_pos_iff.mpr
        ⟨_, List.mem_of_getElem? (getElem?_pools (watched.getElem?_marks ht)), hworker⟩
    rw [Counted] at hcounted
    omega
  · obtain ⟨hrunning, hcleaned, -⟩ := hpool ht hnext
    have hfits := hacc.phased.fits t _ (getElem?_pools (watched.getElem?_marks ht))
    refine workers_moves (World.moves_act _ a) (hfits.cleaned hrunning hcleaned) ?_
    intro u th' g hu hgo
    -- only the run that serves starts workers, and this one has cleaned up
    obtain ⟨hserving, -⟩ := hpool hu hgo
    simp only [PoolMarks.serving, Bool.and_eq_true, Bool.not_eq_true'] at hserving
    by_cases hut : u = t
    · subst hut
      obtain rfl := Option.some.inj (ht.symm.trans hu)
      exact absurd (hserving.2.symm.trans hcleaned) Bool.false_ne_true
    · have hidle := hacc.unique (watched.getElem?_marks ht) hrunning hut (watched.getElem?_marks hu)
      exact absurd (hidle.symm.trans hserving.1.1) Bool.false_ne_true
  · have hallows := Marks.allows_link (allows_of_next hok ht hnext)
    exact hacc.owned.gate.held t _ (getElem?_links (watched.getElem?_marks ht)) hallows.1
  · by_contra hne
    have hidle := hacc.unique (watched.getElem?_marks hu) hrun' hne (watched.getElem?_marks ht)
    exact absurd (hidle.symm.trans hrun) Bool.false_ne_true

theorem primitives_disciplined_watching : Disciplined ((built plain).run watchRun) :=
  primitives_disciplined (.new _ _ _) (by decide +kernel)

end

end TransportNats.Lifecycle
