import TransportNats.Lifecycle.Accounting

/-!
The end of a run.

A run whose deferred cleanup goes through leaves nothing behind: the lists are
taken and released, the counter is waited for, and after the transport has been
closed the flag `closing` refuses every handler until the next run clears it.

A run that fails before its cleanup is installed has cleared `closing` and does
not set it again.
-/

namespace TransportNats.Lifecycle

open Interleaving

/-! ### All together -/

/-- The pool marks of all goroutines. -/
def pools (ms : List Marks) : List PoolMarks := ms.map (·.pool)

theorem pools_set (ms : List Marks) (t : ℕ) (m : Marks) :
    pools (ms.set t m) = (pools ms).set t m.pool := List.map_set

theorem pools_enter (ms : List Marks) (m : Marks) : pools (ms ++ [m]) = pools ms ++ [m.pool] :=
  List.map_append

theorem getElem?_pools {ms : List Marks} {t : ℕ} {m : Marks} (ht : ms[t]? = some m) :
    (pools ms)[t]? = some m.pool := getElem?_map_of _ ht

/-- What holds in every run of the transport, whatever calls it consists of. -/
structure Accounted (s : State) (ms : List Marks) : Prop where
  owned : Owned s.link (links ms)
  resourced : Resourced s.pool (pools ms)
  counted : Counted s.pool (pools ms)
  phased : Phased s.pool.running s.pool.workers s.link.closing (pools ms)
  /-- A run takes the connection away only in its cleanup, and then nobody dials
  until it has ended. -/
  shut : ∀ (i : ℕ) (m : Marks), ms[i]? = some m → m.pool.running = true → m.link.took = true →
    m.pool.cleaned = true ∧ Shut s.link (links ms) i

section
variable {s : State} {ms : List Marks} {t : ℕ} {m : Marks} {ch : Choice}

theorem Accounted.unique (h : Accounted s ms) (ht : ms[t]? = some m)
    (hrunning : m.pool.running = true) {i : ℕ} {x : Marks} (hi : i ≠ t) (hx : ms[i]? = some x) :
    x.pool.running = false :=
  h.phased.running.eq_false (getElem?_pools ht) hrunning hi (getElem?_pools hx)

theorem Accounted.link_step (h : Accounted s ms) (ht : ms[t]? = some m) {o : LinkOp}
    (ha : m.allows (.link o)) (hr : ready ch s (.link o) = true) :
    Accounted (exec ch s (.link o)).1
      (ms.set t (m.after ⟨.link o, (exec ch s (.link o)).2⟩)) := by
  have hallows := Marks.allows_link ha
  have hpools : pools (ms.set t (m.after ⟨.link o, (exec ch s (.link o)).2⟩)) = pools ms :=
    map_set_of_eq ht _ rfl
  refine ⟨owned_step ht ha hr h.owned, hpools ▸ h.resourced, hpools ▸ h.counted, ?_, ?_⟩
  · rw [hpools]
    exact h.phased.closing_mono fun hclosing => o.exec_closing hclosing
  · rw [links_set]
    refine forall_set (fun hrunning htook => ?_) fun i x _ hx hrunning htook => ?_
    · by_cases ho : o = .takeConn
      · subst ho
        have hcleaned := hallows.2.2.2.2 hrunning
        exact ⟨hcleaned, Shut.take h.owned (getElem?_links ht) hallows.1 hallows.2.2.1
          ((h.phased.fits t _ (getElem?_pools ht)).cleaned hrunning hcleaned)⟩
      · obtain ⟨hcleaned, hshut⟩ :=
          h.shut t m ht hrunning ((LinkMarks.after_took ho _).symm.trans htook)
        exact ⟨hcleaned, hshut.step (getElem?_links ht) hallows⟩
    · obtain ⟨hcleaned, hshut⟩ := h.shut i x hx hrunning htook
      exact ⟨hcleaned, hshut.step (getElem?_links ht) hallows⟩

theorem PoolOp.exec_closing_of_ne {o : PoolOp} (ho : o ≠ .clearClosing)
    (hclosing : s.link.closing = true) (ch : (o : PoolOp) → o.Ret) :
    (o.exec ch s).1.link.closing = true := by
  by_cases htake : o = .takeResources
  · subst htake
    rfl
  · exact (PoolOp.exec_closing ho htake ch s).trans hclosing

theorem PoolMarks.after_cleaned {p : PoolMarks} (hp : p.cleaned = true) (o : PoolOp) (r : o.Ret) :
    (p.after o r).cleaned = true := by
  cases o with
  | startRunning => cases r <;> exact hp
  | ensureJetStream => cases r <;> exact hp
  | openResource what => cases r <;> exact hp
  | goWorker g => cases g <;> exact hp
  | startWorker => cases r <;> exact hp
  | takeResources => rfl
  | _ => exact hp

/-- Who has taken the connection in its run had taken it before this step. -/
theorem Accounted.shut_of_after (h : Accounted s ms) (ht : ms[t]? = some m) {o : PoolOp}
    (ha : m.pool.allows m.link m.listen o) (r : o.Ret)
    (hrunning : (m.pool.after o r).running = true) (htook : m.link.took = true) :
    o ≠ .clearClosing ∧ m.pool.cleaned = true ∧ Shut s.link (links ms) t := by
  have hstart : o ≠ .startRunning := by
    rintro rfl
    exact absurd (ha.2.2.2.symm.trans htook) Bool.false_ne_true
  have hstop : o ≠ .stopRunning := by
    rintro rfl
    cases hrunning
  rw [PoolMarks.after_running _ hstart hstop] at hrunning
  obtain ⟨hcleaned, hshut⟩ := h.shut t m ht hrunning htook
  refine ⟨?_, hcleaned, hshut⟩
  rintro rfl
  exact absurd (ha.2.symm.trans hcleaned) Bool.false_ne_true

theorem Accounted.pool_step (h : Accounted s ms) (ht : ms[t]? = some m) {o : PoolOp}
    (ha : m.allows (.pool o)) (hr : ready ch s (.pool o) = true) :
    Accounted (exec ch s (.pool o)).1
      (ms.set t (m.after ⟨.pool o, (exec ch s (.pool o)).2⟩)) := by
  have hallows := Marks.allows_pool ha
  have hlinks : links (ms.set t (m.after ⟨.pool o, (exec ch s (.pool o)).2⟩)) = links ms :=
    map_set_of_eq ht _ rfl
  have hpools := pools_set ms t (m.after ⟨.pool o, (exec ch s (.pool o)).2⟩)
  have hdoes : o.Does s (exec ch s (.pool o)) := PoolOp.does (fun o => ch (.pool o)) s o
  refine ⟨owned_step ht ha hr h.owned, ?_, ?_, ?_, ?_⟩
  · rw [hpools]
    exact h.resourced.step (getElem?_pools ht) hdoes hallows
  · rw [hpools]
    exact h.counted.step (getElem?_pools ht) hdoes hallows
  · rw [hpools]
    refine h.phased.step (getElem?_pools ht) hdoes hallows ?_
    rintro rfl
    simpa [ready, Op.canProceed] using (Bool.and_eq_true_iff.mp hr).1
  · rw [hlinks]
    refine forall_set (fun hrunning htook => ?_) fun i x hi hx hrunning htook => ?_
    · obtain ⟨hclear, hcleaned, hshut⟩ := h.shut_of_after ht hallows _ hrunning htook
      exact ⟨PoolMarks.after_cleaned hcleaned o _,
        hshut.keeps (PoolOp.exec_keeps _ s o) (PoolOp.exec_closing_of_ne hclear hshut.closing _)⟩
    · obtain ⟨hcleaned, hshut⟩ := h.shut i x hx hrunning htook
      have hclear : o ≠ .clearClosing := by
        rintro rfl
        exact absurd ((h.unique ht hallows.1 hi hx).symm.trans hrunning) Bool.false_ne_true
      exact ⟨hcleaned, hshut.keeps (PoolOp.exec_keeps _ s o)
        (PoolOp.exec_closing_of_ne hclear hshut.closing _)⟩

theorem accounted_step {o : Op} (ht : ms[t]? = some m) (ha : m.allows o)
    (hr : ready ch s o = true) (h : Accounted s ms) :
    Accounted (exec ch s o).1 (ms.set t (m.after ⟨o, (exec ch s o).2⟩)) := by
  -- neither the readiness signal nor the outside is accounted for
  have hquiet : ∀ m' : Marks, m'.link = m.link → m'.pool = m.pool → Accounted s (ms.set t m') := by
    intro m' hlink hpool
    have hlinks := links_set_of_eq ht m' hlink
    have hpools : pools (ms.set t m') = pools ms := map_set_of_eq ht m' hpool
    refine ⟨hlinks ▸ h.owned, hpools ▸ h.resourced, hpools ▸ h.counted, hpools ▸ h.phased, ?_⟩
    rw [hlinks]
    refine forall_set (fun hrunning htook => ?_) fun i x _ hx => h.shut i x hx
    rw [hpool] at hrunning ⊢
    exact h.shut t m ht hrunning (hlink ▸ htook)
  cases o with
  | link o => exact h.link_step ht ha hr
  | pool o => exact h.pool_step ht ha hr
  | ready o => exact { hquiet (m.after ⟨.ready o, (exec ch s (.ready o)).2⟩) rfl rfl with }
  | external o => exact hquiet m rfl rfl

theorem Call.marks_pool {c : Call} (hc : ∀ g turns, c ≠ .goroutine g turns) :
    ∃ runner, c.marks.pool = { runner := runner } := by
  cases c with
  | goroutine g turns => exact absurd rfl (hc g turns)
  | _ => exact ⟨_, rfl⟩

theorem Call.running_marks (c : Call) : c.marks.pool.running = false := by
  cases c with
  | goroutine g turns => cases g <;> rfl
  | _ => rfl

theorem Goroutine.waited_marks (g : Goroutine) : g.marks.pool.waited = false := by
  cases g <;> rfl

theorem accounted_enter {c : Call} {s' : State} (henter : c.enter s = some s')
    (h : Accounted s ms) : Accounted s' (ms ++ [c.marks]) := by
  have howned : Owned s.link (links (ms ++ [c.marks])) := (links_enter ms c).symm ▸ h.owned.enter
  have hshut : ∀ (i : ℕ) (m : Marks), (ms ++ [c.marks])[i]? = some m → m.pool.running = true →
      m.link.took = true → m.pool.cleaned = true ∧ Shut s.link (links (ms ++ [c.marks])) i := by
    refine forall_enter (fun hr => absurd (c.running_marks.symm.trans hr) Bool.false_ne_true)
      fun i m hm hr htook => ?_
    obtain ⟨hcleaned, hshut⟩ := h.shut i m hm hr htook
    exact ⟨hcleaned, (links_enter ms c).symm ▸ hshut.enter⟩
  rcases Call.enter_cases henter with ⟨rfl, hc⟩ | ⟨g, turns, rfl, hg, rfl⟩
  · obtain ⟨runner, hpool⟩ := Call.marks_pool hc
    refine ⟨howned, ?_, ?_, ?_, hshut⟩ <;> rw [pools_enter, hpool]
    · exact h.resourced.enter rfl
    · exact h.counted.enter rfl
    · exact h.phased.enter rfl rfl
  · refine ⟨howned, ?_, ?_, ?_, hshut⟩ <;> rw [pools_enter]
    · exact h.resourced.begin g
    · exact h.counted.begin hg
    · exact h.phased.enter (Call.running_marks (.goroutine g turns)) g.waited_marks

theorem accounted_env {e : Event} (h : Accounted s ms) : Accounted (e.happen s) ms := by
  have hclosing : (e.happen s).link.closing = s.link.closing := by cases e <;> rfl
  have hpool : (e.happen s).pool = s.pool := by cases e <;> rfl
  refine ⟨h.owned.keeps (Event.happen_keeps s e), hpool ▸ h.resourced, hpool ▸ h.counted, ?_, ?_⟩
  · rw [hpool, hclosing]
    exact h.phased
  · intro i m hm hrunning htook
    obtain ⟨hcleaned, hshut⟩ := h.shut i m hm hrunning htook
    exact ⟨hcleaned, hshut.keeps (Event.happen_keeps s e) (hclosing.trans hshut.closing)⟩

theorem accounted_built (hs : Built s) : Accounted s [] := by
  have howned := (connecting_built hs).ending.owned
  have hempty : ∀ p : Pool, p.subs = [] → p.microServices = [] → p.opened = [] →
      Resourced p (pools []) := fun p hsubs hservices hopened =>
    ⟨by simp [hsubs, hservices], by simp [hopened], by simp [pools]⟩
  have hphased : Phased s.pool.running s.pool.workers s.link.closing (pools []) :=
    ⟨Exclusive.nil, by simp [pools]⟩
  cases hs with
  | new rawURL initErr embedded => exact ⟨howned, hempty _ rfl rfl rfl, rfl, hphased, by simp⟩
  | fromConn nc => exact ⟨howned, hempty _ rfl rfl rfl, rfl, hphased, by simp⟩

theorem accounted_run (hs : Built s) {acts : List (Act transport)}
    (hadm : World.Always (Admissible fun _ => true) (built s) acts) :
    watched.contract.Ok ((built s).run acts) ∧
      Accounted ((built s).run acts).state (watched.marks ((built s).run acts)) :=
  Watch.run_invariant (K := watched) (I := Accounted)
    (fun _ henter h => accounted_enter henter h) (fun ht ha hr h => accounted_step ht ha hr h)
    accounted_env (watched.contract.ok_init s) (accounted_built hs)
    (hadm.mono regular_of_admissible)

/-! ### After a run -/

/-- No run, no worker, and a transport that has been closed. -/
structure Settled (s : State) (ms : List Marks) : Prop where
  accounted : Accounted s ms
  shut : ∀ u, Shut s.link (links ms) u
  stopped : ∀ (i : ℕ) (m : Marks), ms[i]? = some m → m.pool.running = false
  workers : s.pool.workers = 0

/-- A run that ends with its cleanup done leaves the transport settled. -/
theorem settled_of_stopRunning (ht : ms[t]? = some m) (ha : m.allows (.pool .stopRunning))
    (hr : ready ch s (.pool .stopRunning) = true) (hup : m.pool.up = true)
    (h : Accounted s ms) :
    Settled (exec ch s (.pool .stopRunning)).1
      (ms.set t (m.after ⟨.pool .stopRunning, (exec ch s (.pool .stopRunning)).2⟩)) := by
  obtain ⟨hrunning, -, hdone⟩ := Marks.allows_pool ha
  obtain ⟨hcleaned, hwaited, htook, hhand⟩ := hdone hup
  obtain ⟨-, hshut⟩ := h.shut t m ht hrunning htook
  refine ⟨accounted_step ht ha hr h, fun u => ?_, ?_, ?_⟩
  · rw [links_set_of_eq ht (m.after ⟨.pool .stopRunning, _⟩) rfl]
    refine ⟨hshut.closing, hshut.conn, hshut.blind, fun i l hl _ => ?_⟩
    by_cases hi : i = t
    · subst hi
      obtain rfl := Option.some.inj (hl.symm.trans (getElem?_links ht))
      exact hhand
    · exact hshut.hands i l hl hi
  · exact forall_set rfl fun i x hi hx => h.unique ht hrunning hi hx
  · exact (h.phased.fits t _ (getElem?_pools ht)).workers hrunning hwaited

/-- While `closing` is set, only a run starts workers. -/
theorem PoolOp.Does.workers {o : PoolOp} {out : State × o.Ret} (h : o.Does s out)
    (ho : ∀ g, o ≠ .goWorker g) (hclosing : s.link.closing = true)
    (hworkers : s.pool.workers = 0) : out.1.pool.workers = 0 := by
  cases h with
  | goWorker g => exact absurd rfl (ho g)
  | startWorker hopen => exact absurd (hopen.symm.trans hclosing) Bool.false_ne_true
  | workerDone => exact congrArg (· - 1) hworkers
  | _ => exact hworkers

/-- It stays settled until the next run starts. -/
theorem settled_step {o : Op} (ht : ms[t]? = some m) (ha : m.allows o) (hr : ready ch s o = true)
    (ho : o ≠ .pool .startRunning) (h : Settled s ms) :
    Settled (exec ch s o).1 (ms.set t (m.after ⟨o, (exec ch s o).2⟩)) := by
  have hrunning := h.stopped t m ht
  refine ⟨accounted_step ht ha hr h.accounted, fun u => ?_, ?_, ?_⟩
  · cases o with
    | link o =>
        rw [links_set]
        exact (h.shut u).step (getElem?_links ht) (Marks.allows_link ha)
    | pool o =>
        have hforeign := PoolMarks.foreign_of_allows hrunning (Marks.allows_pool ha)
        rw [links_set_of_eq ht (m.after ⟨.pool o, _⟩) rfl]
        exact (h.shut u).keeps (PoolOp.exec_keeps _ s o)
          (PoolOp.exec_closing_of_ne hforeign.clear (h.shut u).closing _)
    | ready o =>
        rw [links_set_of_eq ht (m.after ⟨.ready o, _⟩) rfl]
        exact h.shut u
    | external o =>
        rw [links_set_of_eq ht (m.after ⟨.external o, _⟩) rfl]
        exact h.shut u
  · refine forall_set ?_ fun i x _ hx => h.stopped i x hx
    cases o with
    | pool o =>
        have hforeign := PoolMarks.foreign_of_allows hrunning (Marks.allows_pool ha)
        have hstart : o ≠ .startRunning := fun h => ho (congrArg Op.pool h)
        exact (m.pool.after_running hstart hforeign.stop _).trans hrunning
    | link o => exact hrunning
    | ready o => exact hrunning
    | external o => exact hrunning
  · cases o with
    | pool o =>
        have hforeign := PoolMarks.foreign_of_allows hrunning (Marks.allows_pool ha)
        exact (PoolOp.does _ s o).workers hforeign.worker (h.shut 0).closing h.workers
    | link o => exact h.workers
    | ready o => exact h.workers
    | external o => exact h.workers

theorem settled_enter {c : Call} {s' : State} (henter : c.enter s = some s') (h : Settled s ms) :
    Settled s' (ms ++ [c.marks]) := by
  refine ⟨accounted_enter henter h.accounted, fun u => ?_,
    forall_enter c.running_marks h.stopped, ?_⟩
  · rw [links_enter, Call.enter_link henter]
    exact (h.shut u).enter
  · rcases Call.enter_cases henter with ⟨rfl, -⟩ | ⟨g, turns, -, -, rfl⟩ <;> exact h.workers

theorem settled_env {e : Event} (h : Settled s ms) : Settled (e.happen s) ms := by
  refine ⟨accounted_env h.accounted, fun u => ?_, h.stopped, ?_⟩
  · refine (h.shut u).keeps (Event.happen_keeps s e) ?_
    cases e <;> exact (h.shut u).closing
  · cases e <;> exact h.workers

end

/-! ### The result -/

/-- The goroutine is in a message handler. -/
def InHandler (th : Thread transport) : Prop :=
  th.rest.next? = some (.external .handle) ∨ th.rest.next? = some (.pool .workerDone)

/-- Everything opened is released, no dialed connection is open, no handler is
running, and none would be admitted. -/
structure CleanlyShut (w : World transport) : Prop where
  released : ∀ r ∈ w.state.pool.opened, r ∈ w.state.pool.released
  closed : ∀ n, n < w.state.link.dials → .dialed n ∈ w.state.link.closed
  handlers : ∀ (t : ℕ) (th : Thread transport), w.threads[t]? = some th → ¬ InHandler th
  refuses : ∀ ch, (exec ch w.state (.pool .startWorker)).2 = false

section
variable {w : World transport}

/-- In a settled transport nobody counts in the wait group. -/
theorem Settled.no_worker {s : State} {ms : List Marks} (h : Settled s ms) :
    s.pool.started.countP (·.isWorker) = 0 ∧ (pools ms).countP (·.worker) = 0 := by
  have hcounted := h.accounted.counted
  rw [Counted, h.workers] at hcounted
  omega

theorem Settled.released {s : State} {ms : List Marks} (h : Settled s ms) {r : Resource}
    (hr : r ∈ s.pool.opened) : r ∈ s.pool.released := by
  obtain ⟨hstarted, hworker⟩ := h.no_worker
  have hstopped : ∀ (i : ℕ) (p : PoolMarks), (pools ms)[i]? = some p → p.running = false := by
    intro i p hp
    obtain ⟨m, hm, rfl⟩ := exists_of_getElem?_map hp
    exact h.stopped i m hm
  have hlists : s.pool.subs ++ s.pool.microServices = [] := by
    by_contra hne
    obtain ⟨i, p, hp, hserving⟩ := h.accounted.resourced.listed hne
    simp [PoolMarks.serving, hstopped i p hp] at hserving
  obtain ⟨hsubs, hservices⟩ := List.append_eq_nil_iff.mp hlists
  rcases h.accounted.resourced.held r hr with (hr | hr | hr | ⟨g, hg, hw⟩) | ⟨i, p, hp, hr⟩
  · exact hr
  · rw [hsubs] at hr
    cases hr
  · rw [hservices] at hr
    cases hr
  · have hidle : g.isWorker = false := by simpa using List.countP_eq_zero.mp hstarted g hg
    cases g with
    | watch ctx what watcher => cases hidle
    | _ => cases hw
  · rcases h.accounted.resourced.hands i p hp (List.ne_nil_of_mem hr) with hrun | hwork
    · exact absurd ((hstopped i p hp).symm.trans hrun) Bool.false_ne_true
    · exact absurd ((eq_false_of_countP_eq_zero hworker hp).symm.trans hwork) Bool.false_ne_true

/-- Whoever is in a handler counts in the wait group. -/
theorem worker_of_inHandler (hok : watched.contract.Ok w) {t : ℕ} {th : Thread transport}
    (ht : w.threads[t]? = some th) (hin : InHandler th) : (watched.mark th).pool.worker = true := by
  rcases hin with hnext | hnext
  · have ha := allows_of_next hok ht hnext
    unfold Marks.allows at ha
    split at ha
    · cases ha
    · exact ha
  · exact (Marks.allows_pool (allows_of_next hok ht hnext)).1

theorem cleanlyShut_of_settled (hok : watched.contract.Ok w)
    (h : Settled w.state (watched.marks w)) : CleanlyShut w where
  released _ := h.released
  closed n hn := by
    refine h.accounted.owned.closed_of_shut (h.shut 0) (fun m hm => ?_) hn
    exact (h.shut 1).hands 0 m hm nofun
  handlers t th ht hin := by
    have hidle := eq_false_of_countP_eq_zero h.no_worker.2
      (getElem?_pools (watched.getElem?_marks ht))
    exact absurd (hidle.symm.trans (worker_of_inHandler hok ht hin)) Bool.false_ne_true
  refuses ch := by simp only [exec, PoolOp.exec, (h.shut 0).closing, if_true]

/-- The cleanup of a run is installed once it has its JetStream context. -/
theorem up_of_ensureJetStream {m : Marks} {h : History lifecycleSig}
    (hjs : (⟨.pool .ensureJetStream, none⟩ : Answered lifecycleSig) ∈ h) :
    (watched.value m h).pool.up = true := by
  have hkeep : ∀ (x : Answered lifecycleSig) (m : Marks), m.pool.up = true →
      (m.after x).pool.up = true := by
    rintro ⟨o, r⟩ m hm
    cases o with
    | pool o =>
        cases o with
        | startRunning => cases r <;> exact hm
        | ensureJetStream =>
            cases r
            · rfl
            · exact hm
        | openResource what => cases r <;> exact hm
        | goWorker g => cases g <;> exact hm
        | startWorker => cases r <;> exact hm
        | _ => exact hm
    | _ => exact hm
  induction h with
  | nil => cases hjs
  | cons x h ih =>
      rcases List.mem_cons.mp hjs with rfl | hjs
      · rfl
      · exact hkeep x _ (ih hjs)

end

/-- The action begins a `Do`. -/
def startsRun (w : World transport) (a : Act transport) : Bool :=
  match w.performs? a with
  | some (_, .pool .startRunning) => true
  | _ => false

theorem ne_startRunning {w : World transport} {a : Act transport} (ha : startsRun w a = false)
    {c : Call} {o : Op} (hp : w.performs? a = some (c, o)) : o ≠ .pool .startRunning := by
  rintro rfl
  rw [startsRun, hp] at ha
  cases ha

/-- The transport settles when a run ends after its cleanup. -/
theorem settled_act {w : World transport} {t : ℕ} {ch : Choice} {th : Thread transport}
    (hok : watched.contract.Ok w) (h : Accounted w.state (watched.marks w))
    (hadm : Admissible (fun _ => true) w (.step t ch)) (ht : w.threads[t]? = some th)
    (hreturns : th.rest.next? = some (.pool .stopRunning))
    (hconnected : ⟨.pool .ensureJetStream, none⟩ ∈ th.hist) :
    Settled (w.act (.step t ch)).state (watched.marks (w.act (.step t ch))) := by
  have ha := allows_of_next hok ht hreturns
  obtain ⟨c, hist, rest⟩ := th
  cases rest with
  | ret r => cases hreturns
  | call o k =>
      obtain rfl : o = .pool .stopRunning := Option.some.inj hreturns
      have hr := regular_of_admissible hadm c _ (World.performs?_step ch ht)
      rw [World.act_step ch ht, Watch.marks_perform]
      exact settled_of_stopRunning (watched.getElem?_marks ht) ha hr
        (up_of_ensureJetStream hconnected) h

/-- In every run of the transport, whatever is mounted, fails or is cancelled in
it, a `Do` that has got its connection and its JetStream context returns with
everything released that was opened, and that stays so until the next `Do`. -/
theorem do_shuts_cleanly {s : State} (hs : Built s) {acts₁ acts₂ : List (Act transport)} {t : ℕ}
    {ch : Choice} {th : Thread transport}
    (hadm : World.Always (Admissible fun _ => true) (built s) (acts₁ ++ .step t ch :: acts₂))
    (ht : ((built s).run acts₁).threads[t]? = some th)
    (hreturns : th.rest.next? = some (.pool .stopRunning))
    (hconnected : ⟨.pool .ensureJetStream, none⟩ ∈ th.hist)
    (hnext : World.Always (fun w a => startsRun w a = false)
      (((built s).run acts₁).act (.step t ch)) acts₂) :
    CleanlyShut ((built s).run (acts₁ ++ .step t ch :: acts₂)) := by
  obtain ⟨hadm₁, hstep, hadm₂⟩ := World.always_append.mp hadm
  obtain ⟨hok, h⟩ := accounted_run hs hadm₁
  have hsettled := settled_act hok h hstep ht hreturns hconnected
  have hok' := watched.contract.ok_moves (World.moves_act _ (.step t ch)) hok
  have hregular : World.Always (watched.Regular (fun _ => True)
      fun ch s _ o => ready ch s o = true ∧ o ≠ Op.pool .startRunning)
      (((built s).run acts₁).act (.step t ch)) acts₂ := by
    refine (hadm₂.and hnext).mono fun {w a} ha => ?_
    cases a with
    | spawn c => trivial
    | env e => trivial
    | step u ch' =>
        exact fun c o hp => ⟨regular_of_admissible ha.1 c o hp, ne_startRunning ha.2 hp⟩
  obtain ⟨hend, hquiet⟩ := Watch.run_invariant (K := watched) (I := Settled)
    (fun _ henter h => settled_enter henter h)
    (fun ht ha hr h => settled_step ht ha hr.1 hr.2 h) settled_env hok' hsettled hregular
  rw [World.run_append, World.run_cons]
  exact cleanlyShut_of_settled hend hquiet

/-- A run with one subscription, up to its last operation. A message arrives
just before its context is cancelled, and its callback has not got to run. -/
def topicRun : List (Act transport) :=
  [.spawn (.mount [⟨true, [.topic "orders" ""]⟩]), .step 0 smooth,
      .spawn (.doRun 0 [.caller 0])] ++ List.replicate 28 (.step 1 smooth) ++
    [.spawn (.callback ⟨.subscription, 0⟩), .env (.callerDone 0 .canceled)] ++
    List.replicate 10 (.step 1 smooth)

/-- The subscription is given up, the connection closed, and the late callback
turned away. -/
theorem do_shuts_cleanly_topic :
    CleanlyShut ((built plain).run (topicRun ++ .step 1 smooth :: [.step 2 smooth])) ∧
      ((built plain).run topicRun).state.pool.opened = [⟨.subscription, 0⟩] ∧
      ((built plain).run topicRun).state.link.dials = 1 :=
  ⟨do_shuts_cleanly (.new _ _ _) (by decide +kernel) rfl rfl
    (List.mem_of_getElem? (i := 15) rfl) (by decide +kernel), rfl, rfl⟩

/-- A second `Do` finds its context cancelled. -/
def cancelledDo : List (Act transport) :=
  topicRun ++ .step 1 smooth :: .spawn (.doRun 0 [.caller 0]) :: List.replicate 9 (.step 3 smooth)

set_option maxRecDepth 1024 in
/-- After a `Do` that failed before it had a connection, the callback of an
earlier subscription is admitted. -/
theorem cancelledDo_admits_handler :
    World.Always (Admissible fun _ => true) (built plain) (cancelledDo ++ [.step 2 smooth]) ∧
      (∃ th, ((built plain).run cancelledDo).threads[3]? = some th ∧
        th.rest.result? = some (.replied (.returned (some (.sentinel (.context .canceled)))))) ∧
      (∃ th, ((built plain).run (cancelledDo ++ [.step 2 smooth])).threads[2]? = some th ∧
        InHandler th) ∧
      ((built plain).run (cancelledDo ++ [.step 2 smooth])).state.pool.running = false :=
  ⟨by decide +kernel, ⟨_, rfl, rfl⟩, ⟨_, rfl, .inl rfl⟩, rfl⟩

end TransportNats.Lifecycle
