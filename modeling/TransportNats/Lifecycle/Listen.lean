import TransportNats.Lifecycle.Ready

/-!
What `nats.listen` announces.

An invocation of `nats.listen` mounts its actions, starts a run of `Do` in a
goroutine, and announces readiness when the transport says that it is ready. The
transport says so once in its life and does not say which run it means. As long
as an invocation has the transport to itself from its `Mount` until it has
received the result of its run, and nothing has signalled success before, the
signal it waits for is that of its own run, and that run has read the actions
that the invocation has mounted.

A later invocation on the same transport finds the signal of an earlier run and
announces readiness before its own run has begun.
-/

namespace TransportNats.Lifecycle

open Interleaving

/-! ### What the invocations share -/

def Goroutine.listener? : Goroutine → Option (ℕ × Ctx)
  | .listener id ctx => some (id, ctx)
  | .fetchLoop _ _ _ | .watch _ _ _ | .stopWatcher _ _ => none

/-- What the invocations of `nats.listen` and their runs see of the transport. -/
structure Stage where
  actions : List Action
  listeners : ℕ
  /-- The goroutines of `nats.listen` that have not begun. -/
  pending : List (ℕ × Ctx)
  done : List ℕ

def State.stage (s : State) : Stage where
  actions := s.pool.actions
  listeners := s.pool.listeners
  pending := s.pool.started.filterMap (·.listener?)
  done := s.pool.done.map (·.1)

/-- Nobody listens. -/
structure Quiet (g : Stage) (ms : List ListenMarks) : Prop where
  progress : ∀ (i : ℕ) (m : ListenMarks), ms[i]? = some m → ¬ m.InProgress
  pending : g.pending = []
  live : ms.countP (·.live) = 0

/-- The goroutine `id` is the only one that runs, and serves what is mounted. -/
structure Runs (g : Stage) (ms : List ListenMarks) (id : ℕ) (ctx : Ctx) : Prop where
  id_lt : id < g.listeners
  alone : g.pending.length + ms.countP (·.live) ≤ 1
  pending : ∀ x ∈ g.pending, x = (id, ctx)
  live : ∀ (i : ℕ) (m : ListenMarks), ms[i]? = some m → m.live = true → m.role = .run id ctx
  done : id ∈ g.done → g.pending = [] ∧ ms.countP (·.live) = 0
  read : ∀ (i : ℕ) (m : ListenMarks), ms[i]? = some m → m.role = .run id ctx →
    ∀ actions, m.read = some actions → actions = g.actions

/-- The invocation `t`, with the marks `m`, listens, and nobody else does. -/
structure Busy (g : Stage) (ms : List ListenMarks) (t : ℕ) (m : ListenMarks) : Prop where
  here : ms[t]? = some m
  progress : m.InProgress
  others : ∀ (i : ℕ) (x : ListenMarks), ms[i]? = some x → i ≠ t → ¬ x.InProgress
  actions : m.mounted = some g.actions
  unstarted : m.started = none → g.pending = [] ∧ ms.countP (·.live) = 0
  started : ∀ id ctx, m.started = some (id, ctx) → Runs g ms id ctx

structure Sessions (g : Stage) (ms : List ListenMarks) : Prop where
  indirect : ∀ (i : ℕ) (m : ListenMarks), ms[i]? = some m → m.role ≠ .direct
  done_lt : ∀ id ∈ g.done, id < g.listeners
  run_lt : ∀ (i : ℕ) (m : ListenMarks), ms[i]? = some m →
    ∀ id ctx, m.role = .run id ctx → id < g.listeners
  session : Quiet g ms ∨ ∃ t m, Busy g ms t m

section
variable {g : Stage} {ms : List ListenMarks} {t : ℕ} {m : ListenMarks}

/-- The one that listens is the one in progress. -/
theorem Sessions.busy_of_inProgress (hs : Sessions g ms) (ht : ms[t]? = some m)
    (hm : m.InProgress) : Busy g ms t m := by
  rcases hs.session with hq | ⟨u, n, hb⟩
  · exact absurd hm (hq.progress t m ht)
  · by_cases htu : t = u
    · subst htu
      obtain rfl := Option.some.inj (ht.symm.trans hb.here)
      exact hb
    · exact absurd hm (hb.others t m ht htu)

theorem live_pos (ht : ms[t]? = some m) (hm : m.live = true) : 0 < ms.countP (·.live) :=
  List.countP_pos_iff.mpr ⟨m, List.mem_of_getElem? ht, hm⟩

/-- A live run belongs to the one that listens. -/
theorem Sessions.runs_of_live (hs : Sessions g ms) (ht : ms[t]? = some m) (hm : m.live = true) :
    ∃ u n id ctx, Busy g ms u n ∧ n.started = some (id, ctx) ∧ Runs g ms id ctx ∧
      m.role = .run id ctx := by
  have hpos := live_pos ht hm
  rcases hs.session with hq | ⟨u, n, hb⟩
  · have hzero := hq.live
    omega
  · cases hstarted : n.started with
    | none =>
        have hzero := (hb.unstarted hstarted).2
        omega
    | some x =>
        obtain ⟨id, ctx⟩ := x
        have hr := hb.started id ctx hstarted
        exact ⟨u, n, id, ctx, hb, hstarted, hr, hr.live t m ht hm⟩

/-! ### One operation -/

/-- Marks that agree in whether they are live leave the count as it is. -/
theorem countP_live_set (ht : ms[t]? = some m) (m' : ListenMarks) (hm : m'.live = m.live) :
    (ms.set t m').countP (·.live) = ms.countP (·.live) := by
  have hset := countP_set_add (·.live) ht m'
  rw [hm] at hset
  omega

/-- The facts about the numbers of goroutines are kept by a step that changes no
role. -/
theorem Sessions.of_session (hs : Sessions g ms) (ht : ms[t]? = some m) {g' : Stage}
    {m' : ListenMarks} (hrole : m'.role = m.role) (hlisteners : g.listeners ≤ g'.listeners)
    (hdone : ∀ id ∈ g'.done, id < g'.listeners)
    (hsession : Quiet g' (ms.set t m') ∨ ∃ u n, Busy g' (ms.set t m') u n) :
    Sessions g' (ms.set t m') where
  indirect := forall_set (hrole ▸ hs.indirect t m ht) fun i x _ hx => hs.indirect i x hx
  done_lt := hdone
  run_lt := forall_set
    (fun id ctx h => (hs.run_lt t m ht id ctx (hrole.symm.trans h)).trans_le hlisteners)
    fun i x _ hx id ctx h => (hs.run_lt i x hx id ctx h).trans_le hlisteners
  session := hsession

/-- An invocation that has the transport to itself mounts its actions. -/
theorem Sessions.mount (hs : Sessions g ms) (ht : ms[t]? = some m)
    (hm : m = { role := .invocation })
    (halone : ∀ (i : ℕ) (x : ListenMarks), ms[i]? = some x → ¬ x.InProgress)
    (actions : List Action) :
    Sessions { g with actions := actions } (ms.set t { m with mounted := some actions }) := by
  have hquiet : Quiet g ms := by
    rcases hs.session with hq | ⟨u, n, hb⟩
    · exact hq
    · exact absurd hb.progress (halone u n hb.here)
  have hcount := countP_live_set ht { m with mounted := some actions } rfl
  refine hs.of_session ht rfl le_rfl hs.done_lt (.inr ⟨t, { m with mounted := some actions }, ?_⟩)
  exact {
    here := getElem?_set_self_of ht _
    progress := ⟨hm ▸ rfl, nofun, hm ▸ rfl⟩
    others := forall_set (fun h => absurd rfl h) fun i x _ hx _ => halone i x hx
    actions := rfl
    unstarted := fun _ => ⟨hquiet.pending, hcount.trans hquiet.live⟩
    started := fun id ctx h => by
      subst hm
      cases h }

/-- The invocation that listens starts its goroutine. -/
theorem Sessions.goListener (hs : Sessions g ms) (ht : ms[t]? = some m) (hm : m.InProgress)
    (hstarted : m.started = none) (ctx : Ctx) :
    Sessions
      { g with listeners := g.listeners + 1, pending := (g.listeners, ctx) :: g.pending }
      (ms.set t { m with started := some (g.listeners, ctx) }) := by
  have hb := hs.busy_of_inProgress ht hm
  obtain ⟨hpending, hlive⟩ := hb.unstarted hstarted
  have hcount : (ms.set t { m with started := some (g.listeners, ctx) }).countP (·.live) = 0 :=
    (countP_live_set ht { m with started := some (g.listeners, ctx) } rfl).trans hlive
  refine hs.of_session ht rfl (Nat.le_succ _)
    (fun id hid => Nat.lt_succ_of_lt (hs.done_lt id hid))
    (.inr ⟨t, { m with started := some (g.listeners, ctx) }, ?_⟩)
  exact {
    here := getElem?_set_self_of ht _
    progress := { hm with }
    others := forall_set (fun h => absurd rfl h) fun i x _ hx hi => hb.others i x hx hi
    actions := hb.actions
    unstarted := nofun
    started := fun id ctx' h => by
      obtain ⟨rfl, rfl⟩ : g.listeners = id ∧ ctx = ctx' := by simpa using h
      exact {
        id_lt := Nat.lt_succ_self _
        alone := by simp [hpending, hcount]
        pending := by simp [hpending]
        live := fun i x hx hlive => absurd
          ((eq_false_of_countP_eq_zero hcount hx).symm.trans hlive) Bool.false_ne_true
        done := fun hid => absurd (hs.done_lt _ hid) (lt_irrefl _)
        -- no run has the new number yet
        read := forall_set (fun hrole => absurd (hs.run_lt t m ht _ _ hrole) (lt_irrefl _))
          fun i x _ hx hrole => absurd (hs.run_lt i x hx _ _ hrole) (lt_irrefl _) } }

/-- The invocation receives the result of its goroutine, which has ended. -/
theorem Sessions.receiveDone (hs : Sessions g ms) (ht : ms[t]? = some m) (hm : m.InProgress)
    {id : ℕ} {ctx : Ctx} (hstarted : m.started = some (id, ctx)) (hid : id ∈ g.done) :
    Sessions g (ms.set t { m with received := true }) := by
  have hb := hs.busy_of_inProgress ht hm
  obtain ⟨hpending, hlive⟩ := (hb.started id ctx hstarted).done hid
  have hcount := countP_live_set ht { m with received := true } rfl
  refine hs.of_session ht rfl le_rfl hs.done_lt (.inl ⟨?_, hpending, hcount.trans hlive⟩)
  exact forall_set (fun h => Bool.noConfusion h.received) fun i x hi hx => hb.others i x hx hi

/-- A step of a run, by which the run may read its actions or end. -/
theorem Sessions.run_step (hs : Sessions g ms) (ht : ms[t]? = some m) (hlive : m.live = true)
    {g' : Stage} {m' : ListenMarks} (hrole : m'.role = m.role) (hactions : g'.actions = g.actions)
    (hlisteners : g'.listeners = g.listeners) (hpending : g'.pending = g.pending)
    (hdone : ∀ id ∈ g'.done, id ∈ g.done ∨ m'.live = false ∧ ∃ ctx, m.role = .run id ctx)
    (hread : ∀ actions, m'.read = some actions → m.read = some actions ∨ actions = g.actions) :
    Sessions g' (ms.set t m') := by
  obtain ⟨u, n, id, ctx, hb, hstarted, hr, hmine⟩ := hs.runs_of_live ht hlive
  have htu : u ≠ t := by
    rintro rfl
    obtain rfl := Option.some.inj (ht.symm.trans hb.here)
    exact ListenMarks.not_inProgress hlive rfl hb.progress
  have hset := countP_set_add (·.live) ht m'
  have hle : (ms.set t m').countP (·.live) ≤ ms.countP (·.live) := by
    have := Bool.toNat_le m'.live
    simp only [hlive, Bool.toNat_true] at hset
    omega
  have halone := hr.alone
  refine hs.of_session ht hrole hlisteners.ge (fun id hid => ?_) (.inr ⟨u, n, ?_⟩)
  · rw [hlisteners]
    rcases hdone id hid with hid | ⟨-, ctx', hid⟩
    · exact hs.done_lt id hid
    · exact hs.run_lt t m ht id ctx' hid
  · exact {
      here := by rw [List.getElem?_set_ne (Ne.symm htu), hb.here]
      progress := hb.progress
      others := forall_set (fun _ => ListenMarks.not_inProgress hlive hrole)
        fun i x _ hx hi => hb.others i x hx hi
      actions := hactions ▸ hb.actions
      unstarted := fun h => absurd (hstarted.symm.trans h) nofun
      started := fun id' ctx' h => by
        obtain ⟨rfl, rfl⟩ : id = id' ∧ ctx = ctx' := by
          simpa using hstarted.symm.trans h
        exact {
          id_lt := hlisteners ▸ hr.id_lt
          alone := by
            rw [hpending]
            omega
          pending := hpending ▸ hr.pending
          live := forall_set (fun _ => hrole.trans hmine) fun i x _ hx => hr.live i x hx
          done := fun hid => by
            rw [hpending]
            have hpos := live_pos ht hlive
            rcases hdone id hid with hid | ⟨hend, -⟩
            · have := (hr.done hid).2
              omega
            · -- the run that ends was the only one
              simp only [hlive, hend, Bool.toNat_true, Bool.toNat_false] at hset
              exact ⟨List.length_eq_zero_iff.mp (by omega), by omega⟩
          read := forall_set
            (fun _ actions h => by
              rw [hactions]
              rcases hread actions h with h | h
              · exact hr.read t m ht hmine actions h
              · exact h)
            fun i x _ hx hx' actions h => hactions.symm ▸ hr.read i x hx hx' actions h } }

section
variable {awaited told signalled : Bool}

theorem Runs.keep {id : ℕ} {ctx : Ctx} (hr : Runs g ms id ctx) (ht : ms[t]? = some m) :
    Runs g
      (ms.set t { m with awaited := awaited, told := told, signalled := signalled }) id ctx := by
  have hcount := countP_live_set ht
    { m with awaited := awaited, told := told, signalled := signalled } rfl
  exact {
    id_lt := hr.id_lt
    alone := hcount ▸ hr.alone
    pending := hr.pending
    live := forall_set (hr.live t m ht) fun i x _ hx => hr.live i x hx
    done := hcount ▸ hr.done
    read := forall_set (hr.read t m ht) fun i x _ hx => hr.read i x hx }

/-- Waiting for the signal and giving it do not change who listens. -/
theorem Sessions.keep (hs : Sessions g ms) (ht : ms[t]? = some m) :
    Sessions g (ms.set t { m with awaited := awaited, told := told, signalled := signalled }) := by
  have hcount := countP_live_set ht
    { m with awaited := awaited, told := told, signalled := signalled } rfl
  refine hs.of_session ht rfl le_rfl hs.done_lt ?_
  rcases hs.session with hq | ⟨u, n, hb⟩
  · exact .inl ⟨forall_set (fun h => hq.progress t m ht { h with }) fun i x _ hx =>
      hq.progress i x hx, hq.pending, hcount.trans hq.live⟩
  · have hothers : ∀ (i : ℕ) (x : ListenMarks),
        (ms.set t { m with awaited := awaited, told := told, signalled := signalled })[i]? =
          some x → i ≠ u → ¬ x.InProgress :=
      forall_set (fun hu h => hb.others t m ht hu { h with }) fun i x _ hx => hb.others i x hx
    by_cases htu : t = u
    · subst htu
      obtain rfl := Option.some.inj (ht.symm.trans hb.here)
      exact .inr ⟨t, _, {
        here := getElem?_set_self_of ht _
        progress := { hb.progress with }
        others := hothers
        actions := hb.actions
        unstarted := hcount ▸ hb.unstarted
        started := fun id ctx h => (hb.started id ctx h).keep ht }⟩
    · exact .inr ⟨u, n, {
        here := by rw [List.getElem?_set_ne htu, hb.here]
        progress := hb.progress
        others := hothers
        actions := hb.actions
        unstarted := hcount ▸ hb.unstarted
        started := fun id ctx h => (hb.started id ctx h).keep ht }⟩

end

/-! ### One call -/

/-- Somebody enters who has nothing to do with a run yet. -/
theorem Sessions.enter {q : ListenMarks} (hs : Sessions g ms) (hdirect : q.role ≠ .direct)
    (hrun : ∀ id ctx, q.role ≠ .run id ctx) (hprogress : ¬ q.InProgress) :
    Sessions g (ms ++ [q]) := by
  have hlive : q.live = false := by
    cases hrole : q.role with
    | run id ctx => exact absurd hrole (hrun id ctx)
    | direct => exact absurd hrole hdirect
    | _ => simp [ListenMarks.live, hrole, Role.runs]
  have hcount : (ms ++ [q]).countP (·.live) = ms.countP (·.live) := by simp [hlive]
  refine ⟨forall_enter hdirect hs.indirect, hs.done_lt,
    forall_enter (fun id ctx h => absurd h (hrun id ctx)) hs.run_lt, ?_⟩
  rcases hs.session with hq | ⟨u, n, hb⟩
  · exact .inl ⟨forall_enter hprogress hq.progress, hq.pending, hcount.trans hq.live⟩
  · exact .inr ⟨u, n, {
      here := by rw [List.getElem?_append_left (lt_length_of_getElem? hb.here), hb.here]
      progress := hb.progress
      others := forall_enter (fun _ => hprogress) hb.others
      actions := hb.actions
      unstarted := hcount ▸ hb.unstarted
      started := fun id ctx h => by
        have hr := hb.started id ctx h
        exact {
          id_lt := hr.id_lt
          alone := hcount ▸ hr.alone
          pending := hr.pending
          live := forall_enter (fun h => absurd (hlive.symm.trans h) Bool.false_ne_true) hr.live
          done := hcount ▸ hr.done
          read := forall_enter (fun h => absurd h (hrun id ctx)) hr.read } }⟩

/-- The goroutine that an invocation has started begins. -/
theorem Sessions.begin {id : ℕ} {ctx : Ctx} {pending : List (ℕ × Ctx)} (hs : Sessions g ms)
    (hperm : g.pending.Perm ((id, ctx) :: pending)) :
    Sessions { g with pending := pending } (ms ++ [{ role := .run id ctx }]) := by
  have hmem : (id, ctx) ∈ g.pending := hperm.mem_iff.mpr List.mem_cons_self
  have hlength := hperm.length_eq
  rw [List.length_cons] at hlength
  have hne : g.pending ≠ [] := List.ne_nil_of_mem hmem
  rcases hs.session with hq | ⟨u, n, hb⟩
  · exact absurd hq.pending hne
  · cases hstarted : n.started with
    | none => exact absurd (hb.unstarted hstarted).1 hne
    | some x =>
        obtain ⟨id', ctx'⟩ := x
        have hr := hb.started id' ctx' hstarted
        obtain ⟨rfl, rfl⟩ : id = id' ∧ ctx = ctx' := by simpa using hr.pending _ hmem
        have halone := hr.alone
        obtain rfl : pending = [] := List.length_eq_zero_iff.mp (by omega)
        have hcount : (ms ++ [({ role := .run id ctx } : ListenMarks)]).countP (·.live) = 1 := by
          have hzero : ms.countP (·.live) = 0 := by omega
          rw [List.countP_append, hzero]
          rfl
        refine ⟨forall_enter nofun hs.indirect, hs.done_lt, forall_enter ?_ hs.run_lt,
          .inr ⟨u, n, ?_⟩⟩
        · rintro _ _ ⟨⟩
          exact hr.id_lt
        · exact {
            here := by rw [List.getElem?_append_left (lt_length_of_getElem? hb.here), hb.here]
            progress := hb.progress
            others := forall_enter (fun _ h => absurd h.role nofun) hb.others
            actions := hb.actions
            unstarted := fun h => absurd (hstarted.symm.trans h) nofun
            started := fun id' ctx' h => by
              obtain ⟨rfl, rfl⟩ : id = id' ∧ ctx = ctx' := by
                simpa using hstarted.symm.trans h
              exact {
                id_lt := hr.id_lt
                alone := (congrArg (0 + ·) hcount).le
                pending := by simp
                live := forall_enter (fun _ => rfl) hr.live
                done := fun hid => absurd (hr.done hid).1 hne
                read := forall_enter (fun _ _ h => nomatch h) hr.read } }

end

/-! ### The signal -/

/-- The run that the invocation `n` has started has read what `n` has mounted,
and has signalled. -/
def SignalledFor (ms : List ListenMarks) (n : ListenMarks) : Prop :=
  ∃ id ctx, n.started = some (id, ctx) ∧ ∃ (j : ℕ) (x : ListenMarks), ms[j]? = some x ∧
    x.role = .run id ctx ∧ x.signalled = true ∧ x.read = n.mounted

/-- What the readiness signal says to an invocation that listens. -/
structure Signalled (r : Readiness) (ms : List ListenMarks) : Prop where
  once : ∀ (i : ℕ) (n : ListenMarks), ms[i]? = some n → n.signalled = true → r.readyOnce = true
  awaited : ∀ (i : ℕ) (n : ListenMarks), ms[i]? = some n → n.awaited = true → r.ready = true
  told : ∀ (i : ℕ) (n : ListenMarks), ms[i]? = some n → n.InProgress → n.told = true →
    r.ready = true ∧ r.readyErr = none
  signal : ∀ (i : ℕ) (n : ListenMarks), ms[i]? = some n → n.InProgress →
    r.ready = true → r.readyErr = none → SignalledFor ms n

section
variable {r : Readiness} {g : Stage} {ms : List ListenMarks} {t : ℕ} {m : ListenMarks}

/-- A step keeps what a run has done for an invocation. -/
theorem SignalledFor.set {n : ListenMarks} (h : SignalledFor ms n) (hn : n.mounted ≠ none)
    (ht : ms[t]? = some m) {m' : ListenMarks} (hrole : m'.role = m.role)
    (hsignalled : m.signalled = true → m'.signalled = true)
    (hread : m.read ≠ none → m'.read = m.read) : SignalledFor (ms.set t m') n := by
  obtain ⟨id, ctx, hstarted, hrun⟩ := h
  refine ⟨id, ctx, hstarted, exists_set ht m' ?_ hrun⟩
  rintro ⟨hm, hs, hmounted⟩
  exact ⟨hrole.trans hm, hsignalled hs, (hread (hmounted ▸ hn)).trans hmounted⟩

/-- A step that gives no signal. -/
theorem Signalled.keep (hs : Signalled r ms) (ht : ms[t]? = some m) {m' : ListenMarks}
    (hrole : m'.role = m.role) (hsignalled : m.signalled = true → m'.signalled = true)
    (hread : m.read ≠ none → m'.read = m.read)
    (honce : m'.signalled = true → m.signalled = true ∨ r.readyOnce = true)
    (hawaited : m'.awaited = true → m.awaited = true ∨ r.ready = true)
    (htold : m'.InProgress → m'.told = true →
      m.InProgress ∧ m.told = true ∨ r.ready = true ∧ r.readyErr = none)
    (hsignal : m'.InProgress → r.ready = true → r.readyErr = none →
      m.InProgress ∧ m'.started = m.started ∧ m'.mounted = m.mounted) :
    Signalled r (ms.set t m') where
  once := forall_set (fun h => (honce h).elim (hs.once t m ht) id) fun i x _ hx => hs.once i x hx
  awaited := forall_set (fun h => (hawaited h).elim (hs.awaited t m ht) id)
    fun i x _ hx => hs.awaited i x hx
  told := forall_set (fun hp h => (htold hp h).elim (fun h => hs.told t m ht h.1 h.2) id)
    fun i x _ hx => hs.told i x hx
  signal := by
    refine forall_set (fun hp hready herr => ?_) fun i x _ hx hp hready herr =>
      (hs.signal i x hx hp hready herr).set hp.mounted ht hrole hsignalled hread
    obtain ⟨hm, hstarted, hmounted⟩ := hsignal hp hready herr
    obtain ⟨id, ctx, hid, hrun⟩ :=
      (hs.signal t m ht hm hready herr).set hm.mounted ht hrole hsignalled hread
    exact ⟨id, ctx, hstarted.trans hid, hmounted ▸ hrun⟩

/-- The first signal. If it is one of success, it is given by the run of the
invocation that listens. -/
theorem Signalled.first (hs : Signalled r ms) (hg : Sessions g ms) (ht : ms[t]? = some m)
    (honce : r.readyOnce = false) (hlive : m.live = true) {err : Option Err} {m' : ListenMarks}
    (hrole : m'.role = m.role) (hread : m'.read = m.read)
    (herr : err = none → m'.signalled = true ∧ m.read ≠ none) :
    Signalled (r.signal err) (ms.set t m') := by
  have hnot : ¬ m'.InProgress := ListenMarks.not_inProgress hlive hrole
  refine ⟨fun _ _ _ _ => r.signal_readyOnce err, fun _ _ _ _ => r.signal_ready err,
    forall_set (fun h => absurd h hnot) fun i x _ hx hp htold => ?_,
    forall_set (fun h => absurd h hnot) fun i x _ hx hp _ hsignal => ?_⟩
  · -- nobody has been told before the first signal
    obtain ⟨hready, hnone⟩ := hs.told i x hx hp htold
    obtain ⟨-, -, -, j, n, hn, -, hsignalled, -⟩ := hs.signal i x hx hp hready hnone
    exact absurd (honce.symm.trans (hs.once j n hn hsignalled)) Bool.false_ne_true
  · obtain rfl : err = none := by
      rw [← hsignal, Readiness.signal]
      split <;> rfl
    obtain ⟨hsignalled, hsome⟩ := herr rfl
    obtain ⟨u, n, id, ctx, hb, hstarted, hr, hmine⟩ := hg.runs_of_live ht hlive
    obtain rfl : i = u := by
      by_contra hne
      exact hb.others i x hx hne hp
    obtain rfl := Option.some.inj (hx.symm.trans hb.here)
    obtain ⟨actions, hactions⟩ := Option.ne_none_iff_exists'.mp hsome
    refine ⟨id, ctx, hstarted, t, m', getElem?_set_self_of ht m', hrole.trans hmine, hsignalled, ?_⟩
    rw [hread, hactions, hr.read t m ht hmine actions hactions, hb.actions]

theorem Signalled.enter {q : ListenMarks} (hs : Signalled r ms) (hsignalled : q.signalled = false)
    (hawaited : q.awaited = false) (hprogress : ¬ q.InProgress) : Signalled r (ms ++ [q]) where
  once := forall_enter (fun h => absurd (hsignalled.symm.trans h) Bool.false_ne_true) hs.once
  awaited := forall_enter (fun h => absurd (hawaited.symm.trans h) Bool.false_ne_true) hs.awaited
  told := forall_enter (fun h => absurd h hprogress) hs.told
  signal := forall_enter (fun h => absurd h hprogress) fun i x hx hp hready herr => by
    obtain ⟨id, ctx, hstarted, hrun⟩ := hs.signal i x hx hp hready herr
    exact ⟨id, ctx, hstarted, exists_enter hrun⟩

end

/-! ### The system -/

def listens (ms : List Marks) : List ListenMarks := ms.map (·.listen)

structure Listening (s : State) (ms : List Marks) : Prop where
  sessions : Sessions s.stage (listens ms)
  signalled : Signalled s.readiness (listens ms)

/-- The operations by which an invocation and its run speak to each other. -/
def PoolOp.speaks : PoolOp → Bool
  | .mount _ | .goListener _ | .receiveDone _ | .readActions | .sendDone _ _ => true
  | _ => false

theorem ListenMarks.afterPool_of_silent {o : PoolOp} (ho : o.speaks = false) (q : ListenMarks)
    (r : o.Ret) : q.afterPool o r = q := by
  cases o with
  | mount _ | goListener _ | receiveDone _ | readActions | sendDone _ _ => cases ho
  | _ => rfl

theorem PoolOp.Does.stage {s : State} {o : PoolOp} {out : State × o.Ret} (h : o.Does s out)
    (ho : o.speaks = false) (hworker : ∀ g, o = .goWorker g → g.isWorker = true) :
    out.1.stage = s.stage := by
  cases h with
  | mount _ | goListener _ | receiveDone _ _ | readActions | sendDone _ _ => cases ho
  | goWorker g =>
      cases g with
      | listener id ctx => exact absurd (hworker _ rfl) Bool.false_ne_true
      | _ => rfl
  | _ => rfl

section
variable {ch : Choice} {s : State} {ms : List Marks} {t : ℕ} {m : Marks}

theorem listens_set (m' : Marks) : listens (ms.set t m') = (listens ms).set t m'.listen := by
  rw [listens, List.map_set]
  rfl

theorem getElem?_listens (ht : ms[t]? = some m) : (listens ms)[t]? = some m.listen :=
  getElem?_map_of _ ht

/-- A step after which the marks of the thread say `q` about listening. -/
theorem Listening.of_set {m' : Marks} {q : ListenMarks} (hq : m'.listen = q)
    (hg : Sessions s.stage ((listens ms).set t q))
    (hs : Signalled s.readiness ((listens ms).set t q)) : Listening s (ms.set t m') := by
  subst hq
  exact ⟨by rwa [listens_set], by rwa [listens_set]⟩

/-- A step that says nothing about listening. -/
theorem Listening.of_set_same {m' : Marks} (ht : ms[t]? = some m) (hsame : m'.listen = m.listen)
    (h : Listening s ms) : Listening s (ms.set t m') := by
  have hlistens : listens (ms.set t m') = listens ms := map_set_of_eq ht _ hsame
  exact ⟨hlistens ▸ h.sessions, hlistens ▸ h.signalled⟩

/-- When an invocation mounts its actions, nobody listens and no run has
signalled success. -/
def MountsAlone (s : State) (ms : List Marks) (o : Op) : Prop :=
  ∀ actions, o = .pool (.mount actions) →
    (∀ (i : ℕ) (n : ListenMarks), (listens ms)[i]? = some n → ¬ n.InProgress) ∧
      (s.readiness.ready = true → s.readiness.readyErr ≠ none)

theorem listening_step_silent {o : PoolOp} (hspeaks : o.speaks = false) (ht : ms[t]? = some m)
    (ha : m.allows (.pool o)) (h : Listening s ms) :
    Listening (exec ch s (.pool o)).1
      (ms.set t (m.after ⟨.pool o, (exec ch s (.pool o)).2⟩)) := by
  have hstage : (exec ch s (.pool o)).1.stage = s.stage := by
    refine (PoolOp.does _ s o).stage hspeaks ?_
    rintro g rfl
    exact (Marks.allows_pool ha).2
  refine Listening.of_set_same ht (ListenMarks.afterPool_of_silent hspeaks m.listen _) ⟨?_, ?_⟩
  · rw [hstage]
    exact h.sessions
  · rw [exec, PoolOp.exec_readiness]
    exact h.signalled

theorem listening_step_speaks {o : PoolOp} (hspeaks : o.speaks = true) (ht : ms[t]? = some m)
    (ha : m.allows (.pool o)) (hr : ready ch s (.pool o) = true)
    (hmount : MountsAlone s ms (.pool o)) (h : Listening s ms) :
    Listening (exec ch s (.pool o)).1
      (ms.set t (m.after ⟨.pool o, (exec ch s (.pool o)).2⟩)) := by
  have hm := getElem?_listens ht
  have hallow := Marks.allows_pool ha
  obtain ⟨hg, hs⟩ := h
  cases o with
  | mount actions =>
      obtain ⟨halone, hready⟩ := hmount actions rfl
      have hinit : m.listen = { role := .invocation } :=
        hallow.resolve_right (hg.indirect t _ hm)
      refine Listening.of_set rfl (hg.mount hm hinit halone actions) ?_
      refine hs.keep hm rfl id (fun _ => rfl) .inl .inl ?_ ?_
      · intro _ htold
        change m.listen.told = true at htold
        rw [hinit] at htold
        cases htold
      · exact fun _ h herr => absurd herr (hready h)
  | goListener ctx =>
      obtain ⟨hprogress, hstarted⟩ := hallow
      refine Listening.of_set rfl (hg.goListener hm hprogress hstarted ctx) ?_
      refine hs.keep hm rfl id (fun _ => rfl) .inl .inl
        (fun _ htold => .inl ⟨hprogress, htold⟩) ?_
      -- there is no signal for an invocation that has started nothing
      intro _ hready herr
      obtain ⟨id, ctx', hid, -⟩ := hs.signal t _ hm hprogress hready herr
      cases hstarted.symm.trans hid
  | receiveDone id =>
      obtain ⟨hprogress, ctx, hstarted⟩ := hallow
      have hid : id ∈ s.stage.done := by
        simpa [ready, Op.canProceed, Op.locksMutex, State.stage] using hr
      refine Listening.of_set rfl (hg.receiveDone hm hprogress hstarted hid) ?_
      exact hs.keep hm rfl (fun h => h) (fun _ => rfl) .inl .inl
        (fun h => Bool.noConfusion h.received) fun h => Bool.noConfusion h.received
  | readActions =>
      obtain ⟨-, hlive, hread⟩ := hallow
      refine Listening.of_set rfl ?_ ?_
      · refine hg.run_step hm hlive rfl rfl rfl rfl (fun _ => .inl) fun actions h => .inr ?_
        exact (Option.some.inj h).symm
      · exact hs.keep hm rfl id (fun h => absurd hread h) .inl .inl
          (fun h => absurd h (ListenMarks.not_inProgress hlive rfl))
          fun h => absurd h (ListenMarks.not_inProgress hlive rfl)
  | sendDone id err =>
      obtain ⟨hlive, ctx, hrole⟩ := hallow
      refine Listening.of_set rfl ?_ ?_
      · refine hg.run_step hm hlive rfl rfl rfl rfl (fun id' hid => ?_) fun _ => .inl
        rcases List.mem_cons.mp hid with rfl | hid
        · exact .inr ⟨by simp [Marks.after, ListenMarks.afterPool, ListenMarks.live], ctx, hrole⟩
        · exact .inl hid
      · exact hs.keep hm rfl (fun h => h) (fun _ => rfl) .inl .inl
          (fun h => absurd h (ListenMarks.not_inProgress hlive rfl))
          fun h => absurd h (ListenMarks.not_inProgress hlive rfl)
  | _ => cases hspeaks

/-- Waiting for the signal. -/
theorem listening_awaitReady {ctx : Ctx} (ht : ms[t]? = some m)
    (hr : ready ch s (.ready (.awaitReady ctx)) = true) (h : Listening s ms) :
    Listening (exec ch s (.ready (.awaitReady ctx))).1
      (ms.set t (m.after
        ⟨.ready (.awaitReady ctx), (exec ch s (.ready (.awaitReady ctx))).2⟩)) := by
  have hm := getElem?_listens ht
  cases hch : ch (.ready (.awaitReady ctx)) with
  | some err =>
      refine Listening.of_set_same ht ?_ h
      simp only [exec, ReadyOp.exec, hch, Marks.after, ListenMarks.afterReady]
  | none =>
      have hready : s.readiness.ready = true := by
        simpa [ready, Op.canProceed, Op.locksMutex, hch] using hr
      have hafter : (m.after ⟨.ready (.awaitReady ctx),
          (exec ch s (.ready (.awaitReady ctx))).2⟩).listen =
            { m.listen with awaited := true } := by
        simp only [exec, ReadyOp.exec, hch, Marks.after, ListenMarks.afterReady]
      refine Listening.of_set hafter (h.sessions.keep hm) ?_
      exact h.signalled.keep hm rfl (fun h => h) (fun _ => rfl) .inl (fun _ => .inr hready)
        (fun hp htold => .inl ⟨{ hp with }, htold⟩) fun hp _ _ => ⟨{ hp with }, rfl, rfl⟩

/-- Reading the error of the signal. -/
theorem listening_readReadyErr (ht : ms[t]? = some m) (h : Listening s ms) :
    Listening (exec ch s (.ready .readReadyErr)).1
      (ms.set t (m.after ⟨.ready .readReadyErr, (exec ch s (.ready .readReadyErr)).2⟩)) := by
  have hm := getElem?_listens ht
  cases herr : s.readiness.readyErr with
  | some err =>
      refine Listening.of_set_same ht ?_ h
      simp only [exec, ReadyOp.exec, herr, Marks.after, ListenMarks.afterReady]
  | none =>
      have hafter : (m.after ⟨.ready .readReadyErr,
          (exec ch s (.ready .readReadyErr)).2⟩).listen =
            { m.listen with told := m.listen.awaited } := by
        simp only [exec, ReadyOp.exec, herr, Marks.after, ListenMarks.afterReady]
      refine Listening.of_set hafter (h.sessions.keep hm) ?_
      exact h.signalled.keep hm rfl (fun h => h) (fun _ => rfl) .inl .inl
        (fun _ htold => .inr ⟨h.signalled.awaited t _ hm htold, herr⟩)
        fun hp _ _ => ⟨{ hp with }, rfl, rfl⟩

/-- Giving the signal, which only the first call does. -/
theorem listening_signalReady {err : Option Err} (ht : ms[t]? = some m)
    (ha : m.allows (.ready (.signalReady err))) (h : Listening s ms) :
    Listening (exec ch s (.ready (.signalReady err))).1
      (ms.set t (m.after
        ⟨.ready (.signalReady err), (exec ch s (.ready (.signalReady err))).2⟩)) := by
  have hm := getElem?_listens ht
  obtain ⟨-, hlive, hread⟩ := Marks.allows_signalReady ha
  have hafter : ∃ signalled, (m.after ⟨.ready (.signalReady err),
      (exec ch s (.ready (.signalReady err))).2⟩).listen =
        { m.listen with signalled := signalled } ∧
      (m.listen.signalled = true → signalled = true) ∧ (err = none → signalled = true) := by
    rcases err with _ | err
    · exact ⟨true, rfl, fun _ => rfl, fun _ => rfl⟩
    · exact ⟨m.listen.signalled, rfl, id, by simp⟩
  obtain ⟨signalled, hafter, hkeep, hsuccess⟩ := hafter
  refine Listening.of_set hafter (h.sessions.keep hm) ?_
  cases honce : s.readiness.readyOnce with
  | true =>
      have hsame : (exec ch s (.ready (.signalReady err))).1.readiness = s.readiness := by
        simp only [exec, ReadyOp.exec, honce, if_true]
      rw [hsame]
      exact h.signalled.keep hm rfl hkeep (fun _ => rfl) (fun _ => .inr honce) .inl
        (fun hp htold => .inl ⟨{ hp with }, htold⟩) fun hp _ _ => ⟨{ hp with }, rfl, rfl⟩
  | false =>
      have hfirst : (exec ch s (.ready (.signalReady err))).1.readiness =
          s.readiness.signal err := by
        simp only [exec, ReadyOp.exec, honce, Readiness.signal, Bool.false_eq_true, if_false]
        split <;> rfl
      rw [hfirst]
      exact h.signalled.first h.sessions hm honce hlive rfl rfl
        fun herr => ⟨hsuccess herr, hread herr⟩

theorem listening_step {o : Op} (ht : ms[t]? = some m) (ha : m.allows o)
    (hr : ready ch s o = true) (hmount : MountsAlone s ms o) (h : Listening s ms) :
    Listening (exec ch s o).1 (ms.set t (m.after ⟨o, (exec ch s o).2⟩)) := by
  cases o with
  | pool o =>
      cases hspeaks : o.speaks with
      | true => exact listening_step_speaks hspeaks ht ha hr hmount h
      | false => exact listening_step_silent hspeaks ht ha h
  | ready o =>
      cases o with
      | awaitReady ctx => exact listening_awaitReady ht hr h
      | readReadyErr => exact listening_readReadyErr ht h
      | signalReady err => exact listening_signalReady ht ha h
  | link o => exact Listening.of_set_same ht rfl ⟨h.sessions, h.signalled⟩
  | external o => exact Listening.of_set_same ht rfl ⟨h.sessions, h.signalled⟩

/-- The calls that a transport gets whose runs all come from `nats.listen`. -/
def Call.listensOnly : Call → Bool
  | .doRun _ _ | .mount _ => false
  | _ => true

/-- A goroutine that begins is no longer pending. -/
theorem pending_begin {g : Goroutine} (hg : g ∈ s.pool.started) {p : ℕ × Ctx}
    (hp : g.listener? = some p) :
    (s.pool.started.filterMap (·.listener?)).Perm
      (p :: (s.pool.started.erase g).filterMap (·.listener?)) := by
  have hperm := (List.perm_cons_erase hg).filterMap (·.listener?)
  rwa [List.filterMap_cons_some hp] at hperm

/-- A goroutine of another kind leaves the pending ones as they are. -/
theorem pending_erase {g : Goroutine} (hg : g.listener? = none) (gs : List Goroutine) :
    (gs.erase g).filterMap (·.listener?) = gs.filterMap (·.listener?) := by
  induction gs with
  | nil => rfl
  | cons g' gs ih =>
      by_cases heq : g' = g
      · subst heq
        rw [List.erase_cons_head, List.filterMap_cons_none hg]
      · rw [List.erase_cons_tail (by simpa using heq), List.filterMap_cons, List.filterMap_cons, ih]

theorem listening_enter {c : Call} {s' : State} (hc : c.listensOnly = true)
    (henter : c.enter s = some s') (h : Listening s ms) : Listening s' (ms ++ [c.marks]) := by
  have hlistens : listens (ms ++ [c.marks]) = listens ms ++ [c.marks.listen] := by
    rw [listens, List.map_append]
    rfl
  have hidle : ∀ q : ListenMarks, q.mounted = none → ¬ q.InProgress := fun q hq hp =>
    hp.mounted hq
  refine ⟨?_, ?_⟩
  · rw [hlistens]
    rcases Call.enter_cases henter with ⟨rfl, hother⟩ | ⟨g, turns, rfl, hg, rfl⟩
    · cases c with
      | doRun signals ctx => cases hc
      | mount actions => cases hc
      | goroutine g turns => exact absurd rfl (hother g turns)
      | _ => exact h.sessions.enter nofun nofun (hidle _ rfl)
    · cases hl : g.listener? with
      | some p =>
          cases g with
          | listener id ctx => exact h.sessions.begin (pending_begin hg rfl)
          | _ => cases hl
      | none =>
          have hstage : State.stage { s with pool :=
              { s.pool with started := s.pool.started.erase g } } = s.stage := by
            simp only [State.stage, pending_erase hl]
          rw [hstage]
          cases g with
          | listener id ctx => cases hl
          | _ => exact h.sessions.enter nofun nofun (hidle _ rfl)
  · rw [hlistens, Call.enter_readiness henter]
    cases c with
    | goroutine g turns =>
        cases g <;> exact h.signalled.enter rfl rfl (hidle _ rfl)
    | _ => exact h.signalled.enter rfl rfl (hidle _ rfl)

theorem listening_env {e : Event} (h : Listening s ms) : Listening (e.happen s) ms := by
  cases e <;> exact ⟨h.sessions, h.signalled⟩

theorem listening_built (hs : Built s) : Listening s [] := by
  have hquiet : ∀ g : Stage, g.pending = [] → g.done = [] → Sessions g (listens []) := by
    intro g hpending hdone
    exact ⟨by simp [listens], by simp [hdone], by simp [listens],
      .inl ⟨by simp [listens], hpending, rfl⟩⟩
  have hsignalled : ∀ r, Signalled r (listens []) := fun r =>
    ⟨by simp [listens], by simp [listens], by simp [listens], by simp [listens]⟩
  cases hs with
  | new rawURL initErr embedded => exact ⟨hquiet _ rfl rfl, hsignalled _⟩
  | fromConn nc => exact ⟨hquiet _ rfl rfl, hsignalled _⟩

end

end TransportNats.Lifecycle
