import TransportNats.Lifecycle.Closing

/-!
What has been opened, who is counted, and how far a run has come.

Whatever has been opened and not released is at every moment in one of four
places: in the transport's lists, in the hands of the goroutine that opened or
took it, with a watching goroutine, or with one that has been started and has
not begun. The lists are filled only while a run serves, and the wait group
counts the goroutines that may have something in their hands.
-/

namespace TransportNats.Lifecycle

open Interleaving

/-! ### What has been opened -/

/-- The transport sees to the release of `r`, or it has been released. -/
def Pool.Keeps (p : Pool) (r : Resource) : Prop :=
  r ∈ p.released ∨ r ∈ p.subs ∨ r ∈ p.microServices ∨ ∃ g ∈ p.started, g.watcher? = some r

structure Resourced (p : Pool) (ms : List PoolMarks) : Prop where
  listed : p.subs ++ p.microServices ≠ [] →
    ∃ (i : ℕ) (m : PoolMarks), ms[i]? = some m ∧ m.serving = true
  held : ∀ r ∈ p.opened, p.Keeps r ∨ ∃ (i : ℕ) (m : PoolMarks), ms[i]? = some m ∧ r ∈ m.hands
  hands : ∀ (i : ℕ) (m : PoolMarks), ms[i]? = some m → m.hands ≠ [] →
    m.running = true ∨ m.worker = true

section
variable {p p' : Pool} {ms : List PoolMarks} {t : ℕ} {m : PoolMarks} {l : LinkMarks}
  {q : ListenMarks}

theorem Resourced.update (hp : Resourced p ms) (ht : ms[t]? = some m) (m' : PoolMarks)
    (hlisted : p'.subs ++ p'.microServices ≠ [] →
      m'.serving = true ∨ p.subs ++ p.microServices ≠ [] ∧ (m.serving = true → m'.serving = true))
    (hopened : ∀ r ∈ p'.opened, r ∈ p.opened ∨ r ∈ m'.hands)
    (hkeeps : ∀ r, p.Keeps r → p'.Keeps r ∨ r ∈ m'.hands)
    (hhands : ∀ r ∈ m.hands, p'.Keeps r ∨ r ∈ m'.hands)
    (hown : m'.hands ≠ [] → m'.running = true ∨ m'.worker = true) :
    Resourced p' (ms.set t m') where
  listed h := by
    rcases hlisted h with hserving | ⟨hold, hkeep⟩
    · exact ⟨t, m', getElem?_set_self_of ht m', hserving⟩
    · exact exists_set (P := fun x : PoolMarks => x.serving = true) ht m' hkeep (hp.listed hold)
  held r hr := by
    have hmine : r ∈ m'.hands →
        ∃ (i : ℕ) (x : PoolMarks), (ms.set t m')[i]? = some x ∧ r ∈ x.hands :=
      fun h => ⟨t, m', getElem?_set_self_of ht m', h⟩
    rcases hopened r hr with hr | hr
    · rcases hp.held r hr with hk | ⟨i, x, hx, hrx⟩
      · exact (hkeeps r hk).imp_right hmine
      · by_cases hi : i = t
        · subst hi
          obtain rfl := Option.some.inj (hx.symm.trans ht)
          exact (hhands r hrx).imp_right hmine
        · exact .inr ⟨i, x, by rwa [List.getElem?_set_ne (Ne.symm hi)], hrx⟩
    · exact .inr (hmine hr)
  hands := forall_set hown fun i x _ hx => hp.hands i x hx

/-- A goroutine changes its flags, with the same things in its hands. -/
theorem Resourced.remark (hp : Resourced p ms) (ht : ms[t]? = some m) (m' : PoolMarks)
    (hhands : m'.hands = m.hands) (hserving : m.serving = true → m'.serving = true)
    (hown : m.hands ≠ [] → m'.running = true ∨ m'.worker = true) : Resourced p (ms.set t m') :=
  hp.update ht m' (fun h => .inr ⟨h, hserving⟩) (fun _ => .inl) (fun _ => .inl)
    (fun _ hr => .inr (hhands.symm ▸ hr)) (hhands.symm ▸ hown)

theorem PoolMarks.mem_without {r x : Resource} : x ∈ (m.without r).hands ↔ x ∈ m.hands ∧ x ≠ r := by
  simp [PoolMarks.without]

/-- A goroutine passes `r` on, or releases it. -/
theorem Resourced.passOn (hp : Resourced p ms) (ht : ms[t]? = some m) (r : Resource)
    (hlisted : p'.subs ++ p'.microServices ≠ [] →
      m.serving = true ∨ p.subs ++ p.microServices ≠ [])
    (hopened : p'.opened = p.opened) (hkeeps : ∀ x, p.Keeps x → p'.Keeps x) (hr : p'.Keeps r) :
    Resourced p' (ms.set t (m.without r)) := by
  refine hp.update ht _ (fun h => (hlisted h).imp_right fun h => ⟨h, id⟩)
    (fun x hx => .inl (hopened ▸ hx)) (fun x hx => .inl (hkeeps x hx)) (fun x hx => ?_) fun h => ?_
  · by_cases hxr : x = r
    · exact .inl (hxr ▸ hr)
    · exact .inr (PoolMarks.mem_without.mpr ⟨hx, hxr⟩)
  · refine hp.hands t m ht fun hnil => h ?_
    rw [PoolMarks.without, hnil]
    rfl

theorem Resourced.goWorker (hp : Resourced p ms) (ht : ms[t]? = some m) (g : Goroutine) :
    Resourced { p with workers := p.workers + 1, started := g :: p.started }
      (ms.set t (m.after (.goWorker g) ())) := by
  have hkeeps : ∀ x, p.Keeps x →
      Pool.Keeps { p with workers := p.workers + 1, started := g :: p.started } x := fun x hx =>
    hx.imp_right (Or.imp_right (Or.imp_right fun ⟨g', hg', hw⟩ =>
      ⟨g', List.mem_cons_of_mem _ hg', hw⟩))
  cases hw : g.watcher? with
  | none =>
      have hsame : m.after (.goWorker g) () = m := by simp only [PoolMarks.after, hw]
      rw [hsame]
      exact hp.update ht m (fun h => .inr ⟨h, id⟩) (fun _ => .inl) (fun x hx => .inl (hkeeps x hx))
        (fun _ => .inr) (hp.hands t m ht)
  | some watcher =>
      have hwithout : m.after (.goWorker g) () = m.without watcher := by
        simp only [PoolMarks.after, hw]
      rw [hwithout]
      exact hp.passOn ht watcher .inr rfl hkeeps
        (.inr (.inr (.inr ⟨g, List.mem_cons_self, hw⟩)))

/-- A goroutine that is not a watching one begins outside the wait group. -/
theorem Resourced.start (hp : Resourced p ms) (ht : ms[t]? = some m) {p' : Pool} (g : Goroutine)
    (hsubs : p'.subs = p.subs) (hservices : p'.microServices = p.microServices)
    (hopened : p'.opened = p.opened) (hreleased : p'.released = p.released)
    (hstarted : p'.started = g :: p.started) : Resourced p' (ms.set t m) := by
  refine hp.update ht m (fun h => .inr ⟨by rwa [hsubs, hservices] at h, id⟩)
    (fun r hr => .inl (hopened ▸ hr)) (fun r hr => .inl ?_) (fun _ => .inr) (hp.hands t m ht)
  rw [Pool.Keeps, hreleased, hsubs, hservices, hstarted]
  exact hr.imp_right (Or.imp_right (Or.imp_right fun ⟨g', hg', hw⟩ =>
    ⟨g', List.mem_cons_of_mem _ hg', hw⟩))

theorem Resourced.takeResources (hp : Resourced p ms) (ht : ms[t]? = some m)
    (ha : m.serving = true ∧ m.hands = []) :
    Resourced { p with subs := [], microServices := [] }
      (ms.set t (m.after .takeResources (p.microServices, p.subs))) := by
  refine hp.update ht _ (fun h => absurd rfl h) (fun _ => .inl) (fun r hr => ?_)
    (fun r hr => ?_) fun _ => ?_
  · rcases hr with h | h | h | h
    · exact .inl (.inl h)
    · exact .inr (List.mem_append_right _ h)
    · exact .inr (List.mem_append_left _ h)
    · exact .inl (.inr (.inr (.inr h)))
  · rw [ha.2] at hr
    cases hr
  · have hserving := ha.1
    simp only [PoolMarks.serving, Bool.and_eq_true] at hserving
    exact .inl hserving.1.1

variable {s : State}

theorem Resourced.step (hp : Resourced s.pool ms) (ht : ms[t]? = some m) {o : PoolOp}
    {out : State × o.Ret} (h : o.Does s out) (ha : m.allows l q o) :
    Resourced out.1.pool (ms.set t (m.after o out.2)) := by
  have hown := hp.hands t m ht
  have hquiet : Resourced s.pool (ms.set t m) := hp.remark ht m rfl id hown
  have hup := hp.remark ht { m with up := true } rfl
    (by simp +contextual [PoolMarks.serving]) hown
  cases h with
  | startRunning =>
      have hnew := hp.remark ht { m with running := true } rfl
        (by simp +contextual [PoolMarks.serving]) fun _ => .inl rfl
      exact { hnew with }
  | stopRunning =>
      have hnew := hp.remark ht { m with running := false } rfl (fun h => ?_)
        fun h => absurd ha.2.1 h
      · exact { hnew with }
      · simp only [PoolMarks.serving, Bool.and_eq_true, Bool.not_eq_true'] at h
        exact absurd (h.2.symm.trans (ha.2.2 h.1.2).1) Bool.false_ne_true
  | hasJetStream => exact hup
  | createJetStream => exact { hup with }
  | openResource what r =>
      refine hp.update ht _ (fun h => .inr ⟨h, id⟩) (fun x hx => ?_) (fun _ => .inl)
        (fun x hx => .inr (List.mem_cons_of_mem _ hx)) fun _ => ha.imp_left fun h => ?_
      · rcases List.mem_cons.mp hx with rfl | hx
        · exact .inr List.mem_cons_self
        · exact .inl hx
      · simp only [PoolMarks.serving, Bool.and_eq_true] at h
        exact h.1.1
  | release r =>
      exact hp.passOn ht r .inr rfl (fun x hx => hx.imp_left fun h => List.mem_cons_of_mem _ h)
        (.inl List.mem_cons_self)
  | appendSub r =>
      exact hp.passOn ht r (fun _ => .inl ha) rfl
        (fun x hx => hx.imp_right (Or.imp_left fun h => List.mem_append_left _ h))
        (.inr (.inl (List.mem_append_right _ (List.mem_singleton.mpr rfl))))
  | appendService r =>
      exact hp.passOn ht r (fun _ => .inl ha) rfl
        (fun x hx => hx.imp_right (Or.imp_right (Or.imp_left fun h => List.mem_append_left _ h)))
        (.inr (.inr (.inl (List.mem_append_right _ (List.mem_singleton.mpr rfl)))))
  | goWorker g => exact hp.goWorker ht g
  | goStopper ctx watcher => exact hp.start ht (.stopWatcher ctx watcher) rfl rfl rfl rfl rfl
  | goListener ctx => exact hp.start ht (.listener s.pool.listeners ctx) rfl rfl rfl rfl rfl
  | takeResources => exact hp.takeResources ht ha
  | awaitWorkers => exact hp.remark ht { m with waited := true } rfl id hown
  | startWorker =>
      have hnew := hp.remark ht { m with worker := true } rfl id fun _ => .inr rfl
      exact { hnew with }
  | workerDone =>
      have hnew := hp.remark ht { m with worker := false } rfl id fun h => absurd ha.2 h
      exact { hnew with }
  | _ => exact { hquiet with }

/-! ### Who counts in the wait group -/

def Counted (p : Pool) (ms : List PoolMarks) : Prop :=
  p.workers = p.started.countP (·.isWorker) + ms.countP (·.worker)

theorem Counted.update (hc : Counted p ms) (ht : ms[t]? = some m) (m' : PoolMarks)
    (h : p'.workers + p.started.countP (·.isWorker) + m.worker.toNat =
      p.workers + p'.started.countP (·.isWorker) + m'.worker.toNat) : Counted p' (ms.set t m') := by
  have hset := countP_set_add (·.worker) ht m'
  unfold Counted at hc ⊢
  omega

theorem Counted.step (hc : Counted s.pool ms) (ht : ms[t]? = some m) {o : PoolOp}
    {out : State × o.Ret} (h : o.Does s out) (ha : m.allows l q o) :
    Counted out.1.pool (ms.set t (m.after o out.2)) := by
  have hquiet : ∀ m', m'.worker = m.worker → Counted s.pool (ms.set t m') :=
    fun m' hm' => hc.update ht m' (by rw [hm'])
  cases h with
  | goWorker g =>
      obtain ⟨-, hworker⟩ := ha
      refine hc.update ht _ ?_
      have hmark : (m.after (.goWorker g) ()).worker = m.worker := by cases g <;> rfl
      simp only [hmark, List.countP_cons, hworker, if_true]
      omega
  | startWorker =>
      refine hc.update ht _ ?_
      have hworker : m.worker = false := ha
      simp only [PoolMarks.after, hworker, Bool.toNat_true, Bool.toNat_false]
      omega
  | workerDone =>
      refine hc.update ht _ ?_
      -- the counter is positive, since the goroutine itself counts
      have hpos : 0 < ms.countP (·.worker) :=
        List.countP_pos_iff.mpr ⟨m, List.mem_of_getElem? ht, ha.1⟩
      unfold Counted at hc
      simp only [PoolMarks.after, ha.1, Bool.toNat_true, Bool.toNat_false]
      omega
  | _ => exact hquiet _ rfl

/-! ### How far a run has come -/

structure PoolMarks.Fits (m : PoolMarks) (workers : ℕ) (closing : Bool) : Prop where
  waited : m.waited = true → m.cleaned = true
  cleaned : m.running = true → m.cleaned = true → closing = true
  workers : m.running = true → m.waited = true → workers = 0

structure Phased (running : Bool) (workers : ℕ) (closing : Bool) (ms : List PoolMarks) : Prop where
  running : Exclusive running (·.running) ms
  fits : ∀ (i : ℕ) (m : PoolMarks), ms[i]? = some m → m.Fits workers closing

variable {running running' closing closing' : Bool} {workers workers' : ℕ}

theorem PoolMarks.Fits.of_running_eq_false (hf : m.Fits workers closing) (hm : m.running = false)
    (workers' : ℕ) (closing' : Bool) : m.Fits workers' closing' :=
  ⟨hf.waited, by simp [hm], by simp [hm]⟩

theorem Phased.update (hp : Phased running workers closing ms) (m' : PoolMarks)
    (hrunning : Exclusive running' (·.running) (ms.set t m')) (hself : m'.Fits workers' closing')
    (hother : ∀ (i : ℕ) (x : PoolMarks), i ≠ t → ms[i]? = some x → x.Fits workers closing →
      x.Fits workers' closing') : Phased running' workers' closing' (ms.set t m') where
  running := hrunning
  fits := forall_set hself fun i x hi hx => hother i x hi hx (hp.fits i x hx)

/-- The goroutine that runs may do what it likes to `closing` and the counter, as
long as its own marks fit. -/
theorem Phased.runner (hp : Phased running workers closing ms) (ht : ms[t]? = some m)
    (hm : m.running = true) (m' : PoolMarks) (hrunning : m'.running = m.running)
    (hself : m'.Fits workers' closing') : Phased running workers' closing' (ms.set t m') :=
  hp.update m' (hp.running.keep ht fun h => hrunning ▸ h) hself fun _ _ hi hx hf =>
    hf.of_running_eq_false (hp.running.eq_false ht hm hi hx) _ _

theorem Phased.step (hp : Phased s.pool.running s.pool.workers s.link.closing ms)
    (ht : ms[t]? = some m) {o : PoolOp} {out : State × o.Ret} (h : o.Does s out)
    (ha : m.allows l q o) (hr : o = .awaitWorkers → s.pool.workers = 0) :
    Phased out.1.pool.running out.1.pool.workers out.1.link.closing
      (ms.set t (m.after o out.2)) := by
  have hf := hp.fits t m ht
  have hquiet : ∀ m' : PoolMarks, m'.running = m.running → m'.cleaned = m.cleaned →
      m'.waited = m.waited →
      Phased s.pool.running s.pool.workers s.link.closing (ms.set t m') := by
    intro m' hrunning hcleaned hwaited
    refine hp.update m' (hp.running.keep ht fun h => hrunning ▸ h) ?_ fun _ _ _ _ h => h
    exact ⟨by simpa only [hwaited, hcleaned] using hf.waited,
      by simpa only [hrunning, hcleaned] using hf.cleaned,
      by simpa only [hrunning, hwaited] using hf.workers⟩
  -- a run that has not cleaned has not waited
  have hwaited : m.cleaned = false → m.waited = true → False := fun hcleaned hwaited =>
    absurd (hcleaned.symm.trans (hf.waited hwaited)) Bool.false_ne_true
  cases h with
  | startRunning hfree =>
      obtain ⟨-, -, hcleaned, -⟩ := ha
      have hx := hp.running
      rw [hfree] at hx
      exact hp.update _ (hx.acquire _) ⟨hf.waited,
        fun _ h => absurd (hcleaned.symm.trans h) Bool.false_ne_true,
        fun _ h => (hwaited hcleaned h).elim⟩ fun _ _ _ _ h => h
  | stopRunning =>
      exact hp.update _ (hp.running.release ht ha.1 rfl)
        ⟨hf.waited, fun h => absurd h Bool.false_ne_true, fun h => absurd h Bool.false_ne_true⟩
        fun _ _ _ _ h => h
  | clearClosing =>
      obtain ⟨hrunning, hcleaned⟩ := ha
      exact hp.runner ht hrunning m rfl ⟨hf.waited,
        fun _ h => absurd (hcleaned.symm.trans h) Bool.false_ne_true, hf.workers⟩
  | goWorker g =>
      obtain ⟨hserving, -⟩ := ha
      simp only [PoolMarks.serving, Bool.and_eq_true, Bool.not_eq_true'] at hserving
      have hkeep : (m.after (.goWorker g) ()).Fits (s.pool.workers + 1) s.link.closing := by
        have hfits : m.Fits (s.pool.workers + 1) s.link.closing :=
          ⟨hf.waited, hf.cleaned, fun _ h => (hwaited hserving.2 h).elim⟩
        cases g <;> exact { hfits with }
      exact hp.runner ht hserving.1.1 _ (by cases g <;> rfl) hkeep
  | takeResources =>
      obtain ⟨hserving, -⟩ := ha
      simp only [PoolMarks.serving, Bool.and_eq_true, Bool.not_eq_true'] at hserving
      exact hp.runner ht hserving.1.1 _ rfl
        ⟨fun _ => rfl, fun _ _ => rfl, fun _ h => (hwaited hserving.2 h).elim⟩
  | awaitWorkers =>
      exact hp.runner ht ha.1 _ rfl ⟨fun _ => ha.2.1, hf.cleaned, fun _ _ => hr rfl⟩
  | startWorker hclosing =>
      -- while `closing` is not set no run has waited
      have hother : ∀ x : PoolMarks, x.Fits s.pool.workers s.link.closing →
          x.Fits (s.pool.workers + 1) s.link.closing := fun x hx =>
        ⟨hx.waited, hx.cleaned, fun hrunning h =>
          absurd (hclosing.symm.trans (hx.cleaned hrunning (hx.waited h))) Bool.false_ne_true⟩
      exact hp.update _ (hp.running.keep ht id) { hother m hf with } fun _ x _ _ => hother x
  | workerDone =>
      have hother : ∀ x : PoolMarks, x.Fits s.pool.workers s.link.closing →
          x.Fits (s.pool.workers - 1) s.link.closing := fun x hx =>
        ⟨hx.waited, hx.cleaned, fun hrunning h => by rw [hx.workers hrunning h]⟩
      exact hp.update _ (hp.running.keep ht id) { hother m hf with } fun _ x _ _ => hother x
  | _ => exact hquiet _ rfl rfl rfl

/-- `closing` may be set at any time. -/
theorem Phased.closing_mono (hp : Phased running workers closing ms)
    (h : closing = true → closing' = true) : Phased running workers closing' ms :=
  ⟨hp.running, fun i m hm =>
    { hp.fits i m hm with cleaned := fun hr hc => h ((hp.fits i m hm).cleaned hr hc) }⟩

end

/-! ### Goroutines that begin -/

section
variable {p : Pool} {ms : List PoolMarks} {m' : PoolMarks}

theorem Resourced.enter (hp : Resourced p ms) (hm' : m'.hands = []) : Resourced p (ms ++ [m']) where
  listed h := exists_enter (hp.listed h)
  held r hr := (hp.held r hr).imp_right exists_enter
  hands := forall_enter (fun h => absurd hm' h) hp.hands

theorem Goroutine.hands_marks (g : Goroutine) : g.marks.pool.hands = g.watcher?.toList := by
  cases g <;> rfl

theorem Goroutine.worker_marks (g : Goroutine) : g.marks.pool.worker = g.isWorker := by
  cases g <;> rfl

/-- A watching goroutine that begins has its watcher in its hands. -/
theorem Resourced.begin (hp : Resourced p ms) (g : Goroutine) :
    Resourced { p with started := p.started.erase g } (ms ++ [g.marks.pool]) where
  listed h := exists_enter (hp.listed h)
  held r hr := by
    rcases hp.held r hr with (h | h | h | ⟨g', hg', hw⟩) | h
    · exact .inl (.inl h)
    · exact .inl (.inr (.inl h))
    · exact .inl (.inr (.inr (.inl h)))
    · by_cases hg : g' = g
      · subst hg
        refine .inr ⟨ms.length, g'.marks.pool, List.getElem?_concat_length, ?_⟩
        rw [Goroutine.hands_marks, hw]
        exact List.mem_singleton.mpr rfl
      · exact .inl (.inr (.inr (.inr ⟨g', (List.mem_erase_of_ne hg).mpr hg', hw⟩)))
    · exact .inr (exists_enter h)
  hands := forall_enter (by cases g <;> simp [Goroutine.marks, workerMarks]) hp.hands

theorem Counted.enter (hc : Counted p ms) (hm' : m'.worker = false) : Counted p (ms ++ [m']) := by
  unfold Counted at hc ⊢
  rw [List.countP_append, List.countP_singleton, hm']
  simpa using hc

/-- A worker was counted when it was started. -/
theorem Counted.begin (hc : Counted p ms) {g : Goroutine} (hg : g ∈ p.started) :
    Counted { p with started := p.started.erase g } (ms ++ [g.marks.pool]) := by
  unfold Counted at hc ⊢
  have hperm := (List.perm_cons_erase hg).countP_eq (·.isWorker)
  rw [List.countP_cons] at hperm
  dsimp only
  rw [List.countP_append, List.countP_singleton, Goroutine.worker_marks]
  omega

theorem Phased.enter {running closing : Bool} {workers : ℕ} (hp : Phased running workers closing ms)
    (hrunning : m'.running = false) (hwaited : m'.waited = false) :
    Phased running workers closing (ms ++ [m']) where
  running := hp.running.enter hrunning
  fits := forall_enter ⟨by simp [hwaited], by simp [hrunning], by simp [hrunning]⟩ hp.fits

end

end TransportNats.Lifecycle
