import TransportNats.Idempotency.Executor

/-!
A claimed request is finalised exactly once.

One call of `executeWithCoordinator` runs next to its renewal goroutine, with
any results of the coordinator and any end of the action. What the two do to
each other goes through the shared variables only: the executor sets a flag
under the mutex, closes the stop channel and waits until the goroutine has
closed the done channel. From then on the goroutine does nothing, so no renewal
overlaps with the outcome being stored or the claim being released.
-/

namespace TransportNats.Renewal

open Interleaving Idempotency Program

/-! ### Executor and goroutine together -/

section
variable {R : Runtime} {q : Request}

/-- How the shared variables, the marks `e` of the executor and those of the
goroutine, if it is running, fit together. -/
structure Synced (s : Shared) (e : Marks) (g : Option Marks) : Prop where
  entered : s.entered = true
  running : s.launched ≠ none → g = none
  went : e.went = true ↔ s.launched ≠ none ∨ g ≠ none
  awaited : e.awaited = true → s.doneClosed = true
  closed : s.doneClosed = true ↔ ∃ m, g = some m ∧ m.closed = true
  told : e.told = true → s.stopClosed = true
  held : s.stateMu = true → e.holding = true ∨ ∃ m, g = some m ∧ m.holding = true
  sent : s.renewalErrors ≠ [] → ∃ m, g = some m ∧ m.sent = true
  recorded : ∀ m, g = some m → m.sent = true →
    s.renewalErrors ≠ [] ∨ ∃ err, e.received = some (some err)
  joined : e.received ≠ none → e.awaited = true
  clear : e.received = some none → ∀ m, g = some m → m.sent = false

theorem Synced.executor {s : Shared} {e : RenewalHist R} {g : Option Marks}
    (hs : Synced s (marks e) g) {ch : RenewalChoice R} {o : RenewalOp R}
    (hg : executorGuard q e o) (hr : ready ch s o = true) :
    Synced (exec ch s o).1 (marks (⟨o, (exec ch s o).2⟩ :: e)) g := by
  rw [marks_cons]
  cases o with
  | claim | executeDecoded | marshal | now | complete | release | cancelAction | setStopped =>
      exact { hs with }
  | goRenewal key token leaseTTL =>
      obtain ⟨-, hgo, -⟩ := hg
      have hnone : g = none := by
        by_contra hne
        rw [hs.went.mpr (.inr hne)] at hgo
        cases hgo
      exact { hs with running := fun _ => hnone, went := by simp [Marks.after, exec] }
  | lockState => exact { hs with held := fun _ => .inl rfl }
  | unlockState => exact { hs with held := nofun }
  | closeStop => exact { hs with told := fun _ => rfl }
  | awaitDone => exact { hs with awaited := fun _ => hr, joined := fun _ => rfl }
  | receiveError =>
      obtain ⟨haw, hrec⟩ := hg
      -- nothing was received before, so an error that was sent is still there
      have hthere : ∀ m, g = some m → m.sent = true → s.renewalErrors ≠ [] := fun m hm hsent =>
        (hs.recorded m hm hsent).resolve_right (by simp [hrec])
      cases herr : s.renewalErrors with
      | nil =>
          have hno : ∀ m, g = some m → m.sent = false := fun m hm => by
            by_contra hsent
            exact hthere m hm (by simpa using hsent) herr
          exact { hs with
            sent := fun h => absurd (by simp [exec, herr]) h
            recorded := fun m hm hsent => absurd hsent (by simp [hno m hm])
            joined := fun _ => haw
            clear := fun _ => hno }
      | cons err errs =>
          exact { hs with
            sent := fun _ => hs.sent (by simp [herr])
            recorded := fun _ _ _ => .inr ⟨err, by simp [Marks.after, exec, herr]⟩
            joined := fun _ => haw
            clear := fun h => by simp [Marks.after, exec, herr] at h }
  | isStopped | awaitStop | select | renewBegin | renewEnd | sendError | closeDone =>
      exact hg.elim

/-- What the goroutine and the executor owe each other while the goroutine has not
closed the done channel. -/
structure Working (s : Shared) (e m : Marks) : Prop where
  entered : s.entered = true
  launched : s.launched = none
  went : e.went = true
  awaited : e.awaited = false
  received : e.received = none
  closed : s.doneClosed = true ↔ m.closed = true
  told : e.told = true → s.stopClosed = true
  held : s.stateMu = true → e.holding = true ∨ m.holding = true
  sent : s.renewalErrors ≠ [] ↔ m.sent = true

theorem Working.synced {s : Shared} {e m : Marks} (hw : Working s e m) : Synced s e (some m) where
  entered := hw.entered
  running h := absurd hw.launched h
  went := by simp [hw.went]
  awaited h := by simp [hw.awaited] at h
  closed := by simp [hw.closed]
  told := hw.told
  held h := (hw.held h).imp id fun hm => ⟨m, rfl, hm⟩
  sent h := ⟨m, rfl, hw.sent.mp h⟩
  recorded m' hm' hsent := by
    cases hm'
    exact .inl (hw.sent.mpr hsent)
  joined h := absurd hw.received h
  clear h := by simp [hw.received] at h

theorem Synced.working {s : Shared} {e m : Marks} (hs : Synced s e (some m))
    (hopen : m.closed = false) : Working s e m := by
  have hdone : s.doneClosed = true ↔ m.closed = true := by simp [hs.closed]
  have hwait : e.awaited = false := by
    by_contra haw
    have hc := hdone.mp (hs.awaited (by simpa using haw))
    simp [hopen] at hc
  have hrec : e.received = none := by
    by_contra hne
    have haw := hs.joined hne
    simp [hwait] at haw
  refine ⟨hs.entered, ?_, hs.went.mpr (.inr nofun), hwait, hrec, hdone, hs.told, ?_, ?_, ?_⟩
  · by_contra hne
    cases hs.running hne
  · intro hmu
    rcases hs.held hmu with he | ⟨_, hm, hh⟩
    · exact .inl he
    · cases hm
      exact .inr hh
  · intro hne
    obtain ⟨_, hm, hsent⟩ := hs.sent hne
    cases hm
    exact hsent
  · intro hsent
    exact (hs.recorded m rfl hsent).resolve_right (by simp [hrec])

theorem Synced.goroutine {s : Shared} {e : Marks} {g : RenewalHist R}
    (hs : Synced s e (some (marks g))) {ch : RenewalChoice R} {o : RenewalOp R}
    (hg : goroutineGuard g o) :
    Synced (exec ch s o).1 e (some (marks (⟨o, (exec ch s o).2⟩ :: g))) := by
  obtain ⟨hopen, hg⟩ := hg
  have hw := hs.working hopen
  apply Working.synced
  rw [marks_cons]
  cases o with
  | awaitStop | select | renewBegin | renewEnd | isStopped | cancelAction => exact { hw with }
  | lockState => exact { hw with held := fun _ => .inr rfl }
  | unlockState => exact { hw with held := nofun }
  | sendError err => exact { hw with sent := by simp [exec, Marks.after] }
  | closeDone => exact { hw with closed := ⟨fun _ => rfl, fun _ => rfl⟩ }
  | claim | executeDecoded | marshal | now | complete | release | goRenewal | setStopped
  | closeStop | awaitDone | receiveError => exact hg.elim

/-- A launched goroutine begins to run. -/
theorem Synced.spawn {s : Shared} {e : Marks} {g : Option Marks} (hs : Synced s e g)
    (hl : s.launched ≠ none) : Synced { s with launched := none } e (some {}) := by
  obtain rfl := hs.running hl
  have hdone : s.doneClosed = false := by simpa using hs.closed
  have hwait : e.awaited = false := by
    by_contra haw
    simp [hs.awaited (by simpa using haw)] at hdone
  have hrec : e.received = none := by
    by_contra hne
    simp [hs.joined hne] at hwait
  have herr : s.renewalErrors = [] := by
    by_contra hne
    obtain ⟨_, hm, -⟩ := hs.sent hne
    cases hm
  apply Working.synced
  exact {
    entered := hs.entered
    launched := rfl
    went := hs.went.mpr (.inl hl)
    awaited := hwait
    received := hrec
    closed := by simp [hdone]
    told := hs.told
    held := fun hmu => (hs.held hmu).imp id (by simp)
    sent := by simp [herr] }

/-- What the threads are, and how they fit together. -/
inductive Joint (w : World (finalizing R q)) : Prop
  | idle (hs : w.state = {}) (ht : w.threads = [])
  | alone (E : Thread (finalizing R q)) (ht : w.threads = [E]) (hE : E.call = .execute)
      (hsync : Synced w.state (marks E.hist) none)
  | both (E G : Thread (finalizing R q)) (ht : w.threads = [E, G]) (hE : E.call = .execute)
      (hG : ∃ key token leaseTTL ticks, G.call = .renewal key token leaseTTL ticks)
      (hsync : Synced w.state (marks E.hist) (some (marks G.hist)))

theorem ready_of_unblocked {w : World (finalizing R q)} {t : ℕ} {ch : RenewalChoice R}
    {c : RenewalCall} {h : RenewalHist R} {o : RenewalOp R} {k : o.Ret → Renewing R (Option Reply)}
    (hu : Unblocked w (.step t ch)) (ht : w.threads[t]? = some ⟨c, h, .call o k⟩) :
    ready ch w.state o = true := by
  simpa only [Unblocked, unblocked, World.performs?_step ch ht] using hu

theorem joint_enter {w : World (finalizing R q)} (hj : Joint w) {c : RenewalCall} {s : Shared}
    (henter : c.enter w.state = some s) : Joint (⟨s, w.threads ++ [.start c]⟩ :
      World (finalizing R q)) := by
  cases c with
  | execute =>
      simp only [RenewalCall.enter] at henter
      split at henter
      · cases henter
      · rename_i hent
        cases henter
        cases hj with
        | idle hs ht =>
            refine .alone (.start .execute) (by simp [ht]) rfl ?_
            rw [hs]
            constructor <;> simp [Thread.start, marks]
        | alone E ht hE hsync => exact absurd hsync.entered hent
        | both E G ht hE hG hsync => exact absurd hsync.entered hent
  | renewal key token leaseTTL ticks =>
      simp only [RenewalCall.enter] at henter
      split at henter
      · rename_i hl
        cases henter
        cases hj with
        | idle hs ht => simp [hs] at hl
        | alone E ht hE hsync =>
            refine .both E (.start (.renewal key token leaseTTL ticks)) (by simp [ht]) hE
              ⟨key, token, leaseTTL, ticks, rfl⟩ ?_
            exact hsync.spawn (by simp [hl])
        | both E G ht hE hG hsync =>
            cases hsync.running (by simp [hl])
      · cases henter

theorem joint_perform {w : World (finalizing R q)} (hok : (finalizingContract R q).Ok w)
    (hj : Joint w) {t : ℕ} {ch : RenewalChoice R} {c : RenewalCall} {h : RenewalHist R}
    {o : RenewalOp R} {k : o.Ret → Renewing R (Option Reply)}
    (hthread : w.threads[t]? = some ⟨c, h, .call o k⟩) (hready : ready ch w.state o = true) :
    Joint (w.perform t ch c h o k) := by
  have hguard := hok.guard hthread
  let th : Thread (finalizing R q) :=
    ⟨c, ⟨o, (exec ch w.state o).2⟩ :: h, k (exec ch w.state o).2⟩
  cases hj with
  | idle hs ht => simp [ht] at hthread
  | alone E ht hE hsync =>
      obtain rfl : t = 0 := by
        have := (List.getElem?_eq_some_iff.mp hthread).1
        simp [ht] at this
        exact this
      simp only [ht, List.getElem?_cons_zero, Option.some.injEq] at hthread
      subst hthread
      obtain rfl : c = .execute := hE
      exact .alone th (by simp [World.perform, ht, th]) rfl (hsync.executor hguard hready)
  | both E G ht hE hG hsync =>
      have hlt : t < 2 := by
        have := (List.getElem?_eq_some_iff.mp hthread).1
        simpa [ht] using this
      obtain rfl | rfl : t = 0 ∨ t = 1 := by omega
      · simp only [ht, List.getElem?_cons_zero, Option.some.injEq] at hthread
        subst hthread
        obtain rfl : c = .execute := hE
        exact .both th G (by simp [World.perform, ht, th]) rfl hG (hsync.executor hguard hready)
      · simp only [ht, List.getElem?_cons_succ, List.getElem?_cons_zero,
          Option.some.injEq] at hthread
        subst hthread
        obtain ⟨key, token, leaseTTL, ticks, rfl⟩ := hG
        exact .both E th (by simp [World.perform, ht, th]) hE ⟨key, token, leaseTTL, ticks, rfl⟩
          (hsync.goroutine hguard)

theorem joint_moves {w w' : World (finalizing R q)} {a : Act (finalizing R q)}
    (hm : World.Moves w a w') (hu : Unblocked w a)
    (hw : (finalizingContract R q).Ok w ∧ Joint w) :
    (finalizingContract R q).Ok w' ∧ Joint w' := by
  refine ⟨(finalizingContract R q).ok_moves hm hw.1, ?_⟩
  cases hm with
  | idle => exact hw.2
  | env e => exact e.elim
  | enter henter => exact joint_enter hw.2 henter
  | perform ht => exact joint_perform hw.1 hw.2 ht (ready_of_unblocked hu ht)

/-! ### The result -/

/-- A choice for a call whose result does not matter. -/
def RenewalChoice.any : RenewalChoice R where
  claim := .error (.other "" none)
  outcome := .panicked
  marshalled := .panicked
  now := .zero
  completed := none
  released := none
  renewed := none
  tick := true

/-- Some call can begin, or some thread's next operation goes through. -/
def CanMove (w : World (finalizing R q)) : Prop :=
  (∃ c s, RenewalCall.enter c w.state = some s) ∨
    ∃ t ch c o, w.performs? (.step t ch) = some (c, o) ∧ ready ch w.state o = true

theorem goroutine_ready {s : Shared} {e : Marks} {g : RenewalHist R}
    (hs : Synced s e (some (marks g))) {o : RenewalOp R} (hg : goroutineGuard g o)
    (hmu : s.stateMu = true → (marks g).holding = true)
    (hstop : s.stopClosed = true ∨ (marks g).holding = true) : ready .any s o = true := by
  obtain ⟨hopen, hg⟩ := hg
  have hw := hs.working hopen
  cases o with
  | lockState =>
      obtain ⟨-, hfree⟩ := hg
      cases hlock : s.stateMu with
      | false => simp [ready, hlock]
      | true => simp [hmu hlock] at hfree
  | awaitStop =>
      obtain ⟨-, hfree⟩ := hg
      exact hstop.resolve_right (by simp [hfree])
  | sendError err =>
      have hnone : s.renewalErrors = [] := by
        by_contra hne
        simp [hw.sent.mp hne] at hg
      simp [ready, hnone]
  | claim | executeDecoded | marshal | now | complete | release | goRenewal | setStopped
  | closeStop | awaitDone | receiveError => exact hg.elim
  | unlockState | cancelAction | isStopped | select | renewBegin | renewEnd | closeDone => rfl

/-- The goroutine has not come to its end, so it can go on, provided that nobody
else holds the mutex and that it is not waiting to be stopped. -/
theorem goroutine_moves {w : World (finalizing R q)} (hok : (finalizingContract R q).Ok w)
    {E G : Thread (finalizing R q)} (ht : w.threads = [E, G])
    (hG : ∃ key token leaseTTL ticks, G.call = .renewal key token leaseTTL ticks)
    (hsync : Synced w.state (marks E.hist) (some (marks G.hist)))
    (hopen : (marks G.hist).closed = false ∨ (marks G.hist).holding = true)
    (hmu : w.state.stateMu = true → (marks G.hist).holding = true)
    (hstop : w.state.stopClosed = true ∨ (marks G.hist).holding = true) : CanMove w := by
  have hthread : w.threads[1]? = some G := by simp [ht]
  obtain ⟨key, token, leaseTTL, ticks, hcall⟩ := hG
  obtain ⟨c, h, rest⟩ := G
  obtain rfl : c = .renewal key token leaseTTL ticks := hcall
  cases rest with
  | ret r =>
      have hpost := hok.post hthread rfl
      rcases hopen with hopen | hhold
      · cases hopen.symm.trans hpost.1
      · cases hhold.symm.trans hpost.2
  | call o k =>
      have hready := goroutine_ready hsync (hok.guard hthread) hmu hstop
      exact .inr ⟨1, .any, _, o, World.performs?_step _ hthread, hready⟩

theorem Joint.executor {w : World (finalizing R q)} (hj : Joint w) {t : ℕ}
    {th : Thread (finalizing R q)} (hthread : w.threads[t]? = some th)
    (hcall : th.call = .execute) :
    (w.threads = [th] ∧ Synced w.state (marks th.hist) none) ∨
      ∃ G, w.threads = [th, G] ∧
        (∃ key token leaseTTL ticks, G.call = .renewal key token leaseTTL ticks) ∧
        Synced w.state (marks th.hist) (some (marks G.hist)) := by
  cases hj with
  | idle hs ht => simp [ht] at hthread
  | alone E ht hE hsync =>
      have hmem := List.mem_of_getElem? hthread
      rw [ht, List.mem_singleton] at hmem
      subst hmem
      exact .inl ⟨ht, hsync⟩
  | both E G ht hE hG hsync =>
      have hmem := List.mem_of_getElem? hthread
      rw [ht, List.mem_pair] at hmem
      rcases hmem with rfl | rfl
      · exact .inr ⟨G, ht, hG, hsync⟩
      · obtain ⟨_, _, _, _, hcall'⟩ := hG
        cases hcall.symm.trans hcall'

theorem Joint.goroutine {w : World (finalizing R q)} (hj : Joint w) {t : ℕ}
    {th : Thread (finalizing R q)} (hthread : w.threads[t]? = some th)
    (hcall : th.call ≠ .execute) :
    ∃ E : Thread (finalizing R q), Synced w.state (marks E.hist) (some (marks th.hist)) := by
  have hmem := List.mem_of_getElem? hthread
  cases hj with
  | idle hs ht => simp [ht] at hmem
  | alone E ht hE hsync =>
      rw [ht, List.mem_singleton] at hmem
      exact absurd (hmem ▸ hE) hcall
  | both E G ht hE hG hsync =>
      rw [ht, List.mem_pair] at hmem
      obtain rfl := hmem.resolve_left fun h => hcall (h ▸ hE)
      exact ⟨E, hsync⟩

/-- As long as the executor has not returned, somebody can go on. -/
theorem canMove_of_running {w : World (finalizing R q)} (hok : (finalizingContract R q).Ok w)
    (hj : Joint w) {t : ℕ} {th : Thread (finalizing R q)} (hthread : w.threads[t]? = some th)
    (hcall : th.call = .execute) (hrun : th.rest.result? = none) : CanMove w := by
  have hexec := hj.executor hthread hcall
  obtain ⟨c, h, rest⟩ := th
  obtain rfl : c = .execute := hcall
  cases rest with
  | ret r => cases hrun
  | call o k =>
      have hguard : executorGuard q h o := hok.guard hthread
      have hgo : ready .any w.state o = true → CanMove w := fun hready =>
        .inr ⟨t, .any, _, o, World.performs?_step _ hthread, hready⟩
      cases o with
      | lockState =>
          obtain ⟨-, hfree⟩ := hguard
          cases hlock : w.state.stateMu with
          | false => exact hgo (by simp [ready, hlock])
          | true =>
              rcases hexec with ⟨-, hsync⟩ | ⟨G, ht, hG, hsync⟩
              · simpa [hfree] using hsync.held hlock
              · have hhold : (marks G.hist).holding = true := by
                  simpa [hfree] using hsync.held hlock
                exact goroutine_moves hok ht hG hsync (.inr hhold) (fun _ => hhold) (.inr hhold)
      | awaitDone =>
          obtain ⟨hwent, hfree, htold⟩ := hguard
          cases hdone : w.state.doneClosed with
          | true => exact hgo hdone
          | false =>
              rcases hexec with ⟨-, hsync⟩ | ⟨G, ht, hG, hsync⟩
              · obtain ⟨⟨key, token, leaseTTL⟩, hl⟩ : ∃ x, w.state.launched = some x := by
                  simpa [Option.ne_none_iff_exists'] using hsync.went.mp hwent
                exact .inl ⟨.renewal key token leaseTTL 0, { w.state with launched := none },
                  by simp [RenewalCall.enter, hl]⟩
              · have hopen : (marks G.hist).closed = false := by
                  simpa [hdone] using hsync.closed
                refine goroutine_moves hok ht hG hsync (.inl hopen) (fun hmu => ?_)
                  (.inl (hsync.told htold))
                simpa [hfree] using hsync.held hmu
      | isStopped | awaitStop | select | renewBegin | renewEnd | sendError | closeDone =>
          exact hguard.elim
      | claim | executeDecoded | marshal | now | complete | release | cancelAction | goRenewal
      | unlockState | setStopped | closeStop | receiveError => exact hgo rfl

/-- A goroutine that has closed the done channel has no renewal in flight. -/
theorem landed_of_closed {h : RenewalHist R}
    (hall : ∀ {x h'}, x :: h' <:+ h → goroutineGuard h' x.op)
    (hc : (marks h).closed = true) : (marks h).inFlight = false := by
  cases h with
  | nil => rfl
  | cons x h =>
      obtain ⟨hopen, hg⟩ := hall List.suffix_rfl
      obtain ⟨o, r⟩ := x
      rw [marks_cons] at hc ⊢
      cases o with
      | closeDone => exact hg.1
      | _ => simp_all [Marks.after]

/-- Only a request that is to be renewed launches a goroutine. -/
theorem started_of_went {h : RenewalHist R}
    (hall : ∀ {x h'}, x :: h' <:+ h → executorGuard q h' x.op)
    (hwent : (marks h).went = true) : q.started = true := by
  induction h with
  | nil => cases hwent
  | cons x h ih =>
      have hg := hall List.suffix_rfl
      have ih := ih fun hsuf => hall (hsuf.trans (List.suffix_cons x h))
      obtain ⟨o, r⟩ := x
      rw [marks_cons] at hwent
      cases o with
      | goRenewal key token leaseTTL => exact hg.1
      | _ => exact ih hwent

/-- No renewal is between its beginning and its end. -/
def NoneInFlight (w : World (finalizing R q)) : Prop :=
  ∀ (t : ℕ) (th : Thread (finalizing R q)), w.threads[t]? = some th → th.call ≠ .execute →
    (marks th.hist).inFlight = false

/-- No failure of a renewal has been recorded. -/
def NoneRecorded (w : World (finalizing R q)) : Prop :=
  w.state.renewalErrors = [] ∧ ∀ (t : ℕ) (th : Thread (finalizing R q)),
    w.threads[t]? = some th → th.call ≠ .execute → (marks th.hist).sent = false

/-- The goroutine of an executor that has waited for it. -/
theorem goroutine_of_awaited {w : World (finalizing R q)} (hok : (finalizingContract R q).Ok w)
    (hj : Joint w) {t : ℕ} {th : Thread (finalizing R q)} (hthread : w.threads[t]? = some th)
    (hcall : th.call = .execute) (haw : q.started = true → (marks th.hist).awaited = true)
    {u : ℕ} {G : Thread (finalizing R q)} (hu : w.threads[u]? = some G)
    (hG : G.call ≠ .execute) :
    q.started = true ∧ (marks G.hist).inFlight = false ∧
      Synced w.state (marks th.hist) (some (marks G.hist)) := by
  rcases hj.executor hthread hcall with ⟨ht, -⟩ | ⟨G', ht, hG', hsync⟩
  · have hmem := List.mem_of_getElem? hu
    rw [ht, List.mem_singleton] at hmem
    exact absurd (hmem ▸ hcall) hG
  · have hmem := List.mem_of_getElem? hu
    rw [ht, List.mem_pair] at hmem
    obtain rfl := hmem.resolve_left fun h => hG (h ▸ hcall)
    obtain ⟨key, token, leaseTTL, ticks, hcall'⟩ := hG'
    have hallE : ∀ {x h'}, x :: h' <:+ th.hist → executorGuard q h' x.op := fun hsuf => by
      simpa only [finalizingContract, hcall] using (hok _ _ hthread).allowed hsuf
    have hallG : ∀ {x h'}, x :: h' <:+ G.hist → goroutineGuard h' x.op := fun hsuf => by
      simpa only [finalizingContract, hcall'] using (hok _ _ hu).allowed hsuf
    have hst : q.started = true := started_of_went hallE (hsync.went.mpr (.inr nofun))
    obtain ⟨m, hm, hc⟩ := hsync.closed.mp (hsync.awaited (haw hst))
    cases hm
    exact ⟨hst, landed_of_closed hallG hc, hsync⟩

theorem noneInFlight_of_awaited {w : World (finalizing R q)}
    (hok : (finalizingContract R q).Ok w) (hj : Joint w) {t : ℕ} {th : Thread (finalizing R q)}
    (hthread : w.threads[t]? = some th) (hcall : th.call = .execute)
    (haw : q.started = true → (marks th.hist).awaited = true) : NoneInFlight w :=
  fun _ _ hu hG => (goroutine_of_awaited hok hj hthread hcall haw hu hG).2.1

/-- An executor that has waited for the goroutine and found no error can be sure
that there was none. -/
theorem noneRecorded_of_received {w : World (finalizing R q)}
    (hok : (finalizingContract R q).Ok w) (hj : Joint w) {t : ℕ} {th : Thread (finalizing R q)}
    (hthread : w.threads[t]? = some th) (hcall : th.call = .execute)
    (hjoin : q.started = true →
      (marks th.hist).awaited = true ∧ (marks th.hist).received = some none) :
    NoneRecorded w := by
  have hgor := fun u G (hG : w.threads[u]? = some G) hne =>
    goroutine_of_awaited hok hj hthread hcall (fun hst => (hjoin hst).1) hG hne
  constructor
  · by_contra hne
    rcases hj.executor hthread hcall with ⟨-, hsync⟩ | ⟨G, ht, ⟨_, _, _, _, hG⟩, hsync⟩
    · obtain ⟨_, hm, -⟩ := hsync.sent hne
      cases hm
    · obtain ⟨hst, -⟩ := hgor 1 G (by simp [ht]) (by simp [hG])
      obtain ⟨m, hm, hsent⟩ := hsync.sent hne
      simp [hsync.clear (hjoin hst).2 m hm] at hsent
  · intro u G hG hne
    obtain ⟨hst, -, hsync⟩ := hgor u G hG hne
    exact hsync.clear (hjoin hst).2 _ rfl

theorem send_ready {w : World (finalizing R q)} (hj : Joint w) {t : ℕ}
    {th : Thread (finalizing R q)} (hthread : w.threads[t]? = some th)
    (hcall : th.call ≠ .execute) {err : Err} (hg : goroutineGuard th.hist (.sendError err))
    (ch : RenewalChoice R) : ready ch w.state (.sendError err) = true := by
  obtain ⟨E, hsync⟩ := hj.goroutine hthread hcall
  obtain ⟨hopen, hunsent, -⟩ := hg
  have hnone : w.state.renewalErrors = [] := by
    by_contra hne
    cases hunsent.symm.trans ((hsync.working hopen).sent.mp hne)
  simp [ready, hnone]

/-- The claim is finalised exactly once, and never while a renewal is in flight. -/
structure FinalisesOnce (w : World (finalizing R q)) : Prop where
  /-- The action runs only if `Claim` returned acquired. -/
  execute : ∀ (t : ℕ) (th : Thread (finalizing R q)) msg, w.threads[t]? = some th →
    th.rest.next? = some (.executeDecoded msg) → ∃ token, Acquired q th.hist token
  /-- `Complete` is tried at most once, for the claim, after the action and the
  marshalling have succeeded, and not if a renewal has failed. -/
  complete : ∀ (t : ℕ) (th : Thread (finalizing R q)) key token entry ttl,
    w.threads[t]? = some th → th.rest.next? = some (.complete key token entry ttl) →
      key = q.key ∧ Acquired q th.hist token ∧ times .complete th.hist = 0 ∧
        (∃ res, ⟨.executeDecoded q.msg, .value res⟩ ∈ th.hist ∧
          ⟨.marshal res, .value entry.body⟩ ∈ th.hist) ∧ NoneRecorded w ∧ NoneInFlight w
  /-- `Release` is tried at most once, with the claim's token, and not after
  `Complete` has returned nil. -/
  release : ∀ (t : ℕ) (th : Thread (finalizing R q)) key token,
    w.threads[t]? = some th → th.rest.next? = some (.release key token) →
      key = q.key ∧ Acquired q th.hist token ∧ times .release th.hist = 0 ∧
        ¬ CompletedNil th.hist ∧ NoneInFlight w
  /-- When the call ends, `Release` was tried once if the claim was acquired and
  `Complete` did not return nil, and not at all otherwise. -/
  ended : ∀ (t : ℕ) (th : Thread (finalizing R q)) r, w.threads[t]? = some th →
    th.call = .execute → th.rest.result? = some r → executorPost q th.hist
  /-- The goroutine's send goes through at once. -/
  send : ∀ (t : ℕ) (th : Thread (finalizing R q)) err (ch : RenewalChoice R),
    w.threads[t]? = some th → th.rest.next? = some (.sendError err) →
      ready ch w.state (.sendError err) = true
  /-- Nobody is blocked for good before the call has ended. -/
  progress : ∀ (t : ℕ) (th : Thread (finalizing R q)), w.threads[t]? = some th →
    th.call = .execute → th.rest.result? = none → CanMove w

/-- What a thread is about to do is allowed by its guard; only the executor does
what the executor's guard is about. -/
theorem guard_of_next {w : World (finalizing R q)} (hok : (finalizingContract R q).Ok w)
    {t : ℕ} {th : Thread (finalizing R q)} (hthread : w.threads[t]? = some th)
    {o : RenewalOp R} (hnext : th.rest.next? = some o) :
    (th.call = .execute ∧ executorGuard q th.hist o) ∨
      (th.call ≠ .execute ∧ goroutineGuard th.hist o) := by
  obtain ⟨c, h, rest⟩ := th
  cases rest with
  | ret r => cases hnext
  | call o' k =>
      cases hnext
      have hg := hok.guard hthread
      cases c with
      | execute => exact .inl ⟨rfl, hg⟩
      | renewal => exact .inr ⟨nofun, hg⟩

end

/-- `executeWithCoordinator` finalises its claim exactly once, in every run with
its renewal goroutine. -/
theorem finalises_once (R : Runtime) (q : Request) (acts : List (Act (finalizing R q)))
    (hu : World.Always Unblocked (q.start R) acts) : FinalisesOnce ((q.start R).run acts) := by
  have hinv : (finalizingContract R q).Ok ((q.start R).run acts) ∧ Joint ((q.start R).run acts) :=
    World.run_invariant_of_always joint_moves
      ⟨(finalizingContract R q).ok_init {}, Joint.idle rfl rfl⟩ hu
  obtain ⟨hok, hj⟩ := hinv
  refine ⟨?_, ?_, ?_, ?_, ?_, ?_⟩
  · intro t th msg hthread hnext
    rcases guard_of_next hok hthread hnext with ⟨-, hg⟩ | ⟨-, -, hg⟩
    · exact hg.2
    · exact hg.elim
  · intro t th key token entry ttl hthread hnext
    rcases guard_of_next hok hthread hnext with ⟨hcall, hg⟩ | ⟨-, -, hg⟩
    · obtain ⟨hkey, hacq, hfirst, hjoin, hres⟩ := hg
      exact ⟨hkey, hacq, hfirst, hres, noneRecorded_of_received hok hj hthread hcall hjoin,
        noneInFlight_of_awaited hok hj hthread hcall fun hst => (hjoin hst).1⟩
    · exact hg.elim
  · intro t th key token hthread hnext
    rcases guard_of_next hok hthread hnext with ⟨hcall, hg⟩ | ⟨-, -, hg⟩
    · obtain ⟨hkey, hacq, hfirst, hnil, hjoin⟩ := hg
      exact ⟨hkey, hacq, hfirst, hnil, noneInFlight_of_awaited hok hj hthread hcall hjoin⟩
    · exact hg.elim
  · intro t th r hthread hcall hres
    have hpost := hok.post hthread hres
    rw [hcall] at hpost
    exact hpost
  · intro t th err ch hthread hnext
    rcases guard_of_next hok hthread hnext with ⟨-, hg⟩ | ⟨hcall, hg⟩
    · exact hg.elim
    · exact send_ready hj hthread hcall hg ch
  · exact fun t th hthread hcall hrun => canMove_of_running hok hj hthread hcall hrun

/-! ### A renewal that fails -/

def sampleRequest : Request := ⟨true, sampleConfig, sampleMsg, "k", "h"⟩

/-- The claim is acquired, and the renewal fails while the action succeeds. -/
def failingRenewal : RenewalChoice .plain where
  claim := .ok { state := .acquired, token := "t" }
  outcome := .value []
  marshalled := .value []
  now := .zero
  completed := none
  released := none
  renewed := some (.app .conflict "lease lost")
  tick := true

/-- The executor runs the action; the goroutine wakes up, fails to renew the lease,
reports that and ends; the executor stops it, finds the error and releases. -/
def renewalFailed : List (Act (finalizing .plain sampleRequest)) :=
  .spawn .execute :: List.replicate 3 (.step 0 failingRenewal) ++
    .spawn (.renewal "k" "t" 10 1) :: List.replicate 9 (.step 1 failingRenewal) ++
    List.replicate 9 (.step 0 failingRenewal)

theorem finalises_once_after_failed_renewal :
    World.Always Unblocked (sampleRequest.start .plain) renewalFailed ∧
      FinalisesOnce ((sampleRequest.start .plain).run renewalFailed) ∧
      ∃ th, ((sampleRequest.start .plain).run renewalFailed).threads[0]? = some th ∧
        th.rest.result? = some (some (failReply .plain (.app .conflict "lease lost"))) ∧
        times .complete th.hist = 0 ∧ times .release th.hist = 1 :=
  have hu : World.Always Unblocked (sampleRequest.start .plain) renewalFailed := by
    decide +kernel
  ⟨hu, finalises_once .plain sampleRequest renewalFailed hu, _, rfl, rfl, rfl, rfl⟩

end TransportNats.Renewal
