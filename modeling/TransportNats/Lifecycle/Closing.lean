import TransportNats.Lifecycle.Ownership

/-!
The life of a connection between `EnsureConn` and `Close`.

When no run of `Do` resets it, `closing` is set for good by the first `Close`.
From then on no dial is registered, and one that was registered before has its
context cancelled by the `Close` that found it. A `Close` that has returned has
taken the connection under the gate, so nobody can have dialed since, and a call
of `EnsureConn` that starts later fails at its first look.
-/

namespace TransportNats.Lifecycle

open Interleaving

/-! ### Admissible runs -/

/-- Every call that enters is one of those considered, and an operation is
performed only when it can go through. -/
def admissible (admits : Call → Bool) (w : World transport) : Act transport → Bool
  | .spawn c => admits c
  | .step t ch =>
      match w.performs? (.step t ch) with
      | some (_, o) => ready ch w.state o
      | none => true
  | .env _ => true

def Admissible (admits : Call → Bool) (w : World transport) (a : Act transport) : Prop :=
  admissible admits w a = true

instance (admits : Call → Bool) (w : World transport) (a : Act transport) :
    Decidable (Admissible admits w a) := inferInstanceAs (Decidable (_ = _))

theorem regular_of_admissible {admits : Call → Bool} {w : World transport} {a : Act transport}
    (ha : Admissible admits w a) :
    watched.Regular (fun c => admits c = true) (fun ch s _ o => ready ch s o = true) w a := by
  cases a with
  | spawn c => exact ha
  | step t ch =>
      intro c o hp
      simpa only [Admissible, admissible, hp] using ha
  | env e => trivial

/-! ### Calls of `EnsureConn` and `Close` alone -/

def Call.connects : Call → Bool
  | .ensureConn _ _ | .close => true
  | _ => false

/-- The context of the token is done. -/
def Link.Cancelled (l : Link) (tok : Token) : Prop := ∃ err, (tok, err) ∈ l.cancelled

/-- What holds of the link when nothing clears `closing`. -/
structure Ending (l : Link) (ms : List LinkMarks) : Prop where
  owned : Owned l ms
  closes : ∀ (i : ℕ) (m : LinkMarks), ms[i]? = some m → m.closes = true → l.closing = true
  cancels : l.closing = true → ∀ (i : ℕ) (m : LinkMarks), ms[i]? = some m →
    ∀ tok, m.registered = some tok →
      l.Cancelled tok ∨ ∃ (j : ℕ) (n : LinkMarks), ms[j]? = some n ∧ n.owes = some tok
  took : ∀ (i : ℕ) (m : LinkMarks), ms[i]? = some m → m.took = true → Shut l ms i

section
variable {l : Link} {ms : List LinkMarks} {t : ℕ} {m : LinkMarks} {p : PoolMarks} {s : State}
  {ch : Choice}

theorem LinkOp.exec_closing {ch : (o : LinkOp) → o.Ret} (hl : l.closing = true) (o : LinkOp) :
    (o.exec ch l).1.closing = true := by
  cases o with
  | lockConnect ctx =>
      simp only [LinkOp.exec]
      split <;> exact hl
  | publishCancel tok =>
      simp only [LinkOp.exec]
      split <;> exact hl
  | connect url =>
      simp only [LinkOp.exec]
      split <;> exact hl
  | storeConn nc =>
      simp only [LinkOp.exec]
      split <;> exact hl
  | setClosing => rfl
  | _ => exact hl

theorem LinkMarks.after_took {o : LinkOp} (ho : o ≠ .takeConn) (r : o.Ret) :
    (m.after o r).took = m.took := by
  cases o with
  | takeConn => exact absurd rfl ho
  | lockConnect ctx => cases r <;> rfl
  | publishCancel tok => cases r <;> rfl
  | connect url => cases r <;> rfl
  | storeConn nc => cases r <;> rfl
  | _ => rfl

theorem LinkMarks.after_closes {o : LinkOp} (ho : o ≠ .setClosing) (r : o.Ret) :
    (m.after o r).closes = m.closes := by
  cases o with
  | setClosing => exact absurd rfl ho
  | lockConnect ctx => cases r <;> rfl
  | publishCancel tok => cases r <;> rfl
  | connect url => cases r <;> rfl
  | storeConn nc => cases r <;> rfl
  | _ => rfl

theorem Ending.closes_step (he : Ending s.link ms) (ht : ms[t]? = some m) (o : LinkOp) :
    ∀ (i : ℕ) (x : LinkMarks),
      (ms.set t (m.after o (o.exec (fun o => ch (.link o)) s.link).2))[i]? = some x →
      x.closes = true → (o.exec (fun o => ch (.link o)) s.link).1.closing = true := by
  refine forall_set (fun hx => ?_) fun i x _ hi hx => o.exec_closing (he.closes i x hi hx)
  by_cases ho : o = .setClosing
  · subst ho
    rfl
  · rw [LinkMarks.after_closes ho] at hx
    exact o.exec_closing (he.closes t m ht hx)

theorem Ending.took_step (he : Ending s.link ms) (ht : ms[t]? = some m) {o : LinkOp}
    (ha : m.allows p o) :
    ∀ (i : ℕ) (x : LinkMarks),
      (ms.set t (m.after o (o.exec (fun o => ch (.link o)) s.link).2))[i]? = some x →
      x.took = true → Shut (o.exec (fun o => ch (.link o)) s.link).1
        (ms.set t (m.after o (o.exec (fun o => ch (.link o)) s.link).2)) i := by
  refine forall_set (fun hx => ?_) fun i x _ hi hx => (he.took i x hi hx).step ht ha
  by_cases ho : o = .takeConn
  · subst ho
    exact Shut.take he.owned ht ha.1 ha.2.2.1 (he.closes t m ht ha.2.2.2.1)
  · rw [LinkMarks.after_took ho] at hx
    exact (he.took t m ht hx).step ht ha

/-- A goroutine that registers nothing and still owes what it owed keeps the
promise that registered dials are cancelled. -/
theorem Ending.cancels_update (he : Ending l ms) (ht : ms[t]? = some m) {l' : Link}
    (m' : LinkMarks) (hclosing : l'.closing = l.closing) (hcancelled : l.cancelled ⊆ l'.cancelled)
    (hreg : m'.registered = m.registered ∨ m'.registered = none)
    (howes : ∀ tok, m.owes = some tok → m'.owes = some tok ∨ l'.Cancelled tok) :
    l'.closing = true → ∀ (i : ℕ) (x : LinkMarks), (ms.set t m')[i]? = some x →
      ∀ tok, x.registered = some tok → l'.Cancelled tok ∨
        ∃ (j : ℕ) (n : LinkMarks), (ms.set t m')[j]? = some n ∧ n.owes = some tok := by
  intro hl'
  have hold : ∀ (i : ℕ) (x : LinkMarks), ms[i]? = some x → ∀ tok, x.registered = some tok →
      l'.Cancelled tok ∨
        ∃ (j : ℕ) (n : LinkMarks), (ms.set t m')[j]? = some n ∧ n.owes = some tok := by
    intro i x hx tok htok
    rcases he.cancels (hclosing.symm.trans hl') i x hx tok htok with ⟨err, herr⟩ | ⟨j, n, hn, hown⟩
    · exact .inl ⟨err, hcancelled herr⟩
    · by_cases hj : j = t
      · subst hj
        obtain rfl := Option.some.inj (hn.symm.trans ht)
        rcases howes tok hown with h | h
        · exact .inr ⟨j, m', getElem?_set_self_of ht m', h⟩
        · exact .inl h
      · exact .inr ⟨j, n, by rwa [List.getElem?_set_ne (Ne.symm hj)], hown⟩
  refine forall_set (fun tok htok => ?_) fun i x _ hx => hold i x hx
  rcases hreg with hreg | hreg
  · exact hold t m ht tok (hreg.symm.trans htok)
  · rw [hreg] at htok
    cases htok

theorem Ending.cancels_step (he : Ending s.link ms) (ht : ms[t]? = some m) {o : LinkOp}
    (howes : ∀ tok, m.owes = some tok → o = .cancel tok) :
    (o.exec (fun o => ch (.link o)) s.link).1.closing = true →
    ∀ (i : ℕ) (x : LinkMarks),
      (ms.set t (m.after o (o.exec (fun o => ch (.link o)) s.link).2))[i]? = some x →
      ∀ tok, x.registered = some tok →
        (o.exec (fun o => ch (.link o)) s.link).1.Cancelled tok ∨
          ∃ (j : ℕ) (n : LinkMarks),
            (ms.set t (m.after o (o.exec (fun o => ch (.link o)) s.link).2))[j]? = some n ∧
              n.owes = some tok := by
  have hsame : ∀ tok, m.owes = some tok → m.owes = some tok ∨ s.link.Cancelled tok :=
    fun _ h => .inl h
  have hkeep : s.link.cancelled ⊆ s.link.cancelled := List.Subset.refl _
  have hquiet := he.cancels_update ht m rfl hkeep (.inl rfl) hsame
  cases o with
  | cancel tok =>
      refine he.cancels_update ht _ rfl (List.subset_append_left _ _) (.inl rfl) fun tok' h => ?_
      cases howes tok' h
      exact .inr ⟨.canceled, List.mem_append_right _ (List.mem_singleton.mpr rfl)⟩
  | setClosing =>
      intro _
      -- whoever is registered has published the function that `Close` has read
      have howner : ∀ (i : ℕ) (x : LinkMarks), ms[i]? = some x → ∀ tok, x.registered = some tok →
          s.link.connectCancel = some tok :=
        fun i x hx tok htok => (he.owned.fits i x hx).registered tok htok
      refine forall_set (fun tok htok => ?_) fun i x _ hx tok htok => ?_
      · exact .inr ⟨t, _, getElem?_set_self_of ht _, howner t m ht tok htok⟩
      · exact .inr ⟨t, _, getElem?_set_self_of ht _, howner i x hx tok htok⟩
  | publishCancel tok =>
      simp only [LinkOp.exec]
      split
      · exact hquiet
      · rename_i hclosing
        exact fun h => absurd h hclosing
  | lockConnect ctx =>
      simp only [LinkOp.exec]
      split
      · exact hquiet
      · exact he.cancels_update ht _ rfl hkeep (.inl rfl) hsame
  | connect url =>
      simp only [LinkOp.exec]
      split
      · exact hquiet
      · exact he.cancels_update ht _ rfl hkeep (.inl rfl) hsame
  | storeConn nc =>
      simp only [LinkOp.exec]
      split
      · exact hquiet
      · exact he.cancels_update ht _ rfl hkeep (.inl rfl) hsame
  | withdrawCancel => exact he.cancels_update ht _ rfl hkeep (.inr rfl) hsame
  | withCancel => exact he.cancels_update ht m rfl hkeep (.inl rfl) hsame
  | readConn => exact he.cancels_update ht _ rfl hkeep (.inl rfl) hsame
  | isClosed nc => exact he.cancels_update ht _ rfl hkeep (.inl rfl) hsame
  | lockGate => exact he.cancels_update ht _ rfl hkeep (.inl rfl) hsame
  | unlockConnect => exact he.cancels_update ht _ rfl hkeep (.inl rfl) hsame
  | closeConn nc => exact he.cancels_update ht _ rfl hkeep (.inl rfl) hsame
  | takeConn => exact he.cancels_update ht _ rfl hkeep (.inl rfl) hsame
  | _ => exact hquiet

theorem Ending.step (he : Ending s.link ms) (ht : ms[t]? = some m) {o : LinkOp}
    (ha : m.allows p o) (howes : ∀ tok, m.owes = some tok → o = .cancel tok)
    (hr : (Op.link o).canProceed ch s = true) :
    Ending (o.exec (fun o => ch (.link o)) s.link).1
      (ms.set t (m.after o (o.exec (fun o => ch (.link o)) s.link).2)) where
  owned := he.owned.step ht ha hr
  closes := he.closes_step ht o
  cancels := he.cancels_step ht howes
  took := he.took_step ht ha

end

/-- What holds in every run of `EnsureConn` and `Close` calls. -/
structure Connecting (s : State) (ms : List Marks) : Prop where
  ending : Ending s.link (links ms)
  calm : ∀ (i : ℕ) (m : Marks), ms[i]? = some m →
    m.pool.runner = false ∧ m.pool.running = false
  mutex : s.readiness.mutexLost = false

theorem Ending.enter {l : Link} {ms : List LinkMarks} (he : Ending l ms) :
    Ending l (ms ++ [atRest false false]) where
  owned := he.owned.enter
  closes := forall_enter nofun he.closes
  cancels hl := forall_enter nofun fun i m hm tok htok =>
    (he.cancels hl i m hm tok htok).imp_right exists_enter
  took := forall_enter nofun fun i m hm hm' => (he.took i m hm hm').enter

theorem Ending.keeps {l l' : Link} {ms : List LinkMarks} (he : Ending l ms) (hk : l.Keeps l')
    (hclosing : l'.closing = l.closing) (hcancelled : l.cancelled ⊆ l'.cancelled) :
    Ending l' ms where
  owned := he.owned.keeps hk
  closes i m hm hc := hclosing.trans (he.closes i m hm hc)
  cancels hl i m hm tok htok := (he.cancels (hclosing.symm.trans hl) i m hm tok htok).imp_left
    fun ⟨err, herr⟩ => ⟨err, hcancelled herr⟩
  took i m hm hm' :=
    let hs := he.took i m hm hm'
    hs.keeps hk (hclosing.trans hs.closing)

theorem Marks.owes_of_allows {m : Marks} {o : LinkOp} (ha : m.allows (.link o)) :
    ∀ tok, m.link.owes = some tok → o = .cancel tok := by
  intro tok htok
  unfold Marks.allows at ha
  rw [htok] at ha
  cases ha
  rfl

theorem Marks.allows_pool {m : Marks} {o : PoolOp} (ha : m.allows (.pool o)) :
    m.pool.allows m.link m.listen o := by
  unfold Marks.allows at ha
  split at ha
  · cases ha
  · exact ha

/-- Not one of the operations that only a run performs. -/
structure PoolOp.Foreign (o : PoolOp) : Prop where
  stop : o ≠ .stopRunning
  clear : o ≠ .clearClosing
  take : o ≠ .takeResources
  worker : ∀ g, o ≠ .goWorker g

/-- Who does not run does not touch `closing`, and starts no worker. -/
theorem PoolMarks.foreign_of_allows {p : PoolMarks} {l : LinkMarks} {q : ListenMarks} {o : PoolOp}
    (hrunning : p.running = false) (ha : p.allows l q o) : o.Foreign := by
  have hserving : p.serving = false := by simp [PoolMarks.serving, hrunning]
  constructor
  · rintro rfl
    exact absurd (hrunning.symm.trans ha.1) Bool.false_ne_true
  · rintro rfl
    exact absurd (hrunning.symm.trans ha.1) Bool.false_ne_true
  · rintro rfl
    exact absurd (hserving.symm.trans ha.1) Bool.false_ne_true
  · rintro g rfl
    exact absurd (hserving.symm.trans ha.1) Bool.false_ne_true

theorem PoolMarks.after_runner (p : PoolMarks) (o : PoolOp) (r : o.Ret) :
    (p.after o r).runner = p.runner := by
  cases o with
  | startRunning => cases r <;> rfl
  | ensureJetStream => cases r <;> rfl
  | openResource what => cases r <;> rfl
  | goWorker g => cases g <;> rfl
  | startWorker => cases r <;> rfl
  | _ => rfl

theorem PoolMarks.after_running (p : PoolMarks) {o : PoolOp} (hstart : o ≠ .startRunning)
    (hstop : o ≠ .stopRunning) (r : o.Ret) : (p.after o r).running = p.running := by
  cases o with
  | startRunning => exact absurd rfl hstart
  | stopRunning => exact absurd rfl hstop
  | ensureJetStream => cases r <;> rfl
  | openResource what => cases r <;> rfl
  | goWorker g => cases g <;> rfl
  | startWorker => cases r <;> rfl
  | _ => rfl

/-- Only a run signals readiness. -/
theorem Marks.allows_signalReady {m : Marks} {err : Option Err}
    (ha : m.allows (.ready (.signalReady err))) :
    m.pool.running = true ∧ m.listen.live = true ∧ (err = none → m.listen.read ≠ none) := by
  unfold Marks.allows at ha
  split at ha
  · cases ha
  · exact ha

/-- A goroutine that may not start a run does not start one. -/
theorem Marks.calm_after {m : Marks} {o : Op} (hrunner : m.pool.runner = false)
    (hrunning : m.pool.running = false) (ha : m.allows o) (r : o.Ret) :
    (m.after ⟨o, r⟩).pool.runner = false ∧ (m.after ⟨o, r⟩).pool.running = false := by
  cases o with
  | pool o =>
      have hallows := Marks.allows_pool ha
      have hstop := (PoolMarks.foreign_of_allows hrunning hallows).stop
      have hstart : o ≠ .startRunning := by
        rintro rfl
        exact absurd (hrunner.symm.trans hallows.1) Bool.false_ne_true
      exact ⟨(m.pool.after_runner o r).trans hrunner,
        (m.pool.after_running hstart hstop r).trans hrunning⟩
  | link o => exact ⟨hrunner, hrunning⟩
  | ready o => exact ⟨hrunner, hrunning⟩
  | external o => exact ⟨hrunner, hrunning⟩

theorem connecting_step {ch : Choice} {s : State} {ms : List Marks} {t : ℕ} {m : Marks} {o : Op}
    (ht : ms[t]? = some m) (ha : m.allows o) (hr : ready ch s o = true) (hc : Connecting s ms) :
    Connecting (exec ch s o).1 (ms.set t (m.after ⟨o, (exec ch s o).2⟩)) := by
  obtain ⟨hrunner, hrunning⟩ := hc.calm t m ht
  have hsame : ∀ m' : Marks, m'.link = m.link → Ending s.link (links (ms.set t m')) :=
    fun m' hm' => (links_set_of_eq ht m' hm').symm ▸ hc.ending
  refine ⟨?_, forall_set (Marks.calm_after hrunner hrunning ha _) fun i x _ hx => hc.calm i x hx,
    ?_⟩
  · cases o with
    | link o =>
        rw [links_set]
        exact hc.ending.step (getElem?_links ht) (Marks.allows_link ha) (Marks.owes_of_allows ha)
          (Bool.and_eq_true_iff.mp hr).1
    | pool o =>
        have hending := hsame (m.after ⟨.pool o, (exec ch s (.pool o)).2⟩) rfl
        have hforeign := PoolMarks.foreign_of_allows hrunning (Marks.allows_pool ha)
        refine hending.keeps (PoolOp.exec_keeps _ s o)
          (PoolOp.exec_closing hforeign.clear hforeign.take _ s) ?_
        exact fun _ h => (PoolOp.exec_cancelled _ s o).symm ▸ h
    | ready o => exact hsame (m.after ⟨.ready o, _⟩) rfl
    | external o => exact hsame (m.after ⟨.external o, _⟩) rfl
  · cases o with
    | link o => exact hc.mutex
    | pool o => exact (congrArg Readiness.mutexLost (PoolOp.exec_readiness _ s o)).trans hc.mutex
    | ready o =>
        cases o with
        | signalReady err =>
            exact absurd (hrunning.symm.trans (Marks.allows_signalReady ha).1) Bool.false_ne_true
        | awaitReady ctx => exact hc.mutex
        | readReadyErr => exact hc.mutex
    | external o => exact hc.mutex

theorem connecting_enter {c : Call} {s s' : State} {ms : List Marks} (hallowed : c.connects = true)
    (henter : c.enter s = some s') (hc : Connecting s ms) : Connecting s' (ms ++ [c.marks]) := by
  have hending : Ending s.link (links (ms ++ [c.marks])) :=
    (links_enter ms c).symm ▸ hc.ending.enter
  cases c with
  | ensureConn signals ctx =>
      cases henter
      exact ⟨hending, forall_enter ⟨rfl, rfl⟩ hc.calm, hc.mutex⟩
  | close =>
      cases henter
      exact ⟨hending, forall_enter ⟨rfl, rfl⟩ hc.calm, hc.mutex⟩
  | _ => cases hallowed

theorem connecting_env {e : Event} {s : State} {ms : List Marks} (hc : Connecting s ms) :
    Connecting (e.happen s) ms := by
  refine ⟨hc.ending.keeps (Event.happen_keeps s e) ?_ ?_, hc.calm, ?_⟩ <;> cases e
  · rfl
  · rfl
  · exact List.subset_append_left _ _
  · exact List.Subset.refl _
  · exact hc.mutex
  · exact hc.mutex

theorem connecting_built {s : State} (hs : Built s) : Connecting s [] := by
  have hempty : ∀ l : Link, l.dials = 0 → (l.conn = some .supplied → l.providedConn = true) →
      (l.providedConn = true → l.conn = none ∨ l.conn = some .supplied) → Ending l (links []) :=
    fun l hdials hsup hprov =>
      { owned :=
          { gate := Exclusive.nil
            fits := by simp [links]
            owned := fun n hn => by omega
            supplied := hsup
            provided := hprov }
        closes := by simp [links]
        cancels := by simp [links]
        took := by simp [links] }
  cases hs with
  | new rawURL initErr embedded => 
      exact ⟨hempty _ rfl (by simp [newTransport]) (by simp [newTransport]), by simp, rfl⟩
  | fromConn nc =>
      refine ⟨hempty _ rfl (fun _ => rfl) (fun _ => ?_), by simp, rfl⟩
      cases nc with
      | none => exact .inl rfl
      | some nc => exact .inr rfl

/-- The world of a transport that has just been built. -/
def built (s : State) : World transport := World.init s

/-- The invariant in every run of `EnsureConn` and `Close` calls. -/
theorem connecting_run {s : State} (hs : Built s) {acts : List (Act transport)}
    (hadm : World.Always (Admissible Call.connects) (built s) acts) :
    watched.contract.Ok ((built s).run acts) ∧
      Connecting ((built s).run acts).state (watched.marks ((built s).run acts)) :=
  Watch.run_invariant (K := watched) (I := Connecting)
    (fun hallowed henter hc => connecting_enter hallowed henter hc)
    (fun ht ha hr hc => connecting_step ht ha hr hc) connecting_env
    (watched.contract.ok_init s) (connecting_built hs) (hadm.mono regular_of_admissible)

/-! ### What that means -/

/-- The marks of a goroutine that concern the connection. -/
def linkMarks (th : Thread transport) : LinkMarks := (watched.mark th).link

def IsOpen (w : World transport) (n : ℕ) : Prop :=
  n < w.state.link.dials ∧ .dialed n ∉ w.state.link.closed

/-- A dial begins when its cancel function is registered. -/
def BeginsDial (w : World transport) (a : Act transport) : Prop :=
  ∃ (t : ℕ) (th th' : Thread transport) (tok : Token), w.threads[t]? = some th ∧
    (w.act a).threads[t]? = some th' ∧ (linkMarks th).registered = none ∧
    (linkMarks th').registered = some tok

/-- A call of `Close` has returned. -/
def HasClosed (w : World transport) : Prop :=
  ∃ (t : ℕ) (th : Thread transport), w.threads[t]? = some th ∧ th.call = .close ∧
    th.rest.result?.isSome

/-- What holds at every moment in the life of the connection of a transport that
was built as `s`. -/
structure ConnectionSafe (s : State) (w : World transport) : Prop where
  /-- At most one dialed connection is open. -/
  single : ∀ n k, IsOpen w n → IsOpen w k → n = k
  /-- It is the transport's, or in the hand of the one that has the gate. -/
  held : ∀ n, IsOpen w n → w.state.link.conn = some (.dialed n) ∨
    ∃ (t : ℕ) (th : Thread transport), w.threads[t]? = some th ∧ (linkMarks th).gate = true ∧
      (linkMarks th).hand = some (.dialed n)
  gate : ∀ (t u : ℕ) (th th' : Thread transport), w.threads[t]? = some th →
    w.threads[u]? = some th' → (linkMarks th).gate = true → (linkMarks th').gate = true → t = u
  /-- Nobody dials who has not registered, and nobody registers while `closing`. -/
  dials : ∀ (t : ℕ) (th : Thread transport) (url : String), w.threads[t]? = some th →
    th.rest.next? = some (.link (.connect url)) → (linkMarks th).registered ≠ none
  begins : w.state.link.closing = true → ∀ a, ¬ BeginsDial w a
  /-- While `closing`, a registered dial is cancelled, or a `Close` is just about
  to cancel it. -/
  cancelled : w.state.link.closing = true → ∀ (t : ℕ) (th : Thread transport) (tok : Token),
    w.threads[t]? = some th → (linkMarks th).registered = some tok →
    w.state.link.Cancelled tok ∨ ∃ (u : ℕ) (th' : Thread transport), w.threads[u]? = some th' ∧
      th'.rest.next? = some (.link (.cancel tok))
  /-- After a `Close` there is no connection and none is open. -/
  closed : HasClosed w → w.state.link.closing = true ∧ w.state.link.conn = none ∧
    ∀ n, n < w.state.link.dials → .dialed n ∈ w.state.link.closed
  /-- A supplied connection is neither replaced nor closed. -/
  supplied : s.link.providedConn = true →
    w.state.link.conn = none ∨ w.state.link.conn = some .supplied
  spared : ∀ (t : ℕ) (th : Thread transport), w.threads[t]? = some th →
    th.rest.next? ≠ some (.link (.closeConn .supplied))

/-- The call has returned an error, or it is still within its first two
operations and the next one does not wait. -/
def ReturnsError (th : Thread transport) : Prop :=
  (∃ err, th.rest.result? = some (.ensured (.error err))) ∨
    th.hist.length < 2 ∧ ∃ o, th.rest.next? = some o ∧
      ∀ ch s, s.readiness.mutexLost = false → ready ch s o = true

section
variable {w : World transport}

theorem allows_of_next (hok : watched.contract.Ok w) {t : ℕ} {th : Thread transport} {o : Op}
    (ht : w.threads[t]? = some th) (hnext : th.rest.next? = some o) :
    (watched.mark th).allows o := by
  obtain ⟨c, h, rest⟩ := th
  cases rest with
  | ret r => cases hnext
  | call o' k =>
      cases hnext
      exact hok.guard ht

theorem idle_of_returned (hok : watched.contract.Ok w) {t : ℕ} {th : Thread transport}
    (ht : w.threads[t]? = some th) (hret : th.rest.result?.isSome) :
    (watched.mark th).Idle ∧ (th.call = .close → (linkMarks th).took = true) := by
  obtain ⟨r, hr⟩ := Option.isSome_iff_exists.mp hret
  exact hok.post ht hr

/-- Whoever owes a call of a cancel function is about to make it. -/
theorem next_of_owes (hok : watched.contract.Ok w) {t : ℕ} {th : Thread transport} {tok : Token}
    (ht : w.threads[t]? = some th) (howes : (linkMarks th).owes = some tok) :
    th.rest.next? = some (.link (.cancel tok)) := by
  have howes' : (watched.mark th).link.owes = some tok := howes
  cases hnext : th.rest.next? with
  | none =>
      have hret : th.rest.result?.isSome := by
        cases hrest : th.rest with
        | ret r => rfl
        | call o k =>
            rw [hrest] at hnext
            cases hnext
      obtain ⟨⟨closes, took, hlink⟩, -, -, -⟩ := (idle_of_returned hok ht hret).1
      rw [hlink] at howes'
      cases howes'
  | some o =>
      have ha := allows_of_next hok ht hnext
      unfold Marks.allows at ha
      rw [howes'] at ha
      exact congrArg some ha

theorem getElem?_linkMarks {t : ℕ} {th : Thread transport} (ht : w.threads[t]? = some th) :
    (links (watched.marks w))[t]? = some (linkMarks th) :=
  getElem?_links (watched.getElem?_marks ht)

theorem exists_of_getElem?_linkMarks {t : ℕ} {l : LinkMarks}
    (ht : (links (watched.marks w))[t]? = some l) :
    ∃ th, w.threads[t]? = some th ∧ linkMarks th = l := by
  obtain ⟨m, hm, rfl⟩ := exists_of_getElem?_links ht
  obtain ⟨th, hth, rfl⟩ := watched.exists_of_getElem?_marks hm
  exact ⟨th, hth, rfl⟩

/-- Nobody registers a dial on a closing transport. -/
theorem LinkMarks.after_registered {l : Link} {ch : (o : LinkOp) → o.Ret} (hl : l.closing = true)
    (m : LinkMarks) (o : LinkOp) {tok : Token}
    (htok : (m.after o (o.exec ch l).2).registered = some tok) : m.registered = some tok := by
  cases o with
  | publishCancel tok' => simpa [LinkOp.exec, hl, LinkMarks.after] using htok
  | withdrawCancel => cases htok
  | lockConnect ctx =>
      simp only [LinkOp.exec] at htok
      split at htok <;> exact htok
  | connect url =>
      simp only [LinkOp.exec] at htok
      split at htok <;> exact htok
  | storeConn nc =>
      simp only [LinkOp.exec] at htok
      split at htok <;> exact htok
  | _ => exact htok

theorem not_beginsDial (hclosing : w.state.link.closing = true) (a : Act transport) :
    ¬ BeginsDial w a := by
  rintro ⟨t, th, th', tok, ht, ht', hnone, hsome⟩
  obtain ⟨th'', ht'', hlater⟩ := (World.moves_act w a).thread ht
  obtain rfl := Option.some.inj (ht'.symm.trans ht'')
  have hne : th' ≠ th := by
    rintro rfl
    rw [hnone] at hsome
    cases hsome
  -- the entry has changed, so the goroutine has performed
  cases a with
  | spawn c =>
      rcases hm : transport.enter c w.state with _ | s
      · rw [World.act, hm] at ht'
        exact hne (Option.some.inj (ht'.symm.trans ht))
      · rw [World.act_spawn hm] at ht'
        have hlt := (List.getElem?_eq_some_iff.mp ht).1
        rw [List.getElem?_append_left hlt] at ht'
        exact hne (Option.some.inj (ht'.symm.trans ht))
  | env e => exact hne (Option.some.inj (ht'.symm.trans ht))
  | step u ch =>
      by_cases hu : t = u
      · subst hu
        obtain ⟨c, h, rest⟩ := th
        cases rest with
        | ret r =>
            exact hne (hlater.done rfl)
        | call o k =>
            rw [World.getElem?_act_step ch ht] at ht'
            obtain rfl := Option.some.inj ht'
            have hreg : (watched.mark ⟨c, h, .call o k⟩).link.registered = some tok := by
              cases o with
              | link o => exact LinkMarks.after_registered hclosing _ o hsome
              | pool o => exact hsome
              | ready o => exact hsome
              | external o => exact hsome
            cases hnone.symm.trans hreg
      · rw [World.getElem?_act_step_ne ch hu] at ht'
        exact hne (Option.some.inj (ht'.symm.trans ht))

/-- A supplied connection stays one. -/
theorem providedConn_run (w : World transport) (acts : List (Act transport)) :
    (w.run acts).state.link.providedConn = w.state.link.providedConn := by
  refine World.run_invariant
    (P := fun v : World transport => v.state.link.providedConn = w.state.link.providedConn)
    (fun {w₁ a w₂} hm hw => ?_) rfl acts
  refine Eq.trans ?_ hw
  cases hm with
  | idle => rfl
  | enter h => exact congrArg Link.providedConn (Call.enter_link h)
  | @perform t ch c h o k ht =>
      cases o with
      | link o =>
          change ((LinkOp.exec (fun o => ch (.link o)) w₁.state.link o).1).providedConn = _
          cases o <;> simp only [LinkOp.exec] <;> repeat' split
          all_goals rfl
      | pool o => exact (PoolOp.exec_keeps _ w₁.state o).providedConn
      | ready o => rfl
      | external o => rfl
  | env e => exact (Event.happen_keeps w₁.state e).providedConn

theorem connectionSafe_of_connecting {s : State}
    (hprov : w.state.link.providedConn = s.link.providedConn)
    (hok : watched.contract.Ok w) (hc : Connecting w.state (watched.marks w)) :
    ConnectionSafe s w := by
  have ho := hc.ending.owned
  have hheld : ∀ n, IsOpen w n → w.state.link.conn = some (.dialed n) ∨
      ∃ (t : ℕ) (th : Thread transport), w.threads[t]? = some th ∧ (linkMarks th).gate = true ∧
        (linkMarks th).hand = some (.dialed n) := by
    rintro n ⟨hn, hopen⟩
    refine (ho.owned n hn hopen).imp_right fun ⟨t, m, hm, hhand⟩ => ?_
    obtain ⟨th, hth, rfl⟩ := exists_of_getElem?_linkMarks hm
    exact ⟨t, th, hth, (ho.fits t _ hm).locked (.inr (.inr (.inl (by simp [hhand])))), hhand⟩
  have hgate : ∀ (t u : ℕ) (th th' : Thread transport), w.threads[t]? = some th →
      w.threads[u]? = some th' → (linkMarks th).gate = true → (linkMarks th').gate = true →
      t = u := fun t u th th' ht hu =>
    ho.gate.unique t u _ _ (getElem?_linkMarks ht) (getElem?_linkMarks hu)
  -- what is in a hand stands beside a transport without an open connection
  have hvacant : ∀ {n k t : ℕ} {th : Thread transport}, w.threads[t]? = some th →
      (linkMarks th).hand = some (.dialed n) → IsOpen w k →
      w.state.link.conn ≠ some (.dialed k) := by
    intro n k t th ht hhand hk hconn
    exact hk.2 ((ho.fits t _ (getElem?_linkMarks ht)).vacant (.inr (by simp [hhand])) _ hconn)
  refine ⟨?_, hheld, hgate, ?_, fun h a => not_beginsDial h a, ?_, ?_, ?_, ?_⟩
  · intro n k hn hk
    rcases hheld n hn with hconn | ⟨t, th, ht, htg, hth⟩ <;>
      rcases hheld k hk with hconn' | ⟨u, th', hu, hug, hth'⟩
    · simpa using hconn.symm.trans hconn'
    · exact absurd hconn (hvacant hu hth' hn)
    · exact absurd hconn' (hvacant ht hth hk)
    · obtain rfl := hgate t u th th' ht hu htg hug
      obtain rfl := Option.some.inj (ht.symm.trans hu)
      simpa using hth.symm.trans hth'
  · intro t th url ht hnext
    exact (Marks.allows_link (allows_of_next hok ht hnext)).2.2.2
  · intro hclosing t th tok ht hreg
    refine (hc.ending.cancels hclosing t _ (getElem?_linkMarks ht) tok hreg).imp_right
      fun ⟨u, m, hm, howes⟩ => ?_
    obtain ⟨th', hth', rfl⟩ := exists_of_getElem?_linkMarks hm
    exact ⟨u, th', hth', next_of_owes hok hth' howes⟩
  · rintro ⟨t, th, ht, hcall, hret⟩
    obtain ⟨⟨⟨closes, took, hlink⟩, -, -, -⟩, htook⟩ := idle_of_returned hok ht hret
    have hs := hc.ending.took t _ (getElem?_linkMarks ht) (htook hcall)
    refine ⟨hs.closing, hs.conn, fun n hn => ho.closed_of_shut hs (fun m hm => ?_) hn⟩
    obtain rfl := Option.some.inj (hm.symm.trans (getElem?_linkMarks ht))
    exact congrArg LinkMarks.hand hlink
  · exact fun h => ho.provided (hprov.trans h)
  · intro t th ht hnext
    have ha := (Marks.allows_link (allows_of_next hok ht hnext)).2
    exact (ho.fits t _ (getElem?_linkMarks ht)).hand ha

end

/-! ### Calls that come too late -/

/-- On a closing transport the program returns an error after at most `n`
operations. -/
inductive FailsWithin : ℕ → Routine Result → Prop
  | error (n : ℕ) (err : Err) : FailsWithin n (.ret (.ensured (.error err)))
  | ctxErr {n : ℕ} {ctx : Ctx} {k : Option Err → Routine Result}
      (hk : ∀ r, FailsWithin n (k r)) : FailsWithin (n + 1) (.call (.link (.ctxErr ctx)) k)
  | look {n : ℕ} {k : ConnView → Routine Result}
      (hk : ∀ view : ConnView, view.closing = true → FailsWithin n (k view)) :
      FailsWithin (n + 1) (.call (.link .readConn) k)

theorem failsWithin_ensureConn (signals : ℕ) (ctx : Option Ctx) :
    FailsWithin 2 (Call.ensureConn signals ctx).program := by
  rcases ctx with _ | ctx
  · exact .error 2 _
  · refine .ctxErr fun r => ?_
    rcases r with _ | err
    · refine .look fun view hclosing => ?_
      obtain ⟨conn, initErr, providedConn, closing⟩ := view
      obtain rfl : closing = true := hclosing
      rcases initErr with _ | err
      · exact .error 0 _
      · exact .error 0 _
    · exact .error 1 _

/-- Goroutine `t` is a call that fails within its first two operations. -/
def FailingCall (t : ℕ) (w : World transport) : Prop :=
  ∃ (th : Thread transport) (n : ℕ), w.threads[t]? = some th ∧ FailsWithin n th.rest ∧
    th.hist.length + n ≤ 2

theorem FailingCall.moves {t : ℕ} {w w' : World transport} {a : Act transport}
    (hm : World.Moves w a w') (hclosing : w.state.link.closing = true) (hf : FailingCall t w) :
    FailingCall t w' := by
  obtain ⟨⟨c, h, rest⟩, n, ht, hrest, hlen⟩ := hf
  have hlt : t < w.threads.length := (List.getElem?_eq_some_iff.mp ht).1
  cases hm with
  | idle => exact ⟨_, n, ht, hrest, hlen⟩
  | enter henter => exact ⟨_, n, by rwa [List.getElem?_append_left hlt], hrest, hlen⟩
  | env e => exact ⟨_, n, ht, hrest, hlen⟩
  | @perform u ch c' h' o k hu =>
      by_cases htu : t = u
      · subst htu
        obtain ⟨rfl, rfl, rfl⟩ : c = c' ∧ h = h' ∧ rest = .call o k := by
          simpa using Option.some.inj (ht.symm.trans hu)
        have hget := World.getElem?_act_step ch hu
        rw [World.act_step ch hu] at hget
        cases hrest with
        | @ctxErr n ctx k hk => exact ⟨_, n, hget, hk _, by simp at hlen ⊢; omega⟩
        | @look n k hk => exact ⟨_, n, hget, hk _ hclosing, by simp at hlen ⊢; omega⟩
      · exact ⟨_, n, by rw [World.getElem?_perform hu, if_neg htu, ht], hrest, hlen⟩

theorem FailingCall.returnsError {t : ℕ} {w : World transport} (hf : FailingCall t w) :
    ∃ th, w.threads[t]? = some th ∧ ReturnsError th := by
  obtain ⟨⟨c, h, rest⟩, n, ht, hrest, hlen⟩ := hf
  refine ⟨_, ht, ?_⟩
  cases hrest with
  | error n err => exact .inl ⟨err, rfl⟩
  | @ctxErr n ctx k hk =>
      exact .inr ⟨by simp at hlen ⊢; omega, _, rfl, fun ch s hs => rfl⟩
  | @look n k hk =>
      refine .inr ⟨by simp at hlen ⊢; omega, _, rfl, fun ch s hs => ?_⟩
      simp [ready, Op.canProceed, Op.locksMutex, hs]

theorem HasClosed.moves {w w' : World transport} {a : Act transport} (hm : World.Moves w a w')
    (hc : HasClosed w) : HasClosed w' := by
  obtain ⟨t, th, ht, hcall, hret⟩ := hc
  obtain ⟨th', ht', hlater⟩ := hm.thread ht
  obtain rfl := hlater.done hret
  exact ⟨t, th', ht', hcall, hret⟩

/-- `EnsureConn` called after a `Close` has returned fails. -/
theorem failingCall_run {w : World transport} {t : ℕ} {acts : List (Act transport)}
    (hok : watched.contract.Ok w) (hc : Connecting w.state (watched.marks w))
    (hclosed : HasClosed w) (hf : FailingCall t w)
    (hadm : World.Always (Admissible Call.connects) w acts) : FailingCall t (w.run acts) := by
  have hinv := World.run_invariant_of_always
    (P := fun v : World transport => (watched.contract.Ok v ∧
      Connecting v.state (watched.marks v)) ∧ HasClosed v ∧ FailingCall t v)
    (fun {v a v'} hm ha hv => ?_) ⟨⟨hok, hc⟩, hclosed, hf⟩ hadm
  · exact hinv.2.2
  · obtain ⟨⟨hok, hc⟩, hclosed, hf⟩ := hv
    have hclosing := ((connectionSafe_of_connecting rfl hok hc).closed hclosed).1
    refine ⟨⟨watched.contract.ok_moves hm hok, ?_⟩, hclosed.moves hm, hf.moves hm hclosing⟩
    exact Watch.moves_invariant (K := watched) (I := Connecting)
      (fun hallowed henter hc => connecting_enter hallowed henter hc)
      (fun ht ha hr hc => connecting_step ht ha hr hc) connecting_env hm
      (regular_of_admissible ha) hok hc

/-! ### The result -/

/-- In every interleaving of `EnsureConn` and `Close` calls on one transport the
connection is safe at every moment, and a call of `EnsureConn` that starts after
a `Close` has returned returns an error. -/
theorem connection_lifecycle {s : State} (hs : Built s) {acts : List (Act transport)}
    (hadm : World.Always (Admissible Call.connects) (built s) acts) :
    ConnectionSafe s ((built s).run acts) ∧
      ∀ acts₁ acts₂ signals ctx, acts = acts₁ ++ .spawn (.ensureConn signals ctx) :: acts₂ →
        HasClosed ((built s).run acts₁) →
        ∃ th, ((built s).run acts).threads[((built s).run acts₁).threads.length]? = some th ∧
          ReturnsError th := by
  obtain ⟨hok, hc⟩ := connecting_run hs hadm
  refine ⟨connectionSafe_of_connecting (providedConn_run _ acts) hok hc, ?_⟩
  rintro acts₁ acts₂ signals ctx rfl hclosed
  obtain ⟨hadm₁, hspawn, hadm₂⟩ := World.always_append.mp hadm
  have hadm' : World.Always (Admissible Call.connects) (built s)
      (acts₁ ++ [.spawn (.ensureConn signals ctx)]) :=
    World.always_append.mpr ⟨hadm₁, hspawn, trivial⟩
  obtain ⟨hok', hc'⟩ := connecting_run hs hadm'
  rw [World.run_append, World.run_cons, World.run_nil] at hok' hc'
  have hlate : FailingCall ((built s).run acts₁).threads.length
      (((built s).run acts₁).act (.spawn (.ensureConn signals ctx))) :=
    ⟨_, 2, World.getElem?_act_spawn rfl, failsWithin_ensureConn signals ctx, le_refl 2⟩
  have hend := failingCall_run hok' hc' (hclosed.moves (World.moves_act _ _)) hlate hadm₂
  rw [World.run_append]
  exact hend.returnsError

/-- A transport with nothing but a URL. -/
def plain : State := newTransport "nats://127.0.0.1:4222" none false

/-- A dial has got a connection and waits for it to come up, when `Close` sets
`closing` and cancels it; the dial gives up, and `Close` goes on. -/
def cancelledDial : List (Act transport) :=
  [.spawn (.ensureConn 0 (some [.caller 0]))] ++ List.replicate 9 (.step 0 smooth) ++
    [.spawn .close] ++ List.replicate 2 (.step 1 smooth) ++ List.replicate 6 (.step 0 smooth) ++
    List.replicate 3 (.step 1 smooth)

theorem connection_lifecycle_cancelled_dial :
    (ConnectionSafe plain ((built plain).run (cancelledDial ++
        .spawn (.ensureConn 0 (some [.caller 1])) :: List.replicate 2 (.step 2 smooth))) ∧
      ∃ th, ((built plain).run (cancelledDial ++ .spawn (.ensureConn 0 (some [.caller 1])) ::
          List.replicate 2 (.step 2 smooth))).threads[2]? = some th ∧ ReturnsError th) ∧
      ((built plain).run cancelledDial).state.link.closed = [.dialed 0] := by
  have hadm : World.Always (Admissible Call.connects) (built plain) (cancelledDial ++
      .spawn (.ensureConn 0 (some [.caller 1])) :: List.replicate 2 (.step 2 smooth)) := by
    decide +kernel
  have hlife := connection_lifecycle (.new _ _ _) hadm
  exact ⟨⟨hlife.1, hlife.2 cancelledDial _ 0 _ rfl ⟨1, _, rfl, rfl, rfl⟩⟩, rfl⟩

end TransportNats.Lifecycle
