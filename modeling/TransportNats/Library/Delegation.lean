import TransportNats.Library.World
import Mathlib.Data.List.Forall2
import Mathlib.Data.List.Nodup

/-!
Systems whose programs call the programs of another system.

A worker that handles a list of messages, or a function that calls the methods
of a store, performs the operations of other programs among its own. Results
about those other programs are about a system `N` in which every call is a
thread of its own. Here they are carried to the system `M` of the callers: if
every program of `M` is composed of calls of `N` and of operations of its own,
then every run of `M` is, for the part of the state that `N` knows, a run of
`N`, and the history of a caller is made of the histories of the threads that
stand for its calls.

An operation of the caller may itself let calls of `N` enter, as a fetch hands
out messages that are handled one after the other. Such calls wait in the order
in which they have entered.
-/

namespace Interleaving

namespace Program

variable {S T : Signature} {α β : Type}

theorem lift_bind (φ : Embedding S T) (p : Program S α) (f : α → Program S β) :
    (p >>= f).lift φ = p.lift φ >>= fun a => (f a).lift φ := by
  induction p with
  | ret a => rfl
  | call o k ih => exact congrArg (Program.call (φ.op o)) (funext fun r => ih (φ.down o r))

end Program

/-- Every thread is where its history has led it. -/
theorem World.leads_run {M : System} (s : M.State) (acts : List (Act M)) {t : ℕ} {th : Thread M}
    (ht : ((World.init s).run acts).threads[t]? = some th) :
    (M.program th.call).Leads th.hist th.rest := by
  have hinv : ∀ (t : ℕ) (th : Thread M), ((World.init s).run acts).threads[t]? = some th →
      (M.program th.call).Leads th.hist th.rest := by
    refine World.run_invariant
      (P := fun w => ∀ (t : ℕ) (th : Thread M), w.threads[t]? = some th →
        (M.program th.call).Leads th.hist th.rest)
      (fun hm hw => ?_) (fun t th ht => by simp [World.init] at ht) acts
    refine hm.forall_threads (P := fun _ th => (M.program th.call).Leads th.hist th.rest) hw
      (fun _ h => h) (fun _ => .start) ?_
    intro t ch c h o k _ ht _
    exact (hw _ _ ht).step _
  exact hinv t th ht

/-- The state after the calls have entered, one after the other. -/
def System.enterAll (N : System) : List N.Call → N.State → Option N.State
  | [], s => some s
  | c :: cs, s => (N.enter c s).bind (N.enterAll cs)

/-- How a system `N` lies inside a system `M`: which operations are those of `N`
(they may show the call they belong to), what they act on, and which calls an operation
of `M` lets enter. -/
structure Layer (M N : System) where
  ops : N.Call → Embedding N.sig M.sig
  state : M.State → N.State
  choice : M.Choice → N.Choice
  env : M.Env → N.Env
  begins : (o : M.sig.Op) → M.sig.Ret o → List N.Call
  exec_state : ∀ c ch s o,
    state (M.exec ch s ((ops c).op o)).1 = (N.exec (choice ch) (state s) o).1
  exec_ret : ∀ c ch s o,
    (ops c).down o (M.exec ch s ((ops c).op o)).2 = (N.exec (choice ch) (state s) o).2
  enter_state : ∀ {c s s'}, M.enter c s = some s' → state s' = state s
  env_state : ∀ e s, state (M.env e s) = N.env (env e) (state s)

/-- What a caller has done: an operation of its own, or a call that returned. -/
inductive Event (M N : System)
  | own (x : Answered M.sig)
  | call (c : N.Call) (r : N.Result)

/-- What a caller does next. -/
inductive Request (M N : System)
  | own (o : M.sig.Op)
  | call (c : N.Call)

def Event.request {M N : System} : Event M N → Request M N
  | .own x => .own x.op
  | .call c _ => .call c

namespace Layer

variable {M N : System} (L : Layer M N)

/-- All that the operation does to the state of `N` is to let calls enter. -/
def Starts (o : M.sig.Op) : Prop :=
  ∀ ch s, N.enterAll (L.begins o (M.exec ch s o).2) (L.state s) = some (L.state (M.exec ch s o).1)

/-! ### Composed programs -/

/-- `L.Composed G Q h cs p`: after the events `h`, with the calls `cs` waiting, the
program `p` goes on with operations of its own and with calls of `N`, each one allowed by
`G`; a call is the first of those waiting or one that may always enter. It
returns only what `Q` allows. -/
inductive Composed {α : Type} (G : List (Event M N) → Request M N → Prop)
    (Q : List (Event M N) → List N.Call → α → Prop) :
    List (Event M N) → List N.Call → Program M.sig α → Prop
  | ret {h cs a} (hq : Q h cs a) : Composed G Q h cs (.ret a)
  | own {h cs o k} (ho : L.Starts o) (hG : G h (.own o))
      (hk : ∀ r, Composed G Q (.own ⟨o, r⟩ :: h) (cs ++ L.begins o r) (k r)) :
      Composed G Q h cs (.call o k)
  | call {h cs} (c : N.Call) {k : N.Result → Program M.sig α} (hc : ∀ s, N.enter c s = some s)
      (hG : G h (.call c)) (hk : ∀ r, Composed G Q (.call c r :: h) cs (k r)) :
      Composed G Q h cs ((N.program c).lift (L.ops c) >>= k)
  | begun {h cs} (c : N.Call) {k : N.Result → Program M.sig α} (hG : G h (.call c))
      (hk : ∀ r, Composed G Q (.call c r :: h) cs (k r)) :
      Composed G Q h (c :: cs) ((N.program c).lift (L.ops c) >>= k)

variable {L} {α β : Type} {G : List (Event M N) → Request M N → Prop}
  {Q : List (Event M N) → List N.Call → β → Prop} {h : List (Event M N)} {cs : List N.Call}

/-- The sequencing rule. -/
theorem Composed.bind {Q' : List (Event M N) → List N.Call → α → Prop}
    {p : Program M.sig α} {f : α → Program M.sig β} (hp : L.Composed G Q' h cs p)
    (hf : ∀ h cs a, Q' h cs a → L.Composed G Q h cs (f a)) : L.Composed G Q h cs (p >>= f) := by
  induction hp with
  | ret hq => exact hf _ _ _ hq
  | own ho hG _ ih => exact .own ho hG ih
  | call c hc hG _ ih =>
      rw [Program.bind_assoc]
      exact .call c hc hG ih
  | begun c hG _ ih =>
      rw [Program.bind_assoc]
      exact .begun c hG ih

end Layer

/-- A layer in which every program of `M` is composed of calls of `N`. -/
structure Delegation (M N : System) extends Layer M N where
  guard : M.Call → List (Event M N) → Request M N → Prop
  post : M.Call → List (Event M N) → List N.Call → M.Result → Prop
  program : ∀ c, toLayer.Composed (guard c) (post c) [] [] (M.program c)

/-! ### Sessions -/

/-- What a thread of `M` has come to: its events, and the threads of `N` that
stand for its calls, those that have returned (the latest first), the one that
is running and those that wait. -/
structure Session (M N : System) where
  events : List (Event M N)
  returned : List ℕ
  current : Option ℕ
  waiting : List ℕ

def Session.threads {M N : System} (σ : Session M N) : List ℕ :=
  σ.returned ++ (σ.current.toList ++ σ.waiting)

namespace Delegation

variable {M N : System} (D : Delegation M N)

/-- The history `h` is that of the events `ev`, each call of which is unfolded to the
history of its thread. -/
inductive Unfolds (w : World N) : List (Event M N) → List ℕ → History M.sig → Prop
  | nil : Unfolds w [] [] []
  | own {ev is h} (x : Answered M.sig) (hu : Unfolds w ev is h) :
      Unfolds w (.own x :: ev) is (x :: h)
  | call {ev is h i c h' r} (hi : w.threads[i]? = some ⟨c, h', .ret r⟩) (hu : Unfolds w ev is h) :
      Unfolds w (.call c r :: ev) (i :: is) (h'.map (D.ops c).answered ++ h)

/-- The threads `is` stand for the calls `cs`, which have not performed anything. -/
def Waiting (w : World N) (is : List ℕ) (cs : List N.Call) : Prop :=
  List.Forall₂ (fun i c => w.threads[i]? = some (.start c)) is cs

/-- Where a thread is in its program: at its end, before an operation of its own, or
inside of a call. -/
inductive Stands (c : M.Call) (w : World N) (σ : Session M N) (cs : List N.Call) :
    History M.sig → Program M.sig M.Result → Prop
  | ended {h a} (hcur : σ.current = none) (hu : D.Unfolds w σ.events σ.returned h)
      (hq : D.post c σ.events cs a) : Stands c w σ cs h (.ret a)
  | own {h o k} (hcur : σ.current = none) (hu : D.Unfolds w σ.events σ.returned h)
      (ho : D.Starts o) (hG : D.guard c σ.events (.own o))
      (hk : ∀ r, D.Composed (D.guard c) (D.post c) (.own ⟨o, r⟩ :: σ.events)
        (cs ++ D.begins o r) (k r)) : Stands c w σ cs h (.call o k)
  | inside {i c' h' o k h₀ h k' p} (hcur : σ.current = some i)
      (hthread : w.threads[i]? = some ⟨c', h', .call o k⟩)
      (hu : D.Unfolds w σ.events σ.returned h₀) (hh : h = h'.map (D.ops c').answered ++ h₀)
      (hG : D.guard c σ.events (.call c'))
      (hk : ∀ r, D.Composed (D.guard c) (D.post c) (.call c' r :: σ.events) cs (k' r))
      (hp : p = .call ((D.ops c').op o) fun r =>
        (k ((D.ops c').down o r)).lift (D.ops c') >>= k') :
      Stands c w σ cs h p

/-- One of the operations `ev` has let the call enter. -/
def Begun (ev : List (Event M N)) (c : N.Call) : Prop :=
  ∃ x, .own x ∈ ev ∧ c ∈ D.begins x.op x.ret

/-- The session `σ` of `w` tells what the thread has done and where it is. -/
structure Follows (w : World N) (σ : Session M N) (th : Thread M) : Prop where
  nodup : (σ.current.toList ++ σ.waiting).Nodup
  allowed : ∀ {x ev}, x :: ev <:+ σ.events → D.guard th.call ev x.request
  stands : ∃ cs, Waiting w σ.waiting cs ∧ (∀ c ∈ cs, D.Begun σ.events c) ∧
    D.Stands th.call w σ cs th.hist th.rest

/-! ### Frames -/

/-- The threads of `w` that do not meet `J` are as they were in `w'`. -/
def Frame (J : ℕ → Prop) (w w' : World N) : Prop :=
  ∀ i th, ¬ J i → w.threads[i]? = some th → w'.threads[i]? = some th

variable {D}

theorem Frame.trans {J : ℕ → Prop} {w w' w'' : World N} (h : Frame J w w')
    (h' : Frame J w' w'') : Frame J w w'' :=
  fun i th hi ht => h' i th hi (h i th hi ht)

theorem Frame.mono {J J' : ℕ → Prop} {w w' : World N} (h : Frame J w w')
    (hJ : ∀ i, J i → J' i) : Frame J' w w' :=
  fun i th hi ht => h i th (fun hj => hi (hJ i hj)) ht

/-- A thread that has returned stays as it is. -/
theorem returned_run {w : World N} {i : ℕ} {c : N.Call} {h : History N.sig} {r : N.Result}
    (hi : w.threads[i]? = some ⟨c, h, .ret r⟩) (acts : List (Act N)) :
    (w.run acts).threads[i]? = some ⟨c, h, .ret r⟩ := by
  obtain ⟨th, hth, hlater⟩ := World.thread_run hi acts
  rw [hth, hlater.done rfl]

theorem Unfolds.run {w : World N} {ev : List (Event M N)} {is : List ℕ} {h : History M.sig}
    (hu : D.Unfolds w ev is h) (acts : List (Act N)) : D.Unfolds (w.run acts) ev is h := by
  induction hu with
  | nil => exact .nil
  | own x _ ih => exact .own x ih
  | call hi _ ih => exact .call (returned_run hi acts) ih

/-- A call that has returned is a thread of the session, whose history is part of
that of the caller. -/
theorem Unfolds.of_call {w : World N} {ev : List (Event M N)} {is : List ℕ} {h : History M.sig}
    (hu : D.Unfolds w ev is h) {c : N.Call} {r : N.Result} (hmem : .call c r ∈ ev) :
    ∃ i ∈ is, ∃ h', w.threads[i]? = some ⟨c, h', .ret r⟩ ∧ ∀ x ∈ h', (D.ops c).answered x ∈ h := by
  induction hu with
  | nil => cases hmem
  | own x _ ih =>
      rcases List.mem_cons.mp hmem with heq | hmem
      · cases heq
      · obtain ⟨i, hi, h', hth, hx⟩ := ih hmem
        exact ⟨i, hi, h', hth, fun x hx' => List.mem_cons_of_mem _ (hx x hx')⟩
  | @call ev is h i c' h' r' hi _ ih =>
      rcases List.mem_cons.mp hmem with heq | hmem
      · cases heq
        exact ⟨i, List.mem_cons_self, h', hi, fun x hx =>
          List.mem_append_left _ (List.mem_map_of_mem hx)⟩
      · obtain ⟨j, hj, h₁, hth, hx⟩ := ih hmem
        exact ⟨j, List.mem_cons_of_mem _ hj, h₁, hth, fun x hx' =>
          List.mem_append_right _ (hx x hx')⟩

theorem Unfolds.of_mem {w : World N} {ev : List (Event M N)} {is : List ℕ} {h : History M.sig}
    (hu : D.Unfolds w ev is h) {i : ℕ} (hi : i ∈ is) :
    ∃ c h' r, w.threads[i]? = some ⟨c, h', .ret r⟩ ∧ .call c r ∈ ev := by
  induction hu with
  | nil => cases hi
  | own x _ ih =>
      obtain ⟨c, h', r, hth, hmem⟩ := ih hi
      exact ⟨c, h', r, hth, List.mem_cons_of_mem _ hmem⟩
  | call hj _ ih =>
      rcases List.mem_cons.mp hi with rfl | hi
      · exact ⟨_, _, _, hj, List.mem_cons_self⟩
      · obtain ⟨c, h', r, hth, hmem⟩ := ih hi
        exact ⟨c, h', r, hth, List.mem_cons_of_mem _ hmem⟩

theorem Waiting.frame {J : ℕ → Prop} {w w' : World N} {is : List ℕ} {cs : List N.Call}
    (hw : Waiting w is cs) (hf : Frame J w w') (hJ : ∀ i ∈ is, ¬ J i) : Waiting w' is cs := by
  induction hw with
  | nil => exact .nil
  | cons hi _ ih =>
      exact .cons (hf _ _ (hJ _ List.mem_cons_self) hi)
        (ih fun i hi => hJ i (List.mem_cons_of_mem _ hi))

theorem Waiting.exists_of_mem {w : World N} {is : List ℕ} {cs : List N.Call}
    (hw : Waiting w is cs) {i : ℕ} (hi : i ∈ is) :
    ∃ c ∈ cs, w.threads[i]? = some (.start c) := by
  induction hw with
  | nil => cases hi
  | cons hj _ ih =>
      rcases List.mem_cons.mp hi with rfl | hi
      · exact ⟨_, List.mem_cons_self, hj⟩
      · obtain ⟨c, hc, hth⟩ := ih hi
        exact ⟨c, List.mem_cons_of_mem _ hc, hth⟩

/-- What other sessions do leaves a session as it is. -/
theorem Follows.frame {w : World N} {σ : Session M N} {th : Thread M} (hf : D.Follows w σ th)
    (acts : List (Act N)) {J : ℕ → Prop} (hfr : Frame J w (w.run acts))
    (hJ : ∀ i ∈ σ.threads, ¬ J i) : D.Follows (w.run acts) σ th := by
  obtain ⟨cs, hwait, hbegun, hst⟩ := hf.stands
  have hJw : ∀ i ∈ σ.waiting, ¬ J i := fun i hi =>
    hJ i (List.mem_append_right _ (List.mem_append_right _ hi))
  refine ⟨hf.nodup, hf.allowed, cs, hwait.frame hfr hJw, hbegun, ?_⟩
  generalize th.hist = h, th.rest = p at hst ⊢
  cases hst with
  | ended hcur hu hq => exact .ended hcur (hu.run acts) hq
  | own hcur hu ho hG hk => exact .own hcur (hu.run acts) ho hG hk
  | @inside i c' h' o k h₀ h k' p hcur hthread hu hh hG hk hp =>
      refine .inside hcur (hfr _ _ (hJ i ?_) hthread) (hu.run acts) hh hG hk hp
      exact List.mem_append_right _ (List.mem_append_left _ (by simp [hcur]))

/-- The calls of a session that have returned, in the history of its thread. -/
theorem Follows.unfolds {w : World N} {σ : Session M N} {th : Thread M} (hf : D.Follows w σ th) :
    ∃ h, D.Unfolds w σ.events σ.returned h ∧ h ⊆ th.hist := by
  obtain ⟨cs, -, -, hst⟩ := hf.stands
  generalize th.hist = h, th.rest = p at hst
  cases hst with
  | ended _ hu | own _ hu => exact ⟨_, hu, List.Subset.refl _⟩
  | inside _ _ hu hh => exact ⟨_, hu, hh ▸ List.subset_append_right _ _⟩

/-- What a returned call has performed lies in one piece in the history. -/
theorem Unfolds.piece {w : World N} {ev : List (Event M N)} {is : List ℕ} {h : History M.sig}
    (hu : D.Unfolds w ev is h) {i : ℕ} (hi : i ∈ is) {th : Thread N}
    (hth : w.threads[i]? = some th) : th.hist.map (D.ops th.call).answered <:+: h := by
  induction hu with
  | nil => cases hi
  | own x _ ih => exact (ih hi).trans (List.suffix_cons _ _).isInfix
  | call hj _ ih =>
      rcases List.mem_cons.mp hi with rfl | hi
      · cases hth.symm.trans hj
        exact (List.prefix_append _ _).isInfix
      · exact (ih hi).trans (List.suffix_append _ _).isInfix

/-- The same for every thread of a session. -/
theorem Follows.piece {w : World N} {σ : Session M N} {th : Thread M} (hf : D.Follows w σ th)
    {i : ℕ} (hi : i ∈ σ.threads) {th' : Thread N} (hth : w.threads[i]? = some th') :
    th'.hist.map (D.ops th'.call).answered <:+: th.hist := by
  obtain ⟨cs, hwait, -, hst⟩ := hf.stands
  have hwaits : i ∈ σ.waiting → ∀ h, th'.hist.map (D.ops th'.call).answered <:+: h := by
    intro hi h
    obtain ⟨c, -, hstart⟩ := hwait.exists_of_mem hi
    cases hth.symm.trans hstart
    exact ⟨[], _, rfl⟩
  generalize th.hist = h, th.rest = p at hst ⊢
  simp only [Session.threads, List.mem_append] at hi
  cases hst with
  | ended hcur hu | own hcur hu =>
      rcases hi with hi | hi | hi
      · exact hu.piece hi hth
      · simp [hcur] at hi
      · exact hwaits hi _
  | inside hcur hthread hu hh =>
      subst hh
      rcases hi with hi | hi | hi
      · exact (hu.piece hi hth).trans (List.suffix_append _ _).isInfix
      · simp only [hcur, Option.toList_some, List.mem_singleton] at hi
        subst hi
        cases hth.symm.trans hthread
        exact (List.prefix_append _ _).isInfix
      · exact hwaits hi _

/-- Every thread of a session stands for a call that its caller was allowed to make, or
for one that an operation of the caller has let enter. -/
theorem Follows.call_allowed {w : World N} {σ : Session M N} {th : Thread M}
    (hf : D.Follows w σ th) {i : ℕ} (hi : i ∈ σ.threads) {th' : Thread N}
    (hth : w.threads[i]? = some th') :
    (∃ ev, ev <:+ σ.events ∧ D.guard th.call ev (.call th'.call)) ∨
      D.Begun σ.events th'.call := by
  obtain ⟨cs, hwait, hbegun, hst⟩ := hf.stands
  have hreturned : ∀ {h}, D.Unfolds w σ.events σ.returned h → i ∈ σ.returned →
      ∃ ev, ev <:+ σ.events ∧ D.guard th.call ev (.call th'.call) := by
    intro h hu hi
    obtain ⟨c, h', r, hth', hmem⟩ := hu.of_mem hi
    cases hth.symm.trans hth'
    obtain ⟨pre, ev, heq⟩ := List.append_of_mem hmem
    have hsuf : .call c r :: ev <:+ σ.events := heq ▸ List.suffix_append _ _
    exact ⟨ev, (List.suffix_cons _ _).trans hsuf, hf.allowed hsuf⟩
  have hwaits : i ∈ σ.waiting → D.Begun σ.events th'.call := by
    intro hi
    obtain ⟨c, hc, hstart⟩ := hwait.exists_of_mem hi
    cases hth.symm.trans hstart
    exact hbegun c hc
  generalize th.hist = h, th.rest = p at hst
  rcases List.mem_append.mp hi with hi | hi
  · left
    cases hst with
    | ended _ hu | own _ hu | inside _ _ hu => exact hreturned hu hi
  · rcases List.mem_append.mp hi with hi | hi
    · left
      cases hst with
      | ended hcur | own hcur => simp [hcur] at hi
      | inside hcur hthread hu hh hG =>
          simp only [hcur, Option.toList_some, List.mem_singleton] at hi
          subst hi
          cases hth.symm.trans hthread
          exact ⟨σ.events, List.suffix_refl _, hG⟩
    · exact .inr (hwaits hi)

/-! ### Calls that enter -/

theorem run_spawns {w : World N} {cs : List N.Call} {s : N.State}
    (h : N.enterAll cs w.state = some s) :
    w.run (cs.map .spawn) = ⟨s, w.threads ++ cs.map .start⟩ := by
  induction cs generalizing w with
  | nil =>
      cases h
      simp
  | cons c cs ih =>
      obtain ⟨s', hs', h⟩ := Option.bind_eq_some_iff.mp h
      rw [List.map_cons, World.run_cons, World.act_spawn hs', ih h]
      simp

theorem always_spawns {C : World N → Act N → Prop} (hC : ∀ w c, C w (.spawn c)) (w : World N)
    (cs : List N.Call) : World.Always C w (cs.map .spawn) := by
  induction cs generalizing w with
  | nil => trivial
  | cons c cs ih => exact ⟨hC w c, ih _⟩

theorem frame_spawns (w : World N) (cs : List N.Call) :
    Frame (fun _ => False) w (w.run (cs.map .spawn)) := by
  induction cs generalizing w with
  | nil => exact fun _ _ _ ht => ht
  | cons c cs ih =>
      refine Frame.trans (fun i th _ ht => ?_) (ih (w.act (.spawn c)))
      have hm := World.moves_act w (.spawn c)
      generalize w.act (.spawn c) = w' at hm ⊢
      cases hm with
      | idle => exact ht
      | enter h =>
          have hlt : i < w.threads.length := (List.getElem?_eq_some_iff.mp ht).1
          rwa [List.getElem?_append_left hlt]

theorem Waiting.lt {w : World N} {is : List ℕ} {cs : List N.Call} (hw : Waiting w is cs) {i : ℕ}
    (hi : i ∈ is) : i < w.threads.length :=
  let ⟨_, _, hth⟩ := hw.exists_of_mem hi
  (List.getElem?_eq_some_iff.mp hth).1

/-- `w'` is `w` with some calls that have entered, all of them threads of `σ`, whose
other threads are `is`. -/
structure Enlisted (w w' : World N) (is : List ℕ) (σ : Session M N) : Prop where
  le : w.threads.length ≤ w'.threads.length
  mem : ∀ i, i ∈ σ.threads ↔ i ∈ is ∨ w.threads.length ≤ i ∧ i < w'.threads.length

theorem Enlisted.of_same {w w' : World N} {is : List ℕ} {σ : Session M N}
    (hlen : w'.threads.length = w.threads.length) (h : ∀ i, i ∈ σ.threads ↔ i ∈ is) :
    Enlisted w w' is σ :=
  ⟨Nat.le_of_eq hlen.symm, fun i => by rw [h]; exact ⟨.inl, fun h => h.elim id fun h => by omega⟩⟩

/-- The calls enter in two parts. -/
theorem Enlisted.trans {w w' w'' : World N} {is is' : List ℕ} {σ : Session M N}
    (h : Enlisted w' w'' is' σ) (hle : w.threads.length ≤ w'.threads.length)
    (his : ∀ i, i ∈ is' ↔ i ∈ is ∨ w.threads.length ≤ i ∧ i < w'.threads.length) :
    Enlisted w w'' is σ := by
  refine ⟨Nat.le_trans hle h.le, fun i => ?_⟩
  have := h.le
  rw [h.mem, his]
  constructor
  · rintro ((hi | hi) | hi)
    · exact .inl hi
    · exact .inr (by omega)
    · exact .inr (by omega)
  · rintro (hi | hi)
    · exact .inl (.inl hi)
    · by_cases hlt : i < w'.threads.length
      · exact .inl (.inr (by omega))
      · exact .inr (by omega)

theorem Begun.cons {ev : List (Event M N)} {c : N.Call} (hb : D.Begun ev c) (y : Event M N) :
    D.Begun (y :: ev) c :=
  let ⟨x, hx, hc⟩ := hb
  ⟨x, List.mem_cons_of_mem _ hx, hc⟩

theorem allowed_cons {G : List (Event M N) → Request M N → Prop} {y : Event M N}
    {ev : List (Event M N)} (hG : G ev y.request)
    (hal : ∀ {x e}, x :: e <:+ ev → G e x.request) {x : Event M N} {e : List (Event M N)}
    (hsuf : x :: e <:+ y :: ev) : G e x.request := by
  rcases List.suffix_cons_iff.mp hsuf with heq | hsuf
  · obtain ⟨rfl, rfl⟩ := List.cons.inj heq
    exact hG
  · exact hal hsuf

/-- With some calls that enter, a session whose other threads are `is` tells where
the program is. -/
def Settles (D : Delegation M N) (c : M.Call) (w : World N) (is : List ℕ) (h : History M.sig)
    (p : Program M.sig M.Result) : Prop :=
  ∃ (cs : List N.Call) (σ : Session M N), (w.run (cs.map .spawn)).state = w.state ∧
    D.Follows (w.run (cs.map .spawn)) σ ⟨c, h, p⟩ ∧ Enlisted w (w.run (cs.map .spawn)) is σ

section
variable {c : M.Call} {w : World N} {h : History M.sig} {p : Program M.sig M.Result}
  {ev : List (Event M N)} {cs : List N.Call} {returned waiting : List ℕ}

theorem Follows.settles {σ : Session M N} (hf : D.Follows w σ ⟨c, h, p⟩) :
    D.Settles c w σ.threads h p :=
  ⟨[], σ, rfl, hf, .of_same rfl fun _ => Iff.rfl⟩

theorem Settles.congr {is is' : List ℕ} (hs : D.Settles c w is h p)
    (his : ∀ i, i ∈ is ↔ i ∈ is') : D.Settles c w is' h p := by
  obtain ⟨cs, σ, hstate, hf, he⟩ := hs
  exact ⟨cs, σ, hstate, hf, he.le, fun i => by rw [he.mem, his]⟩

/-- A call that may always enter does so before the others. -/
theorem Settles.enter {c' : N.Call} (hc : ∀ s, N.enter c' s = some s)
    (hs : D.Settles c (w.act (.spawn c')) (returned ++ w.threads.length :: waiting) h p) :
    D.Settles c w (returned ++ waiting) h p := by
  obtain ⟨cs, σ, hstate, hf, he⟩ := hs
  have hact : w.act (.spawn c') = ⟨w.state, w.threads ++ [.start c']⟩ := World.act_spawn (hc _)
  have hlen : (w.act (.spawn c')).threads.length = w.threads.length + 1 := by simp [hact]
  refine ⟨c' :: cs, σ, ?_, hf, he.trans (by omega) fun i => ?_⟩
  · rw [List.map_cons, World.run_cons, hstate, hact]
  · have hnew : w.threads.length ≤ i ∧ i < w.threads.length + 1 ↔ i = w.threads.length := by omega
    simp only [hlen, hnew, List.mem_append, List.mem_cons]
    tauto

/-- The first call of those that wait returns at once, or the program is inside of it. -/
theorem settles_call {c' : N.Call} {i : ℕ} {k : N.Result → Program M.sig M.Result}
    (hi : w.threads[i]? = some (.start c')) (hnd : (i :: waiting).Nodup)
    (hu : D.Unfolds w ev returned h) (hw : Waiting w waiting cs)
    (hbegun : ∀ c ∈ cs, D.Begun ev c) (hal : ∀ {x e}, x :: e <:+ ev → D.guard c e x.request)
    (hG : D.guard c ev (.call c'))
    (hk : ∀ r, D.Composed (D.guard c) (D.post c) (.call c' r :: ev) cs (k r))
    (hret : ∀ r, D.Unfolds w (.call c' r :: ev) (i :: returned) h →
      D.Settles c w ((i :: returned) ++ waiting) h (k r)) :
    D.Settles c w (returned ++ i :: waiting) h ((N.program c').lift (D.ops c') >>= k) := by
  cases hprog : N.program c' with
  | ret r =>
      simp only [Thread.start, hprog] at hi
      refine (hret r (.call hi hu)).congr fun j => ?_
      simp only [List.cons_append, List.mem_cons, List.mem_append]
      tauto
  | call o k' =>
      simp only [Thread.start, hprog] at hi
      exact Follows.settles (σ := ⟨ev, returned, some i, waiting⟩)
        ⟨hnd, hal, cs, hw, hbegun, .inside rfl hi hu rfl hG hk rfl⟩

/-- A composed program gets, with some calls that enter, to its end, to an operation
of its own or into a call. -/
theorem settle (hp : D.Composed (D.guard c) (D.post c) ev cs p)
    (hu : D.Unfolds w ev returned h) (hw : Waiting w waiting cs) (hnd : waiting.Nodup)
    (hbegun : ∀ c ∈ cs, D.Begun ev c) (hal : ∀ {x e}, x :: e <:+ ev → D.guard c e x.request) :
    D.Settles c w (returned ++ waiting) h p := by
  induction hp generalizing w returned waiting h with
  | @ret ev cs a hq =>
      exact Follows.settles (σ := ⟨ev, returned, none, waiting⟩)
        ⟨hnd, hal, cs, hw, hbegun, .ended rfl hu hq⟩
  | @own ev cs o k ho hG hk ih =>
      exact Follows.settles (σ := ⟨ev, returned, none, waiting⟩)
        ⟨hnd, hal, cs, hw, hbegun, .own rfl hu ho hG hk⟩
  | @call ev cs c' k hc hG hk ih =>
      have hw' : Waiting (w.act (.spawn c')) waiting cs :=
        hw.frame (frame_spawns w [c']) fun _ _ h => h
      have hfresh : w.threads.length ∉ waiting := fun hi => absurd (hw.lt hi) (Nat.lt_irrefl _)
      refine Settles.enter hc (settles_call (World.getElem?_act_spawn (hc w.state))
        (List.nodup_cons.mpr ⟨hfresh, hnd⟩) (hu.run [.spawn c']) hw' hbegun hal hG hk ?_)
      intro r hu'
      exact ih r hu' hw' hnd (fun c hc => (hbegun c hc).cons _) (allowed_cons hG hal)
  | @begun ev cs c' k hG hk ih =>
      cases hw with
      | @cons i _ waiting' _ hi hw =>
      have hbegun' : ∀ c ∈ cs, D.Begun ev c := fun c hc => hbegun c (List.mem_cons_of_mem _ hc)
      refine settles_call hi hnd hu hw hbegun' hal hG hk fun r hu' => ?_
      exact ih r hu' hw (List.nodup_cons.mp hnd).2 (fun c hc => (hbegun' c hc).cons _)
        (allowed_cons hG hal)

end

/-! ### One operation of a caller -/

/-- An action of `N` that answers to an operation of `M` in the state `s`: calls enter
at any time, anything else happens in `s`. -/
def Within (s : N.State) (w : World N) (a : Act N) : Prop := (∃ c, a = .spawn c) ∨ w.state = s

theorem waiting_start (s : N.State) (ths : List (Thread N)) (cs : List N.Call) :
    Waiting ⟨s, ths ++ cs.map .start⟩ (List.range' ths.length cs.length) cs := by
  induction cs generalizing ths with
  | nil => exact .nil
  | cons c cs ih =>
      refine .cons (by simp) ?_
      have hrest := ih (ths ++ [.start c])
      simp only [List.append_assoc, List.singleton_append, List.length_append,
        List.length_singleton] at hrest
      exact hrest

/-- The calls that an operation lets enter wait after those that wait already. -/
theorem Follows.starts {w : World N} {σ : Session M N} {c : M.Call} {h : History M.sig}
    {o : M.sig.Op} {k : M.sig.Ret o → Program M.sig M.Result} {cs : List N.Call} {s : M.State}
    (ch : M.Choice) (hf : D.Follows w σ ⟨c, h, .call o k⟩) (hs : w.state = D.state s)
    (hwait : Waiting w σ.waiting cs) (hbegun : ∀ c ∈ cs, D.Begun σ.events c)
    (hcur : σ.current = none) (hu : D.Unfolds w σ.events σ.returned h) (ho : D.Starts o)
    (hG : D.guard c σ.events (.own o))
    (hk : ∀ r, D.Composed (D.guard c) (D.post c) (.own ⟨o, r⟩ :: σ.events)
      (cs ++ D.begins o r) (k r)) :
    ∃ (cs' : List N.Call) (σ' : Session M N),
      (w.run (cs'.map .spawn)).state = D.state (M.exec ch s o).1 ∧
      D.Follows (w.run (cs'.map .spawn)) σ'
        ⟨c, ⟨o, (M.exec ch s o).2⟩ :: h, k (M.exec ch s o).2⟩ ∧
      Enlisted w (w.run (cs'.map .spawn)) σ.threads σ' := by
  have hen := ho ch s
  generalize (M.exec ch s o).2 = r at hen ⊢
  rw [← hs] at hen
  have hrun := run_spawns hen
  have hwait' : Waiting (w.run ((D.begins o r).map .spawn))
      (σ.waiting ++ List.range' w.threads.length (D.begins o r).length) (cs ++ D.begins o r) := by
    refine List.rel_append (hwait.frame (frame_spawns w _) fun _ _ h => h) ?_
    rw [hrun]
    exact waiting_start _ _ _
  have hnd : (σ.waiting ++ List.range' w.threads.length (D.begins o r).length).Nodup := by
    have hnd := hf.nodup
    rw [hcur] at hnd
    refine List.Nodup.append hnd List.nodup_range' fun i hi hi' => ?_
    have := hwait.lt hi
    rw [List.mem_range'_1] at hi'
    omega
  have hbegun' : ∀ c ∈ cs ++ D.begins o r, D.Begun (.own ⟨o, r⟩ :: σ.events) c := by
    intro c hc
    rcases List.mem_append.mp hc with hc | hc
    · exact (hbegun c hc).cons _
    · exact ⟨⟨o, r⟩, List.mem_cons_self, hc⟩
  obtain ⟨cs', σ', hs', hf', he⟩ := settle (hk r) (.own ⟨o, r⟩ (hu.run _)) hwait' hnd
    hbegun' (allowed_cons hG hf.allowed)
  refine ⟨D.begins o r ++ cs', σ', ?_, ?_, ?_⟩
  · rw [List.map_append, World.run_append, hs', hrun]
  · rw [List.map_append, World.run_append]
    exact hf'
  · rw [List.map_append, World.run_append]
    refine he.trans (by simp [hrun]) fun i => ?_
    simp only [Session.threads, hcur, hrun, List.mem_append, List.mem_range'_1, List.length_append,
      List.length_map, Option.toList_none, List.nil_append]
    tauto

/-- Inside of a call, the thread that stands for it does what the caller does. -/
theorem Follows.continues {w : World N} {σ : Session M N} {c : M.Call} {h h₀ : History M.sig}
    {cs : List N.Call} {s : M.State} {i : ℕ} {c' : N.Call} {h' : History N.sig} {o : N.sig.Op}
    {k : N.sig.Ret o → Program N.sig N.Result} {k' : N.Result → Program M.sig M.Result}
    (ch : M.Choice) (hs : w.state = D.state s)
    (hnd : (σ.current.toList ++ σ.waiting).Nodup)
    (hal : ∀ {x ev}, x :: ev <:+ σ.events → D.guard c ev x.request)
    (hwait : Waiting w σ.waiting cs) (hbegun : ∀ c ∈ cs, D.Begun σ.events c)
    (hcur : σ.current = some i)
    (hthread : w.threads[i]? = some ⟨c', h', .call o k⟩)
    (hu : D.Unfolds w σ.events σ.returned h₀) (hh : h = h'.map (D.ops c').answered ++ h₀)
    (hG : D.guard c σ.events (.call c'))
    (hk : ∀ r, D.Composed (D.guard c) (D.post c) (.call c' r :: σ.events) cs (k' r)) :
    ∃ (cs' : List N.Call) (σ' : Session M N),
      (((w.act (.step i (D.choice ch))).run (cs'.map .spawn)).state =
        D.state (M.exec ch s ((D.ops c').op o)).1) ∧
      D.Follows ((w.act (.step i (D.choice ch))).run (cs'.map .spawn)) σ'
        ⟨c, ⟨(D.ops c').op o, (M.exec ch s ((D.ops c').op o)).2⟩ :: h,
          (k ((D.ops c').down o (M.exec ch s ((D.ops c').op o)).2)).lift (D.ops c') >>= k'⟩ ∧
      Enlisted w ((w.act (.step i (D.choice ch))).run (cs'.map .spawn)) σ.threads σ' := by
  have hs₁ : (w.act (.step i (D.choice ch))).state = D.state (M.exec ch s ((D.ops c').op o)).1 := by
    rw [D.exec_state, ← hs]
    exact congrArg World.state (World.act_step _ hthread)
  have hlen : (w.act (.step i (D.choice ch))).threads.length = w.threads.length := by
    simp [World.act_step _ hthread, World.perform]
  have hth₁ := World.getElem?_act_step (D.choice ch) hthread
  rw [hs, ← D.exec_ret c'] at hth₁
  have hu₁ := hu.run [.step i (D.choice ch)]
  rw [World.run_cons, World.run_nil] at hu₁
  simp only [hcur, Option.toList_some, List.singleton_append, List.nodup_cons] at hnd
  have hwait₁ : Waiting (w.act (.step i (D.choice ch))) σ.waiting cs :=
    hwait.frame (J := (· = i)) (fun j th hj ht => by rwa [World.getElem?_act_step_ne _ hj])
      fun j hj hji => hnd.1 (hji ▸ hj)
  generalize w.act (.step i (D.choice ch)) = w₁ at hs₁ hlen hth₁ hu₁ hwait₁ ⊢
  generalize (M.exec ch s ((D.ops c').op o)).2 = r at hth₁ ⊢
  -- the history of the caller has grown by the answer that its thread in `N` got
  have hhist : (⟨o, (D.ops c').down o r⟩ :: h').map (D.ops c').answered ++ h₀ =
      ⟨(D.ops c').op o, r⟩ :: h := by
    simp only [hh, List.map_cons, Embedding.answered, (D.ops c').up_down, List.cons_append]
  cases hk₁ : k ((D.ops c').down o r) with
  | ret r' =>
      rw [hk₁] at hth₁
      have hu' := Unfolds.call hth₁ hu₁
      rw [hhist] at hu'
      obtain ⟨cs', σ', hs', hf', he⟩ := settle (hk r') hu' hwait₁ hnd.2
        (fun c hc => (hbegun c hc).cons _) (allowed_cons hG hal)
      refine ⟨cs', σ', hs'.trans hs₁, hf', he.trans (Nat.le_of_eq hlen.symm) fun j => ?_⟩
      have hnone : ¬ (w.threads.length ≤ j ∧ j < w.threads.length) := by omega
      simp only [Session.threads, hcur, hlen, hnone, Option.toList_some, List.mem_append,
        List.mem_cons, List.not_mem_nil, or_false]
      tauto
  | call o₂ k₂ =>
      rw [hk₁] at hth₁
      refine ⟨[], σ, hs₁, ⟨?_, hal, cs, hwait₁, hbegun, ?_⟩, .of_same hlen fun _ => Iff.rfl⟩
      · simpa [hcur] using hnd
      · exact .inside hcur hth₁ hu₁ hhist.symm hG hk rfl

/-- What a thread of `M` does is done in `N` by the threads of its session. -/
theorem Follows.perform {w : World N} {σ : Session M N} {c : M.Call} {h : History M.sig}
    {o : M.sig.Op} {k : M.sig.Ret o → Program M.sig M.Result} (ch : M.Choice) {s : M.State}
    (hf : D.Follows w σ ⟨c, h, .call o k⟩) (hs : w.state = D.state s) :
    ∃ (acts : List (Act N)) (σ' : Session M N),
      (w.run acts).state = D.state (M.exec ch s o).1 ∧
      D.Follows (w.run acts) σ' ⟨c, ⟨o, (M.exec ch s o).2⟩ :: h, k (M.exec ch s o).2⟩ ∧
      Enlisted w (w.run acts) σ.threads σ' ∧ Frame (· ∈ σ.threads) w (w.run acts) ∧
      World.Always (Within (D.state s)) w acts := by
  obtain ⟨cs, hwait, hbegun, hst⟩ := hf.stands
  have hspawn : ∀ w c, Within (D.state s) w (.spawn c) := fun _ c => .inl ⟨c, rfl⟩
  have hframe : ∀ (w : World N) (cs : List N.Call),
      Frame (· ∈ σ.threads) w (w.run (cs.map .spawn)) :=
    fun w cs => (frame_spawns w cs).mono fun _ => False.elim
  generalize hp : Program.call o k = p at hst
  cases hst with
  | ended => cases hp
  | own hcur hu ho hG hk =>
      cases hp
      obtain ⟨cs', σ', hs', hf', he⟩ := hf.starts ch hs hwait hbegun hcur hu ho hG hk
      exact ⟨_, σ', hs', hf', he, hframe w cs', always_spawns hspawn w cs'⟩
  | @inside i c' h' o' k₁ h₀ _ k' _ hcur hthread hu hh hG hk heq =>
      subst heq
      cases hp
      obtain ⟨cs', σ', hs', hf', he⟩ :=
        Follows.continues ch hs hf.nodup hf.allowed hwait hbegun hcur hthread hu hh hG hk
      refine ⟨.step i (D.choice ch) :: cs'.map .spawn, σ', hs', hf', he, ?_, .inr hs,
        always_spawns hspawn _ cs'⟩
      refine Frame.trans (fun j th hj ht => ?_) (hframe _ cs')
      rw [World.getElem?_act_step_ne _ fun hji => hj ?_]
      · exact ht
      · exact hji ▸ List.mem_append_right _ (List.mem_append_left _ (by simp [hcur]))

/-! ### Runs -/

/-- `wN` is what `wM` is for `N`, with one session for every thread of `wM`. Every
thread of `wN` belongs to exactly one session. -/
structure Simulates (D : Delegation M N) (wM : World M) (wN : World N) (σs : List (Session M N))
    (owner : ℕ → ℕ) : Prop where
  state : wN.state = D.state wM.state
  length : σs.length = wM.threads.length
  follows : ∀ {t : ℕ} {th σ}, wM.threads[t]? = some th → σs[t]? = some σ → D.Follows wN σ th
  owned : ∀ {t : ℕ} {σ}, σs[t]? = some σ → ∀ i ∈ σ.threads, i < wN.threads.length ∧ owner i = t
  owner : ∀ i < wN.threads.length, ∃ σ, σs[owner i]? = some σ ∧ i ∈ σ.threads

theorem simulates_init (D : Delegation M N) (s : M.State) :
    Simulates D (World.init s) (World.init (D.state s)) [] id where
  state := rfl
  length := rfl
  follows ht := by simp [World.init] at ht
  owned ht := by simp at ht
  owner i hi := by simp [World.init] at hi

/-- The session of a thread, in every simulation. -/
theorem Simulates.session {wM : World M} {wN : World N} {σs : List (Session M N)} {owner : ℕ → ℕ}
    (hs : Simulates D wM wN σs owner) {t : ℕ} {th : Thread M} (ht : wM.threads[t]? = some th) :
    ∃ σ, σs[t]? = some σ ∧ D.Follows wN σ th := by
  have hlt : t < σs.length := by
    rw [hs.length]
    exact (List.getElem?_eq_some_iff.mp ht).1
  exact ⟨σs[t], List.getElem?_eq_getElem hlt, hs.follows ht (List.getElem?_eq_getElem hlt)⟩

theorem Simulates.thread {wM : World M} {wN : World N} {σs : List (Session M N)} {owner : ℕ → ℕ}
    (hs : Simulates D wM wN σs owner) {t : ℕ} {σ : Session M N} (hσ : σs[t]? = some σ) :
    ∃ th, wM.threads[t]? = some th := by
  have hlt : t < wM.threads.length := by
    rw [← hs.length]
    exact (List.getElem?_eq_some_iff.mp hσ).1
  exact ⟨_, List.getElem?_eq_getElem hlt⟩

/-- One session goes on, or begins, and the others stay as they are. -/
theorem Simulates.update {wM wM' : World M} {wN : World N} {σs σs' : List (Session M N)}
    {owner : ℕ → ℕ} (hs : Simulates D wM wN σs owner) {acts : List (Act N)} {t : ℕ} {th : Thread M}
    {σ : Session M N} (is : List ℕ) (hstate : (wN.run acts).state = D.state wM'.state)
    (hlen : σs'.length = wM'.threads.length)
    (hold : ∀ u, u ≠ t → wM'.threads[u]? = wM.threads[u]? ∧ σs'[u]? = σs[u]?)
    (ht : wM'.threads[t]? = some th) (hσ : σs'[t]? = some σ) (hf : D.Follows (wN.run acts) σ th)
    (he : Enlisted wN (wN.run acts) is σ) (hfr : Frame (· ∈ is) wN (wN.run acts))
    (his : ∀ i, i ∈ is ↔ ∃ σ, σs[t]? = some σ ∧ i ∈ σ.threads) :
    Simulates D wM' (wN.run acts) σs' fun i => if i < wN.threads.length then owner i else t := by
  have hle := he.le
  refine ⟨hstate, hlen, ?_, ?_, ?_⟩
  · intro u th' σ' hu hσu
    by_cases hut : u = t
    · subst hut
      cases ht.symm.trans hu
      cases hσ.symm.trans hσu
      exact hf
    · rw [(hold u hut).1] at hu
      rw [(hold u hut).2] at hσu
      refine (hs.follows hu hσu).frame acts hfr fun i hi hmem => hut ?_
      obtain ⟨σ₁, hσ₁, hi₁⟩ := (his i).mp hmem
      rw [← (hs.owned hσu i hi).2, (hs.owned hσ₁ i hi₁).2]
  · intro u σ' hσu i hi
    by_cases hut : u = t
    · subst hut
      cases hσ.symm.trans hσu
      rcases (he.mem i).mp hi with hi | hi
      · obtain ⟨σ₁, hσ₁, hi₁⟩ := (his i).mp hi
        obtain ⟨hlt, hown⟩ := hs.owned hσ₁ i hi₁
        rw [if_pos hlt]
        exact ⟨by omega, hown⟩
      · rw [if_neg (by omega)]
        exact ⟨hi.2, rfl⟩
    · rw [(hold u hut).2] at hσu
      obtain ⟨hlt, hown⟩ := hs.owned hσu i hi
      rw [if_pos hlt]
      exact ⟨by omega, hown⟩
  · intro i hi
    by_cases hlt : i < wN.threads.length
    · obtain ⟨σ₁, hσ₁, hi₁⟩ := hs.owner i hlt
      rw [if_pos hlt]
      by_cases hot : owner i = t
      · rw [hot] at hσ₁ ⊢
        exact ⟨σ, hσ, (he.mem i).mpr (.inl ((his i).mpr ⟨σ₁, hσ₁, hi₁⟩))⟩
      · exact ⟨σ₁, (hold _ hot).2.trans hσ₁, hi₁⟩
    · rw [if_neg hlt]
      exact ⟨σ, hσ, (he.mem i).mpr (.inr ⟨by omega, hi⟩)⟩

theorem getElem?_concat_ne {α : Type} {l : List α} {x : α} {i : ℕ} (hi : i ≠ l.length) :
    (l ++ [x])[i]? = l[i]? := by
  rcases Nat.lt_or_gt_of_ne hi with hlt | hgt
  · exact List.getElem?_append_left hlt
  · rw [List.getElem?_eq_none (by simpa using Nat.succ_le_of_lt hgt),
      List.getElem?_eq_none (Nat.le_of_lt hgt)]

/-- Every action of `M` is a run of `N`. -/
theorem Simulates.act {wM : World M} {wN : World N} {σs : List (Session M N)} {owner : ℕ → ℕ}
    (hs : Simulates D wM wN σs owner) (a : Act M) :
    ∃ acts σs' owner', Simulates D (wM.act a) (wN.run acts) σs' owner' ∧
      World.Always (Within (D.state wM.state)) wN acts := by
  have hm := World.moves_act wM a
  generalize wM.act a = wM' at hm ⊢
  cases hm with
  | idle => exact ⟨[], σs, owner, hs, trivial⟩
  | env e =>
      refine ⟨[.env (D.env e)], σs, owner, ⟨?_, hs.length, ?_, hs.owned, hs.owner⟩, .inr hs.state,
        trivial⟩
      · rw [D.env_state, ← hs.state]
        rfl
      · intro t th σ ht hσ
        exact (hs.follows ht hσ).frame [.env (D.env e)] (J := fun _ => False)
          (fun _ _ _ ht => ht) fun _ _ h => h
  | @enter c s' h =>
      obtain ⟨cs', σ, hs', hf, he⟩ := settle (D.program c) (w := wN) .nil .nil List.nodup_nil
        (by simp) (fun hsuf => by simp at hsuf)
      refine ⟨cs'.map .spawn, σs ++ [σ], _, hs.update (t := wM.threads.length) [] ?_ ?_ ?_
        List.getElem?_concat_length ?_ hf he ?_ ?_, always_spawns (fun _ c => .inl ⟨c, rfl⟩) _ _⟩
      · rw [hs', hs.state, D.enter_state h]
      · simp [hs.length]
      · exact fun u hu => ⟨getElem?_concat_ne hu, getElem?_concat_ne (hs.length ▸ hu)⟩
      · rw [← hs.length, List.getElem?_concat_length]
      · exact (frame_spawns wN cs').mono fun _ => False.elim
      · intro i
        simp [hs.length]
  | @perform t ch c h o k ht =>
      obtain ⟨σ, hσ, hf⟩ := hs.session ht
      obtain ⟨acts, σ', hs', hf', he, hfr, hin⟩ := hf.perform ch hs.state
      have hlt : t < σs.length := (List.getElem?_eq_some_iff.mp hσ).1
      refine ⟨acts, σs.set t σ', _, hs.update _ hs' ?_ ?_ ?_ (List.getElem?_set_self hlt) hf' he hfr
        ?_, hin⟩
      · simp [World.perform, hs.length]
      · intro u hu
        rw [World.getElem?_perform ht, if_neg hu, List.getElem?_set_ne (Ne.symm hu)]
        exact ⟨rfl, rfl⟩
      · rw [World.getElem?_perform ht, if_pos rfl]
      · intro i
        rw [hσ]
        simp

/-- Every run of `M` is a run of `N`. What every action of `N` keeps, in the states that
the run of `M` goes through, holds at its end. -/
theorem Simulates.run {wM : World M} {wN : World N} {σs : List (Session M N)} {owner : ℕ → ℕ}
    (hs : Simulates D wM wN σs owner) {P : World N → Prop} (hP : P wN) (acts : List (Act M))
    (hact : ∀ pre post, acts = pre ++ post → ∀ {w a w'}, World.Moves w a w' →
      Within (D.state (wM.run pre).state) w a → P w → P w') :
    ∃ acts' σs' owner', Simulates D (wM.run acts) (wN.run acts') σs' owner' ∧
      P (wN.run acts') := by
  induction acts generalizing wM wN σs owner with
  | nil => exact ⟨[], σs, owner, hs, hP⟩
  | cons a acts ih =>
      obtain ⟨acts₁, σs₁, owner₁, hs₁, hin⟩ := hs.act a
      have hP₁ := World.run_invariant_of_always (hact [] _ rfl) hP hin
      obtain ⟨acts₂, σs₂, owner₂, hs₂, hP₂⟩ := ih hs₁ hP₁ fun pre post heq =>
        hact (a :: pre) post (by rw [heq]; rfl)
      rw [← World.run_append] at hs₂ hP₂
      exact ⟨acts₁ ++ acts₂, σs₂, owner₂, hs₂, hP₂⟩

end Delegation

end Interleaving
