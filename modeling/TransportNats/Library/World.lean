import TransportNats.Library.Program

/-!
Interleaved runs of programs over a shared state.

A `System` fixes what the operations do to the shared state; a `World` is that
state with a pool of threads, each one the program of some call together with
the history of what it has performed so far. A schedule is a list of actions:
a new call enters, a thread performs its next operation, or the environment
moves on its own. Since `World.act` is total, the runs of a system are exactly
its schedules, and a statement about every interleaving is a statement about
every list of actions.

What an operation does may depend on a `Choice` that the schedule makes: a
lost reply, a cancelled context, a random value. Nothing is assumed about the
choices, so a statement about every schedule covers every fault pattern.
-/

namespace Interleaving

structure System where
  sig : Signature
  State : Type
  Call : Type
  Result : Type
  Choice : Type
  Env : Type
  program : Call → Program sig Result
  exec : Choice → State → (o : sig.Op) → State × sig.Ret o
  enter : Call → State → Option State
  env : Env → State → State

/-- A running call: what it has performed, and what is left of its program. -/
structure Thread (M : System) where
  call : M.Call
  hist : History M.sig
  rest : Program M.sig M.Result

/-- The thread of a call that has not performed anything yet. -/
def Thread.start {M : System} (c : M.Call) : Thread M := ⟨c, [], M.program c⟩

/-- What time may do to a thread: it keeps its call, its history only grows,
and a thread that has returned stays as it is. -/
structure Thread.Later {M : System} (th th' : Thread M) : Prop where
  call : th'.call = th.call
  hist : th.hist <:+ th'.hist
  done : th.rest.result?.isSome → th' = th

theorem Thread.Later.refl {M : System} (th : Thread M) : th.Later th :=
  ⟨rfl, List.suffix_refl _, fun _ => rfl⟩

theorem Thread.Later.trans {M : System} {th th' th'' : Thread M} (h : th.Later th')
    (h' : th'.Later th'') : th.Later th'' where
  call := h'.call.trans h.call
  hist := h.hist.trans h'.hist
  done hr := by
    obtain rfl := h.done hr
    exact h'.done hr

structure World (M : System) where
  state : M.State
  threads : List (Thread M)

inductive Act (M : System)
  | spawn (c : M.Call)
  | step (t : ℕ) (ch : M.Choice)
  | env (e : M.Env)

namespace World

variable {M : System}

/-- The world before any call. -/
def init (s : M.State) : World M := ⟨s, []⟩

/-- Thread `t`, whose call is `c`, performs `o` after the history `h`. -/
def perform (w : World M) (t : ℕ) (ch : M.Choice) (c : M.Call) (h : History M.sig)
    (o : M.sig.Op) (k : M.sig.Ret o → Program M.sig M.Result) : World M :=
  ⟨(M.exec ch w.state o).1,
    w.threads.set t ⟨c, ⟨o, (M.exec ch w.state o).2⟩ :: h, k (M.exec ch w.state o).2⟩⟩

/-- One action. A call the state does not admit, or a step of a thread that is
finished or does not exist, changes nothing. -/
def act (w : World M) : Act M → World M
  | .spawn c =>
      match M.enter c w.state with
      | some s => ⟨s, w.threads ++ [.start c]⟩
      | none => w
  | .step t ch =>
      match w.threads[t]? with
      | some ⟨c, h, .call o k⟩ => w.perform t ch c h o k
      | _ => w
  | .env e => ⟨M.env e w.state, w.threads⟩

/-- The call whose thread an action lets perform. -/
def caller? (w : World M) : Act M → Option M.Call
  | .step t _ => w.threads[t]?.map (·.call)
  | .spawn _ | .env _ => none

/-- The operation that an action performs, with the call of the thread. -/
def performs? (w : World M) : Act M → Option (M.Call × M.sig.Op)
  | .step t _ => w.threads[t]?.bind fun th => th.rest.next?.map fun o => (th.call, o)
  | .spawn _ | .env _ => none

def run (w : World M) (acts : List (Act M)) : World M := acts.foldl act w

@[simp] theorem run_nil (w : World M) : w.run [] = w := rfl

@[simp] theorem run_cons (w : World M) (a : Act M) (acts : List (Act M)) :
    w.run (a :: acts) = (w.act a).run acts := rfl

theorem run_append (w : World M) (acts acts' : List (Act M)) :
    w.run (acts ++ acts') = (w.run acts).run acts' := List.foldl_append

/-! ### One action -/

/-- Everything an action can do. -/
inductive Moves (w : World M) : Act M → World M → Prop
  | idle (a : Act M) : Moves w a w
  | enter {c : M.Call} {s : M.State} (h : M.enter c w.state = some s) :
      Moves w (.spawn c) ⟨s, w.threads ++ [.start c]⟩
  | perform {t : ℕ} {ch : M.Choice} {c : M.Call} {h : History M.sig} {o : M.sig.Op}
      {k : M.sig.Ret o → Program M.sig M.Result}
      (ht : w.threads[t]? = some ⟨c, h, .call o k⟩) :
      Moves w (.step t ch) (w.perform t ch c h o k)
  | env (e : M.Env) : Moves w (.env e) ⟨M.env e w.state, w.threads⟩

theorem moves_act (w : World M) (a : Act M) : Moves w a (w.act a) := by
  cases a with
  | spawn c =>
      simp only [act]
      split
      · exact .enter ‹_›
      · exact .idle _
  | step t ch =>
      simp only [act]
      split
      · exact .perform ‹_›
      · exact .idle _
  | env e => exact .env e

theorem Moves.eq_or_eq_act {w w' : World M} {a : Act M} (hm : Moves w a w') :
    w' = w ∨ w' = w.act a := by
  cases hm with
  | idle => exact .inl rfl
  | enter h => exact .inr (by simp only [act, h])
  | perform ht => exact .inr (by simp only [act, ht])
  | env e => exact .inr rfl

theorem act_spawn {w : World M} {c : M.Call} {s : M.State} (h : M.enter c w.state = some s) :
    w.act (.spawn c) = ⟨s, w.threads ++ [.start c]⟩ := by
  simp only [act, h]

theorem getElem?_act_spawn {w : World M} {c : M.Call} {s : M.State}
    (h : M.enter c w.state = some s) :
    (w.act (.spawn c)).threads[w.threads.length]? = some (.start c) := by
  rw [act_spawn h]
  exact List.getElem?_concat_length

theorem act_step {w : World M} {t : ℕ} {c : M.Call} {h : History M.sig} {o : M.sig.Op}
    {k : M.sig.Ret o → Program M.sig M.Result} (ch : M.Choice)
    (ht : w.threads[t]? = some ⟨c, h, .call o k⟩) :
    w.act (.step t ch) = w.perform t ch c h o k := by
  simp only [act, ht]

theorem performs?_step {w : World M} {t : ℕ} {c : M.Call} {h : History M.sig} {o : M.sig.Op}
    {k : M.sig.Ret o → Program M.sig M.Result} (ch : M.Choice)
    (ht : w.threads[t]? = some ⟨c, h, .call o k⟩) : w.performs? (.step t ch) = some (c, o) := by
  simp [performs?, ht]

theorem exists_of_performs? {w : World M} {a : Act M} {c : M.Call} {o : M.sig.Op}
    (ha : w.performs? a = some (c, o)) :
    ∃ (t : ℕ) (ch : M.Choice) (h : History M.sig) (k : M.sig.Ret o → Program M.sig M.Result),
      a = .step t ch ∧ w.threads[t]? = some ⟨c, h, .call o k⟩ := by
  cases a with
  | step t ch =>
      obtain ⟨⟨c', h, rest⟩, ht, hth⟩ := Option.bind_eq_some_iff.mp ha
      cases rest with
      | ret r => cases hth
      | call o' k =>
          cases hth
          exact ⟨t, ch, h, k, rfl, ht⟩
  | spawn c => cases ha
  | env e => cases ha

theorem caller?_step {w : World M} {t : ℕ} {th : Thread M} (ch : M.Choice)
    (ht : w.threads[t]? = some th) : w.caller? (.step t ch) = some th.call := by
  simp [caller?, ht]

/-- After a thread performs, its own entry has grown by one answer and every
other entry is where it was. -/
theorem getElem?_perform {w : World M} {t : ℕ} {ch : M.Choice} {c : M.Call}
    {h : History M.sig} {o : M.sig.Op} {k : M.sig.Ret o → Program M.sig M.Result}
    (ht : w.threads[t]? = some ⟨c, h, .call o k⟩) (i : ℕ) :
    (w.perform t ch c h o k).threads[i]? =
      if i = t then some ⟨c, ⟨o, (M.exec ch w.state o).2⟩ :: h, k (M.exec ch w.state o).2⟩
      else w.threads[i]? := by
  have hlt : t < w.threads.length := (List.getElem?_eq_some_iff.mp ht).1
  simp only [perform]
  by_cases hi : i = t
  · subst hi
    rw [List.getElem?_set_self hlt, if_pos rfl]
  · rw [List.getElem?_set_ne (Ne.symm hi), if_neg hi]

theorem map_call_perform {w : World M} {t : ℕ} {ch : M.Choice} {c : M.Call}
    {h : History M.sig} {o : M.sig.Op} {k : M.sig.Ret o → Program M.sig M.Result}
    (ht : w.threads[t]? = some ⟨c, h, .call o k⟩) :
    (w.perform t ch c h o k).threads.map (·.call) = w.threads.map (·.call) := by
  apply List.ext_getElem?
  intro i
  rw [List.getElem?_map, List.getElem?_map, getElem?_perform ht]
  by_cases hi : i = t
  · rw [if_pos hi, hi, ht]
    rfl
  · rw [if_neg hi]

theorem getElem?_act_step {w : World M} {t : ℕ} {c : M.Call} {h : History M.sig} {o : M.sig.Op}
    {k : M.sig.Ret o → Program M.sig M.Result} (ch : M.Choice)
    (ht : w.threads[t]? = some ⟨c, h, .call o k⟩) :
    (w.act (.step t ch)).threads[t]? =
      some ⟨c, ⟨o, (M.exec ch w.state o).2⟩ :: h, k (M.exec ch w.state o).2⟩ := by
  rw [act_step ch ht, getElem?_perform ht, if_pos rfl]

theorem getElem?_act_step_ne {w : World M} {t u : ℕ} (ch : M.Choice) (hu : u ≠ t) :
    (w.act (.step t ch)).threads[u]? = w.threads[u]? := by
  simp only [act]
  split
  · rename_i ht
    rw [getElem?_perform ht, if_neg hu]
  · rfl

theorem getElem?_enter {w : World M} {c : M.Call} {i : ℕ} {th : Thread M}
    (h : (w.threads ++ [Thread.start c])[i]? = some th) :
    w.threads[i]? = some th ∨ i = w.threads.length ∧ th = .start c := by
  rw [List.getElem?_append] at h
  split at h
  · exact .inl h
  · rename_i hlt
    rw [List.getElem?_singleton] at h
    split at h
    · exact .inr ⟨by omega, (Option.some.inj h).symm⟩
    · cases h

/-! ### Runs -/

/-- An invariant of every action holds after every run. -/
theorem run_invariant {P : World M → Prop} (hact : ∀ {w a w'}, Moves w a w' → P w → P w')
    {w : World M} (hw : P w) (acts : List (Act M)) : P (w.run acts) := by
  induction acts generalizing w with
  | nil => exact hw
  | cons a acts ih => exact ih (hact (moves_act w a) hw)

/-- `C` holds of every action of a run, each taken with the world it meets. -/
def Always (C : World M → Act M → Prop) : World M → List (Act M) → Prop
  | _, [] => True
  | w, a :: acts => C w a ∧ Always C (w.act a) acts

instance Always.decide {C : World M → Act M → Prop} [∀ w a, Decidable (C w a)] :
    (w : World M) → (acts : List (Act M)) → Decidable (Always C w acts)
  | _, [] => inferInstanceAs (Decidable True)
  | w, a :: acts =>
      have := Always.decide (C := C) (w.act a) acts
      inferInstanceAs (Decidable (C w a ∧ Always C (w.act a) acts))

theorem always_append {C : World M → Act M → Prop} {w : World M} {acts acts' : List (Act M)} :
    Always C w (acts ++ acts') ↔ Always C w acts ∧ Always C (w.run acts) acts' := by
  induction acts generalizing w with
  | nil => simp [Always]
  | cons a acts ih => simp [Always, ih, and_assoc]

theorem Always.and {C D : World M → Act M → Prop} {w : World M} {acts : List (Act M)}
    (hC : Always C w acts) (hD : Always D w acts) :
    Always (fun w a => C w a ∧ D w a) w acts := by
  induction acts generalizing w with
  | nil => trivial
  | cons a acts ih => exact ⟨⟨hC.1, hD.1⟩, ih hC.2 hD.2⟩

theorem Always.mono {C D : World M → Act M → Prop} (h : ∀ {w a}, C w a → D w a) {w : World M}
    {acts : List (Act M)} (hC : Always C w acts) : Always D w acts := by
  induction acts generalizing w with
  | nil => trivial
  | cons a acts ih => exact ⟨h hC.1, ih hC.2⟩

/-- What holds of each action whatever world it meets holds along every run. -/
theorem always_of_forall_mem {C : World M → Act M → Prop} {acts : List (Act M)}
    (h : ∀ a ∈ acts, ∀ w, C w a) (w : World M) : Always C w acts := by
  induction acts generalizing w with
  | nil => trivial
  | cons a acts ih =>
      exact ⟨h a List.mem_cons_self w, ih (fun b hb => h b (List.mem_cons_of_mem _ hb)) _⟩

/-- What an invariant implies of every action holds along every run. -/
theorem always_of_invariant {D : World M → Act M → Prop} {P : World M → Prop}
    (hact : ∀ {w a w'}, Moves w a w' → P w → P w') (himp : ∀ {w a}, P w → D w a)
    {w : World M} (hw : P w) (acts : List (Act M)) : Always D w acts := by
  induction acts generalizing w with
  | nil => trivial
  | cons a acts ih => exact ⟨himp hw, ih (hact (moves_act w a) hw)⟩

/-- An invariant that actions keep as long as they meet `C`. -/
theorem run_invariant_of_always {C : World M → Act M → Prop} {P : World M → Prop}
    (hact : ∀ {w a w'}, Moves w a w' → C w a → P w → P w') {w : World M} (hw : P w)
    {acts : List (Act M)} (hC : Always C w acts) : P (w.run acts) := by
  induction acts generalizing w with
  | nil => exact hw
  | cons a acts ih => exact ih (hact (moves_act w a) hC.1 hw) hC.2

/-- With an invariant at hand, one property of the actions of a run follows
from another. -/
theorem Always.imp {C D : World M → Act M → Prop} {P : World M → Prop}
    (hact : ∀ {w a w'}, Moves w a w' → C w a → P w → P w')
    (himp : ∀ {w a}, C w a → P w → D w a)
    {w : World M} (hw : P w) {acts : List (Act M)} (hC : Always C w acts) :
    Always D w acts := by
  induction acts generalizing w with
  | nil => trivial
  | cons a acts ih => exact ⟨himp hC.1 hw, ih (hact (moves_act w a) hC.1 hw) hC.2⟩

theorem Moves.thread {w w' : World M} {a : Act M} (hm : Moves w a w') {t : ℕ}
    {th : Thread M} (ht : w.threads[t]? = some th) :
    ∃ th', w'.threads[t]? = some th' ∧ th.Later th' := by
  cases hm with
  | idle => exact ⟨th, ht, .refl th⟩
  | enter h =>
      have hlt : t < w.threads.length := (List.getElem?_eq_some_iff.mp ht).1
      exact ⟨th, by rwa [List.getElem?_append_left hlt], .refl th⟩
  | @perform u ch c h o k hu =>
      rw [getElem?_perform hu]
      by_cases htu : t = u
      · subst htu
        obtain rfl := Option.some.inj (ht.symm.trans hu)
        exact ⟨_, if_pos rfl, rfl, List.suffix_cons _ _, by simp⟩
      · exact ⟨th, by rw [if_neg htu, ht], .refl th⟩
  | env e => exact ⟨th, ht, .refl th⟩

/-- What holds of every thread goes on to hold if no change of the state undoes
it, it holds of new threads, and the performing thread keeps it. -/
theorem Moves.forall_threads {P : M.State → Thread M → Prop} {w w' : World M} {a : Act M}
    (hm : Moves w a w') (hw : ∀ (t : ℕ) (th : Thread M), w.threads[t]? = some th → P w.state th)
    (hstable : ∀ th, P w.state th → P w'.state th) (hstart : ∀ c, P w'.state (.start c))
    (hstep : ∀ {t ch c h o k}, a = .step t ch → w.threads[t]? = some ⟨c, h, .call o k⟩ →
      w'.state = (M.exec ch w.state o).1 →
      P w'.state ⟨c, ⟨o, (M.exec ch w.state o).2⟩ :: h, k (M.exec ch w.state o).2⟩) :
    ∀ (t : ℕ) (th : Thread M), w'.threads[t]? = some th → P w'.state th := by
  intro t th ht
  cases hm with
  | idle => exact hw _ _ ht
  | enter h =>
      rcases getElem?_enter ht with ht | ⟨-, rfl⟩
      · exact hstable _ (hw _ _ ht)
      · exact hstart _
  | @perform u ch c h o k hu =>
      rw [getElem?_perform hu] at ht
      split at ht
      · obtain rfl := Option.some.inj ht
        exact hstep rfl hu rfl
      · exact hstable _ (hw _ _ ht)
  | env e => exact hstable _ (hw _ _ ht)

theorem thread_run {w : World M} {t : ℕ} {th : Thread M} (ht : w.threads[t]? = some th)
    (acts : List (Act M)) :
    ∃ th', (w.run acts).threads[t]? = some th' ∧ th.Later th' := by
  induction acts generalizing w th with
  | nil => exact ⟨th, ht, .refl th⟩
  | cons a acts ih =>
      obtain ⟨th₁, ht₁, h₁⟩ := (moves_act w a).thread ht
      obtain ⟨th₂, ht₂, h₂⟩ := ih ht₁
      exact ⟨th₂, ht₂, h₁.trans h₂⟩

end World

/-! ### Contracts

The part of a safety argument that is the same in every system: each call's
program is guarded, and each answer a thread has got states a fact about the
shared state that no later action can undo. Both then hold of every thread in
every run. -/

/-- Guards and postconditions for the program of every call, and a stable
meaning for every answer. -/
structure Contract (M : System) where
  guard : M.Call → History M.sig → M.sig.Op → Prop
  post : M.Call → History M.sig → M.Result → Prop
  sound : M.State → Answered M.sig → Prop
  program : ∀ c, (M.program c).Guarded (guard c) (post c) []
  answer : ∀ ch s o, sound (M.exec ch s o).1 ⟨o, (M.exec ch s o).2⟩
  stable : ∀ {w w' : World M} {a : Act M}, World.Moves w a w' →
    ∀ x, sound w.state x → sound w'.state x

namespace Contract

variable {M : System} (K : Contract M)

/-- A thread that follows its call's guards, has followed them so far, and whose
answers still mean what they meant. -/
structure Holds (s : M.State) (th : Thread M) : Prop where
  guarded : th.rest.Guarded (K.guard th.call) (K.post th.call) th.hist
  allowed : ∀ {x h}, x :: h <:+ th.hist → K.guard th.call h x.op
  sound : ∀ x ∈ th.hist, K.sound s x

/-- Every thread of the world meets the contract. -/
def Ok (w : World M) : Prop :=
  ∀ (t : ℕ) (th : Thread M), w.threads[t]? = some th → K.Holds w.state th

theorem ok_init (s : M.State) : K.Ok (World.init s) := by
  intro t th ht
  simp [World.init] at ht

theorem ok_moves {w w' : World M} {a : Act M} (hm : World.Moves w a w') (hw : K.Ok w) :
    K.Ok w' := by
  refine hm.forall_threads (P := K.Holds) hw (fun th hth => ?_) (fun c => ?_) ?_
  · exact ⟨hth.guarded, hth.allowed, fun x hx => K.stable hm x (hth.sound x hx)⟩
  · exact ⟨K.program _, by simp [Thread.start], by simp [Thread.start]⟩
  · intro t ch c h o k _ ht hs
    refine ⟨(hw _ _ ht).guarded.2 _, fun hsuf => ?_, fun x hx => ?_⟩
    · rcases List.suffix_cons_iff.mp hsuf with heq | hsuf
      · obtain ⟨rfl, rfl⟩ := List.cons.inj heq
        exact (hw _ _ ht).guarded.1
      · exact (hw _ _ ht).allowed hsuf
    · rcases List.mem_cons.mp hx with rfl | hx
      · exact hs ▸ K.answer ch w.state o
      · exact K.stable hm x ((hw _ _ ht).sound x hx)

theorem ok_run (s : M.State) (acts : List (Act M)) : K.Ok ((World.init s).run acts) :=
  World.run_invariant K.ok_moves (K.ok_init s) acts

variable {K}

/-- What a thread is about to do is allowed by its guard. -/
theorem Ok.guard {w : World M} (hw : K.Ok w) {t : ℕ} {c : M.Call} {h : History M.sig}
    {o : M.sig.Op} {k : M.sig.Ret o → Program M.sig M.Result}
    (ht : w.threads[t]? = some ⟨c, h, .call o k⟩) : K.guard c h o :=
  (hw _ _ ht).guarded.1

/-- What a thread has returned is allowed by its postcondition. -/
theorem Ok.post {w : World M} (hw : K.Ok w) {t : ℕ} {th : Thread M} {a : M.Result}
    (ht : w.threads[t]? = some th) (ha : th.rest.result? = some a) :
    K.post th.call th.hist a := by
  have hg := (hw _ _ ht).guarded
  cases hrest : th.rest with
  | ret b =>
      rw [hrest] at hg ha
      obtain rfl := Option.some.inj ha
      exact hg
  | call o k =>
      rw [hrest] at ha
      cases ha

end Contract

end Interleaving
