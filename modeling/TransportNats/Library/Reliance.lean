import TransportNats.Library.World

/-!
Programs that rely on what their answers look like.

`Guarded` asks a program to behave whatever it is told. Where the shared state
keeps an invariant, more can be said of every answer, and the invariant is kept
only because the programs, told such answers, ask for nothing that would break
it. Neither half can be proved before the other; `Reliance` closes the circle,
one step of one thread at a time.
-/

namespace Interleaving

namespace Program

variable {S : Signature} {α β : Type}

/-- `Relies A G Q p`: as long as every answer meets `A`, the program `p` performs
only operations that `G` allows and returns only values that `Q` allows. -/
def Relies (A : Answered S → Prop) (G : S.Op → Prop) (Q : α → Prop) : Program S α → Prop
  | .ret a => Q a
  | .call o k => G o ∧ ∀ r, A ⟨o, r⟩ → Relies A G Q (k r)

variable {A : Answered S → Prop} {G : S.Op → Prop} {Q : β → Prop}

@[simp] theorem relies_pure (a : β) : Relies A G Q (pure a) ↔ Q a := Iff.rfl

@[simp] theorem relies_perform_bind (o : S.Op) (f : S.Ret o → Program S β) :
    Relies A G Q (perform o >>= f) ↔ G o ∧ ∀ r, A ⟨o, r⟩ → Relies A G Q (f r) := Iff.rfl

/-- The sequencing rule. -/
theorem Relies.bind {p : Program S α} {f : α → Program S β} {R : α → Prop}
    (hp : Relies A G R p) (hf : ∀ a, R a → Relies A G Q (f a)) : Relies A G Q (p >>= f) := by
  induction p with
  | ret a => exact hf a hp
  | call o k ih => exact ⟨hp.1, fun r hr => ih r (hp.2 r hr)⟩

end Program

/-- An invariant of the shared state, what it lets be said of the answers, and
what the programs then keep to. -/
structure Reliance (M : System) where
  inv : M.State → Prop
  honest : M.Choice → Prop
  answer : Answered M.sig → Prop
  guard : M.Call → M.sig.Op → Prop
  post : M.Call → M.Result → Prop
  program : ∀ c, (M.program c).Relies answer (guard c) (post c)
  exec : ∀ {ch s c o}, honest ch → inv s → guard c o →
    inv (M.exec ch s o).1 ∧ answer ⟨o, (M.exec ch s o).2⟩
  enter : ∀ {c s s'}, inv s → M.enter c s = some s' → inv s'
  env : ∀ {e s}, inv s → inv (M.env e s)

namespace Reliance

variable {M : System} (R : Reliance M)

/-- What a thread still has to do relies on its answers. -/
def Holds (th : Thread M) : Prop := th.rest.Relies R.answer (R.guard th.call) (R.post th.call)

structure Ok (w : World M) : Prop where
  inv : R.inv w.state
  threads : ∀ (t : ℕ) (th : Thread M), w.threads[t]? = some th → R.Holds th

/-- The schedule makes only honest choices. -/
def HonestAct (_ : World M) : Act M → Prop
  | .step _ ch => R.honest ch
  | .spawn _ | .env _ => True

theorem always_honestAct {acts : List (Act M)} (hacts : ∀ t ch, .step t ch ∈ acts → R.honest ch)
    (w : World M) : World.Always R.HonestAct w acts := by
  induction acts generalizing w with
  | nil => trivial
  | cons a acts ih =>
      refine ⟨?_, ih (fun t ch h => hacts t ch (List.mem_cons_of_mem _ h)) _⟩
      cases a with
      | step t ch => exact hacts t ch List.mem_cons_self
      | spawn c => trivial
      | env e => trivial

theorem ok_init {s : M.State} (hs : R.inv s) : R.Ok (World.init s) :=
  ⟨hs, by simp [World.init]⟩

theorem ok_moves {w w' : World M} {a : Act M} (hm : World.Moves w a w') (ha : R.HonestAct w a)
    (hw : R.Ok w) : R.Ok w' := by
  have hthreads := hm.forall_threads (P := fun _ => R.Holds) hw.threads (fun _ h => h)
    (fun c => R.program c) ?_
  · refine ⟨?_, hthreads⟩
    cases hm with
    | idle => exact hw.inv
    | enter h => exact R.enter hw.inv h
    | perform ht => exact (R.exec ha hw.inv (hw.threads _ _ ht).1).1
    | env e => exact R.env hw.inv
  · rintro t ch c h o k rfl ht -
    have hth := hw.threads _ _ ht
    exact hth.2 _ (R.exec ha hw.inv hth.1).2

theorem ok_run {w : World M} (hw : R.Ok w) {acts : List (Act M)}
    (hacts : World.Always R.HonestAct w acts) : R.Ok (w.run acts) :=
  World.run_invariant_of_always R.ok_moves hw hacts

variable {R}

theorem Ok.guard {w : World M} (hw : R.Ok w) {t : ℕ} {c : M.Call} {h : History M.sig}
    {o : M.sig.Op} {k : M.sig.Ret o → Program M.sig M.Result}
    (ht : w.threads[t]? = some ⟨c, h, .call o k⟩) : R.guard c o :=
  (hw.threads _ _ ht).1

theorem Ok.post {w : World M} (hw : R.Ok w) {t : ℕ} {th : Thread M} {a : M.Result}
    (ht : w.threads[t]? = some th) (ha : th.rest.result? = some a) : R.post th.call a := by
  have hth := hw.threads t th ht
  unfold Holds at hth
  cases hrest : th.rest with
  | ret b =>
      rw [hrest] at hth ha
      obtain rfl := Option.some.inj ha
      exact hth
  | call o k =>
      rw [hrest] at ha
      cases ha

end Reliance

end Interleaving
