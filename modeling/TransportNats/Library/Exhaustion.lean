import Mathlib.Logic.Hydra
import Mathlib.Tactic.Abel
import TransportNats.Library.World

/-!
Threads that start further threads come to an end.

A program is a finite tree, but no number bounds the steps of a thread
beforehand, and a thread may have others started. As long as it starts only
threads of a lower level than its own, the work that is left in a world gets
less with every step: one program is replaced by what is left of it, beside any
number of programs of lower levels that are still to begin. This is the order
of `Relation.CutExpand` on multisets.

So it is enough for the completion of a system that it is never stuck:
`World.exists_run_of_goes` turns an action that is always possible into a run to
the end.
-/

namespace Interleaving

open Relation

/-! ### Programs that go on -/

/-- What is left of a program after one more answer. -/
inductive Program.Continues {S : Signature} {α : Type} : Program S α → Program S α → Prop
  | answer {o : S.Op} (k : S.Ret o → Program S α) (r : S.Ret o) : Continues (k r) (.call o k)

theorem Program.wellFounded_continues {S : Signature} {α : Type} :
    WellFounded (Program.Continues (S := S) (α := α)) := by
  refine ⟨fun p => ?_⟩
  induction p with
  | ret a => exact ⟨_, fun q hq => by cases hq⟩
  | call o k ih =>
      refine ⟨_, fun q hq => ?_⟩
      cases hq with
      | answer k r => exact ih r

/-- A program that has begun is less than one that is still to begin, which may
turn out to be any. -/
inductive Program.Sooner {S : Signature} {α : Type} :
    Option (Program S α) → Option (Program S α) → Prop
  | goesOn {p q : Program S α} (h : p.Continues q) : Sooner (some p) (some q)
  | begins (p : Program S α) : Sooner (some p) none

theorem Program.wellFounded_sooner {S : Signature} {α : Type} :
    WellFounded (Program.Sooner (S := S) (α := α)) := by
  have hsome : ∀ p : Program S α, Acc Program.Sooner (some p) := by
    intro p
    induction p using Program.wellFounded_continues.induction with
    | _ p ih =>
        refine ⟨_, fun q hq => ?_⟩
        cases hq with
        | goesOn h => exact ih _ h
  refine ⟨fun p => ?_⟩
  cases p with
  | some p => exact hsome p
  | none =>
      refine ⟨_, fun q hq => ?_⟩
      cases hq with
      | begins p => exact hsome p

/-! ### The work left in a world -/

/-- What is left of a thread, under its level. -/
abbrev Load (M : System) := ℕ × Option (Program M.sig M.Result)

def Load.Less {M : System} : Load M → Load M → Prop := Prod.Lex (· < ·) Program.Sooner

theorem Load.wellFounded_less {M : System} : WellFounded (Load.Less (M := M)) :=
  WellFounded.prod_lex Nat.lt_wfRel.wf Program.wellFounded_sooner

namespace World

variable {M : System} (level : M.Call → ℕ) (pending : M.State → List ℕ)

/-- What the threads have left to do, and the levels of those still to begin. -/
def load (w : World M) : Multiset (Load M) :=
  ↑(w.threads.map fun th => ((level th.call, some th.rest) : Load M)) +
    ↑((pending w.state).map fun n => ((n, none) : Load M))

variable {level pending}

/-- A step leaves less, if what it lets begin is of lower levels. -/
theorem load_perform {w : World M} {t : ℕ} {ch : M.Choice} {c : M.Call} {h : History M.sig}
    {o : M.sig.Op} {k : M.sig.Ret o → Program M.sig M.Result}
    (ht : w.threads[t]? = some ⟨c, h, .call o k⟩) {lower : List ℕ}
    (hpending : (pending (M.exec ch w.state o).1).Perm (lower ++ pending w.state))
    (hlower : ∀ n ∈ lower, n < level c) :
    CutExpand Load.Less (load level pending (w.perform t ch c h o k)) (load level pending w) := by
  obtain ⟨hlt, hget⟩ := List.getElem?_eq_some_iff.mp ht
  let left : Load M := (level c, some (k (M.exec ch w.state o).2))
  let fresh : List (Load M) := lower.map fun n => (n, none)
  refine ⟨left ::ₘ ↑fresh, (level c, some (.call o k)), fun x hx => ?_, ?_⟩
  · rcases Multiset.mem_cons.mp hx with rfl | hx
    · exact .right _ (.goesOn (.answer k _))
    · obtain ⟨n, hn, rfl⟩ := List.mem_map.mp (Multiset.mem_coe.mp hx)
      exact .left _ _ (hlower n hn)
  · -- the thread's entry is exchanged, and the pending levels grow
    let f : Thread M → Load M := fun th => (level th.call, some th.rest)
    let others : List (Load M) := (w.threads.eraseIdx t).map f
    let old : List (Load M) := (pending w.state).map fun n => (n, none)
    have hthreads : (w.threads.map f).Perm ((level c, some (.call o k)) :: others) := by
      have hperm := (List.getElem_cons_eraseIdx_perm hlt).symm.map f
      rw [hget] at hperm
      exact hperm
    have hset : ((w.perform t ch c h o k).threads.map f).Perm (left :: others) :=
      (List.set_perm_cons_eraseIdx hlt _).map f
    have hnew : ((pending (M.exec ch w.state o).1).map fun n => ((n, none) : Load M)).Perm
        (fresh ++ old) := by
      have hperm := hpending.map fun n => ((n, none) : Load M)
      rw [List.map_append] at hperm
      exact hperm
    have hafter : load level pending (w.perform t ch c h o k) =
        ↑(left :: others) + ↑(fresh ++ old) :=
      congrArg₂ (· + ·) (Multiset.coe_eq_coe.mpr hset) (Multiset.coe_eq_coe.mpr hnew)
    have hbefore : load level pending w = ↑((level c, some (.call o k)) :: others) + ↑old :=
      congrArg (· + _) (Multiset.coe_eq_coe.mpr hthreads)
    rw [hafter, hbefore]
    simp only [← Multiset.coe_add, ← Multiset.cons_coe, ← Multiset.singleton_add]
    abel

/-- What begins leaves less than what was to begin. -/
theorem load_enter {w : World M} {c : M.Call} {s : M.State}
    (hpending : (pending w.state).Perm (level c :: pending s)) :
    CutExpand Load.Less (load level pending ⟨s, w.threads ++ [.start c]⟩)
      (load level pending w) := by
  refine ⟨{(level c, some (M.program c))}, (level c, none), fun x hx => ?_, ?_⟩
  · rw [Multiset.mem_singleton.mp hx]
    exact .right _ (.begins _)
  · let threads : List (Load M) := w.threads.map fun th => (level th.call, some th.rest)
    let rest : List (Load M) := (pending s).map fun n => (n, none)
    have hafter : load level pending ⟨s, w.threads ++ [.start c]⟩ =
        ↑(threads ++ [(level c, some (M.program c))]) + ↑rest :=
      congrArg (· + _) (congrArg _ List.map_append)
    have hbefore : load level pending w = ↑threads + ↑((level c, none) :: rest) :=
      congrArg (_ + ·) (Multiset.coe_eq_coe.mpr (hpending.map fun n => ((n, none) : Load M)))
    rw [hafter, hbefore]
    simp only [← Multiset.coe_add, ← Multiset.cons_coe, ← Multiset.singleton_add]
    abel

/-! ### Running to the end -/

/-- Where every world that is not finished has an action that leaves less, some
run of such actions finishes. -/
theorem exists_run_of_goes {β : Type} {less : β → β → Prop} (hless : WellFounded less)
    (left : World M → β) {P F : World M → Prop} {C : World M → Act M → Prop}
    (hgoes : ∀ w, P w → F w ∨
      ∃ a, C w a ∧ P (w.act a) ∧ less (left (w.act a)) (left w))
    {w : World M} (hw : P w) :
    ∃ acts, Always C w acts ∧ P (w.run acts) ∧ F (w.run acts) := by
  induction hb : left w using hless.induction generalizing w with
  | _ b ih =>
      subst hb
      rcases hgoes w hw with hfin | ⟨a, ha, hP, hlt⟩
      · exact ⟨[], trivial, hw, hfin⟩
      · obtain ⟨acts, hacts, hend⟩ := ih _ hlt hP rfl
        exact ⟨a :: acts, ⟨ha, hacts⟩, hend⟩

end World

end Interleaving
