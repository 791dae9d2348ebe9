import TransportNats.Library.World
import Mathlib.Data.List.Induction

/-!
The moments of a run.

What a thread has been answered, it was answered by one step of the run, in the
state that the run had come to by then. Results about single operations become
results about calls in this way: an operation that decides a call is the moment
at which the call takes effect.
-/

namespace Interleaving

namespace World

variable {M : System}

/-- In the run `acts` from `w`, a step of thread `t` performs `o`, gets the answer `r`
and turns the state `s` into `s'`. -/
def Answers (w : World M) (acts : List (Act M)) (t : ℕ) (ch : M.Choice) (o : M.sig.Op)
    (r : M.sig.Ret o) (s s' : M.State) : Prop :=
  ∃ pre post, acts = pre ++ .step t ch :: post ∧ (w.run pre).state = s ∧
    (w.run (pre ++ [.step t ch])).state = s' ∧ M.exec ch s o = (s', r)

theorem Answers.append {w : World M} {acts : List (Act M)} {t : ℕ} {ch : M.Choice} {o : M.sig.Op}
    {r : M.sig.Ret o} {s s' : M.State} (h : w.Answers acts t ch o r s s') (acts' : List (Act M)) :
    w.Answers (acts ++ acts') t ch o r s s' := by
  obtain ⟨pre, post, rfl, hs, hs', hexec⟩ := h
  exact ⟨pre, post ++ acts', by simp, hs, hs', hexec⟩

/-- Every answer that a thread has got since `w`, where it did not exist yet, was given
at some moment of the run. -/
theorem answers_of_mem_of_new (w : World M) (acts : List (Act M)) {t : ℕ} {th : Thread M}
    (hnew : w.threads.length ≤ t) (ht : (w.run acts).threads[t]? = some th) {x : Answered M.sig}
    (hx : x ∈ th.hist) : ∃ ch s s', w.Answers acts t ch x.op x.ret s s' := by
  induction acts using List.reverseRecOn generalizing th with
  | nil =>
      rw [run_nil, List.getElem?_eq_none hnew] at ht
      cases ht
  | append_singleton acts a ih =>
      have hold : ∀ {th' : Thread M}, (w.run acts).threads[t]? = some th' → x ∈ th'.hist →
          ∃ ch s s', w.Answers (acts ++ [a]) t ch x.op x.ret s s' := by
        intro th' ht' hx'
        obtain ⟨ch, s, s', h⟩ := ih ht' hx'
        exact ⟨ch, s, s', h.append [a]⟩
      have hrun : w.run (acts ++ [a]) = (w.run acts).act a := by
        rw [run_append]
        rfl
      rw [hrun] at ht
      have hm := moves_act (w.run acts) a
      generalize hw' : (w.run acts).act a = w' at hm ht
      cases hm with
      | idle => exact hold ht hx
      | env e => exact hold ht hx
      | enter h =>
          rcases getElem?_enter ht with ht | ⟨-, rfl⟩
          · exact hold ht hx
          · simp [Thread.start] at hx
      | @perform u ch c h o k hu =>
          rw [getElem?_perform hu] at ht
          split at ht
          · rename_i htu
            subst htu
            obtain rfl := Option.some.inj ht
            rcases List.mem_cons.mp hx with rfl | hx
            · refine ⟨ch, _, _, acts, [], rfl, rfl, ?_, rfl⟩
              rw [hrun, hw']
              rfl
            · exact hold hu hx
          · exact hold ht hx

/-- The same for a run from its beginning. -/
theorem answers_of_mem (s₀ : M.State) (acts : List (Act M)) {t : ℕ} {th : Thread M}
    (ht : ((World.init s₀).run acts).threads[t]? = some th) {x : Answered M.sig}
    (hx : x ∈ th.hist) :
    ∃ ch s s', (World.init s₀).Answers acts t ch x.op x.ret s s' :=
  answers_of_mem_of_new (World.init s₀) acts (Nat.zero_le t) ht hx

end World

end Interleaving
