import Mathlib.Data.Nat.Notation

/-!
Loops as iterated rounds.

The body of a loop either goes on from a new state or returns. `run` takes a
number of rounds and says nothing if they were too few, so that a loop which
never returns is not mistaken for one that returns some default.
-/

namespace Loop

variable {σ α : Type}

/-- What the loop returns within the given number of rounds. -/
def run (step : σ → σ ⊕ α) : ℕ → σ → Option α
  | 0, _ => none
  | rounds + 1, s =>
      match step s with
      | .inl s' => run step rounds s'
      | .inr a => some a

/-- Termination: every round that goes on lowers the measure `m`. -/
theorem exists_run {step : σ → σ ⊕ α} {I : σ → Prop} {m : σ → ℕ}
    (hstep : ∀ {s s'}, I s → step s = .inl s' → I s' ∧ m s' < m s) {s : σ} (hs : I s) {rounds : ℕ}
    (hrounds : m s < rounds) : ∃ a, run step rounds s = some a := by
  induction rounds generalizing s with
  | zero => exact absurd hrounds (Nat.not_lt_zero _)
  | succ rounds ih =>
      rw [run]
      cases hround : step s with
      | inl s' =>
          obtain ⟨hs', hless⟩ := hstep hs hround
          exact ih hs' (Nat.lt_of_lt_of_le hless (Nat.le_of_lt_succ hrounds))
      | inr a => exact ⟨a, rfl⟩

/-- Total correctness: if every round that goes on lowers the measure `m` and keeps
the value `V` of the state, and a round that returns returns that value, then the loop
returns the value of the state in which it starts. -/
theorem run_eq {step : σ → σ ⊕ α} {I : σ → Prop} {m : σ → ℕ} {V : σ → α}
    (hstep : ∀ {s s'}, I s → step s = .inl s' →
      I s' ∧ m s' < m s ∧ V s' = V s)
    (hret : ∀ {s a}, I s → step s = .inr a → a = V s) {s : σ} (hs : I s) {rounds : ℕ}
    (hrounds : m s < rounds) : run step rounds s = some (V s) := by
  induction rounds generalizing s with
  | zero => exact absurd hrounds (Nat.not_lt_zero _)
  | succ rounds ih =>
      rw [run]
      cases hround : step s with
      | inl s' =>
          obtain ⟨hs', hless, hvalue⟩ := hstep hs hround
          rw [← hvalue]
          exact ih hs' (Nat.lt_of_lt_of_le hless (Nat.le_of_lt_succ hrounds))
      | inr a => rw [hret hs hround]

end Loop
