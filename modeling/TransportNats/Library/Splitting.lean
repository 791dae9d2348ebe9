import Mathlib.Data.List.DropRight
import Mathlib.Data.List.TakeWhile

/-!
Splitting a list at an element, and reading it up to where a class of elements
ends.

Parsers of texts are written with both. Each has one lemma here that says for
which parts a list is their concatenation, which is all that is needed to invert
a parser or to run it on a text with known parts.
-/

namespace Splitting

variable {α : Type*}

/-! ### At an element -/

section
variable [DecidableEq α] {c : α} {s a b : List α}

/-- What stands before and after the first `c`. -/
def splitFirst (c : α) : List α → Option (List α × List α)
  | [] => none
  | x :: s =>
      if x = c then some ([], s)
      else (splitFirst c s).map fun parts => (x :: parts.1, parts.2)

/-- What stands before and after the last `c`. -/
def splitLast (c : α) (s : List α) : Option (List α × List α) :=
  (splitFirst c s.reverse).map fun parts => (parts.2.reverse, parts.1.reverse)

theorem splitFirst_eq_some : splitFirst c s = some (a, b) ↔ s = a ++ c :: b ∧ c ∉ a := by
  induction s generalizing a with
  | nil => simp [splitFirst]
  | cons x s ih =>
      rw [splitFirst]
      by_cases hx : x = c
      · subst hx
        cases a with
        | nil => simp
        | cons y a => simp +contextual [eq_comm]
      · rw [if_neg hx]
        cases a with
        | nil => simp [hx]
        | cons y a =>
            simp only [Option.map_eq_some_iff, Prod.mk.injEq, List.cons.injEq, Prod.exists,
              List.cons_append, List.mem_cons, not_or]
            constructor
            · rintro ⟨a', b', hsplit, ⟨rfl, rfl⟩, rfl⟩
              obtain ⟨hs, hc⟩ := ih.mp hsplit
              exact ⟨⟨rfl, hs⟩, Ne.symm hx, hc⟩
            · rintro ⟨⟨rfl, hs⟩, -, hc⟩
              exact ⟨a, b, ih.mpr ⟨hs, hc⟩, ⟨rfl, rfl⟩, rfl⟩

theorem splitFirst_eq_none : splitFirst c s = none ↔ c ∉ s := by
  induction s with
  | nil => simp [splitFirst]
  | cons x s ih =>
      rw [splitFirst]
      by_cases hx : x = c
      · simp [hx]
      · simp [hx, ih, Ne.symm hx]

/-- No part of a list that is split at `c` contains `c`. -/
theorem notMem_of_mem_splitOn {part : List α} (h : part ∈ s.splitOn c) : c ∉ part := by
  induction hn : s.length using Nat.strong_induction_on generalizing s with
  | _ n ih =>
      rcases hs : splitFirst c s with _ | ⟨first, rest⟩
      · rw [List.splitOn_eq_singleton (splitFirst_eq_none.mp hs), List.mem_singleton] at h
        exact h ▸ splitFirst_eq_none.mp hs
      · obtain ⟨rfl, hfirst⟩ := splitFirst_eq_some.mp hs
        rw [List.splitOn_append_cons_self_of_not_mem hfirst] at h
        rcases List.mem_cons.mp h with rfl | h
        · exact hfirst
        · exact ih rest.length (by simp [← hn]; omega) h rfl

theorem splitLast_eq_some : splitLast c s = some (a, b) ↔ s = a ++ c :: b ∧ c ∉ b := by
  have hrev : s = a ++ c :: b ↔ s.reverse = b.reverse ++ c :: a.reverse := by
    rw [← List.reverse_inj]
    simp
  have hmem : c ∈ b ↔ c ∈ b.reverse := List.mem_reverse.symm
  rw [hrev, hmem, ← splitFirst_eq_some, splitLast]
  simp only [Option.map_eq_some_iff, Prod.mk.injEq, Prod.exists]
  constructor
  · rintro ⟨b', a', hsplit, rfl, rfl⟩
    simpa using hsplit
  · intro hsplit
    exact ⟨b.reverse, a.reverse, hsplit, by simp, by simp⟩

end

theorem exists_splitLast {c : α} {s : List α} (h : c ∈ s) : ∃ a b, s = a ++ c :: b ∧ c ∉ b := by
  obtain ⟨b, a, hs, hb⟩ := List.eq_append_cons_of_mem (List.mem_reverse.mpr h)
  refine ⟨a.reverse, b.reverse, ?_, by simpa using hb⟩
  rw [← List.reverse_inj]
  simpa using hs

/-- What begins with an element that does not occur in `m` lies behind `m`. -/
theorem suffix_of_append_eq {m t z w : List α} {c : α} (h : m ++ t = z ++ c :: w)
    (hc : c ∉ m) : c :: w <:+ t := by
  rcases List.append_eq_append_iff.mp h with ⟨m', hz, ht⟩ | ⟨m', hm, ht⟩
  · exact ⟨m', ht.symm⟩
  · cases m' with
    | nil => exact ⟨[], by simpa using ht⟩
    | cons d m' =>
        obtain ⟨rfl, -⟩ := List.cons.inj ht
        exact absurd (by simp [hm]) hc

/-! ### Up to where a class ends -/

/-- The list does not go on with an element of `p`. -/
def Stops (p : α → Bool) (s : List α) : Prop := ∀ c rest, s = c :: rest → p c = false

theorem stops_dropWhile (p : α → Bool) (s : List α) : Stops p (s.dropWhile p) := by
  intro c rest h
  induction s with
  | nil => cases h
  | cons x s ih =>
      rw [List.dropWhile_cons] at h
      split at h
      · exact ih h
      · rename_i hx
        obtain ⟨rfl, -⟩ := List.cons.inj h
        exact Bool.not_eq_true _ ▸ hx

/-- The list without the elements of `p` at either end. -/
def trim (p : α → Bool) (s : List α) : List α := ((s.dropWhile p).reverse.dropWhile p).reverse

theorem trim_sublist (p : α → Bool) (s : List α) : (trim p s).Sublist s :=
  (List.rdropWhile_prefix p (s.dropWhile p)).sublist.trans (List.dropWhile_sublist p)

theorem trim_trim (p : α → Bool) (s : List α) : trim p (trim p s) = trim p s := by
  have hprefix : trim p s <+: s.dropWhile p := List.rdropWhile_prefix p _
  -- what is left begins where the rest of the list stops
  have hdrop : (trim p s).dropWhile p = trim p s := by
    rcases htrim : trim p s with _ | ⟨c, rest⟩
    · rfl
    · obtain ⟨tail, htail⟩ := hprefix
      rw [htrim] at htail
      have hc := stops_dropWhile p s c (rest ++ tail) htail.symm
      rw [List.dropWhile_cons_of_neg (by simp [hc])]
  rw [trim, hdrop]
  exact List.rdropWhile_idempotent p (s.dropWhile p)

/-- A run of elements of `p` is read up to where the list stops. -/
theorem span_append {p : α → Bool} {a s : List α} (ha : ∀ x ∈ a, p x) (hs : Stops p s) :
    (a ++ s).takeWhile p = a ∧ (a ++ s).dropWhile p = s := by
  induction a with
  | nil =>
      cases s with
      | nil => simp
      | cons c s => simp [hs c s rfl]
  | cons x a ih =>
      obtain ⟨hx, ha⟩ := List.forall_mem_cons.mp ha
      simp [hx, ih ha]

end Splitting
