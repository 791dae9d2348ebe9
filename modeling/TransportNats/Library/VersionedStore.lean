import Mathlib.Logic.Function.Basic
import Mathlib.Data.Nat.Notation

/-!
A key-value store whose records carry revisions.

Every write, a deletion included, takes the next number of one sequence and
leaves it on the record it wrote. A conditional write names the revision it
expects and goes through only if the record is still at it. All that clients
can rely on is in `Grows`: a record either is untouched or has become newer
than everything that was there. So a revision, once seen, determines the value
that stands under it for good, which is what `Recorded` states.
-/

namespace VersionedStore

/-- The latest record of a key; a deletion leaves a marker with no value. -/
structure Cell (ν : Type) where
  value : Option ν
  revision : ℕ
  deriving DecidableEq

structure Store (κ ν : Type) where
  cells : κ → Option (Cell ν)
  seq : ℕ
  le_seq : ∀ k c, cells k = some c → 0 < c.revision ∧ c.revision ≤ seq

variable {κ ν : Type}

namespace Store

def empty : Store κ ν := ⟨fun _ => none, 0, by simp⟩

/-- The revision of the latest record of a key, zero if it never had one. -/
def revision (s : Store κ ν) (k : κ) : ℕ := (s.cells k).elim 0 (·.revision)

/-- The value of a key that is present, with its revision. -/
def read (s : Store κ ν) (k : κ) : Option (ν × ℕ) :=
  match s.cells k with
  | some ⟨some v, r⟩ => some (v, r)
  | _ => none

theorem cells_of_read {s : Store κ ν} {k : κ} {v : ν} {r : ℕ} (h : s.read k = some (v, r)) :
    s.cells k = some ⟨some v, r⟩ := by
  unfold read at h
  split at h
  · rename_i hc
    rw [hc]
    cases h
    rfl
  · cases h

theorem read_of_cells {s : Store κ ν} {k : κ} {v : ν} {r : ℕ}
    (h : s.cells k = some ⟨some v, r⟩) : s.read k = some (v, r) := by
  simp only [read, h]

theorem revision_of_cells {s : Store κ ν} {k : κ} {c : Cell ν} (h : s.cells k = some c) :
    s.revision k = c.revision := by
  simp [revision, h]

theorem revision_le_seq (s : Store κ ν) (k : κ) : s.revision k ≤ s.seq := by
  unfold revision
  cases h : s.cells k with
  | none => exact Nat.zero_le _
  | some c => exact (s.le_seq k c h).2

theorem cells_of_revision {s : Store κ ν} {k : κ} {r : ℕ} (hr : 0 < r)
    (h : s.revision k = r) : ∃ v, s.cells k = some ⟨v, r⟩ := by
  unfold revision at h
  cases hc : s.cells k with
  | none =>
      rw [hc] at h
      exact absurd h (Nat.ne_of_lt hr)
  | some c =>
      rw [hc] at h
      cases h
      exact ⟨c.value, rfl⟩

variable [DecidableEq κ]

/-- The next record of the sequence goes to key `k`. -/
def write (s : Store κ ν) (k : κ) (v : Option ν) : Store κ ν where
  cells := Function.update s.cells k (some ⟨v, s.seq + 1⟩)
  seq := s.seq + 1
  le_seq k' c h := by
    by_cases hk : k' = k
    · subst hk
      rw [Function.update_self] at h
      cases h
      exact ⟨Nat.succ_pos _, Nat.le_refl _⟩
    · rw [Function.update_of_ne hk] at h
      exact ⟨(s.le_seq k' c h).1, Nat.le_succ_of_le (s.le_seq k' c h).2⟩

/-- Write a key that is absent or deleted. -/
def create (s : Store κ ν) (k : κ) (v : ν) : Option (Store κ ν) :=
  match s.read k with
  | some _ => none
  | none => some (s.write k (some v))

/-- Replace the record of a key, or leave a deletion marker, if the key is still at
revision `r`. -/
def writeAt (s : Store κ ν) (k : κ) (v : Option ν) (r : ℕ) : Option (Store κ ν) :=
  if s.revision k = r then some (s.write k v) else none

@[simp] theorem cells_write_self (s : Store κ ν) (k : κ) (v : Option ν) :
    (s.write k v).cells k = some ⟨v, s.seq + 1⟩ := Function.update_self ..

@[simp] theorem cells_write_ne (s : Store κ ν) {k k' : κ} (v : Option ν) (h : k' ≠ k) :
    (s.write k v).cells k' = s.cells k' := Function.update_of_ne h ..

@[simp] theorem revision_write_self (s : Store κ ν) (k : κ) (v : Option ν) :
    (s.write k v).revision k = s.seq + 1 := revision_of_cells (cells_write_self s k v)

@[simp] theorem read_write_self (s : Store κ ν) (k : κ) (v : Option ν) :
    (s.write k v).read k = v.map fun x => (x, s.seq + 1) := by
  cases v <;> simp [read]

@[simp] theorem read_write_ne (s : Store κ ν) {k k' : κ} (v : Option ν) (h : k' ≠ k) :
    (s.write k v).read k' = s.read k' := by
  simp only [read, cells_write_ne s v h]

@[simp] theorem revision_write_ne (s : Store κ ν) {k k' : κ} (v : Option ν) (h : k' ≠ k) :
    (s.write k v).revision k' = s.revision k' := by
  simp only [revision, cells_write_ne s v h]

theorem create_eq_some {s s' : Store κ ν} {k : κ} {v : ν} (h : s.create k v = some s') :
    s.read k = none ∧ s' = s.write k (some v) := by
  unfold create at h
  split at h
  · cases h
  · exact ⟨‹_›, (Option.some.inj h).symm⟩

theorem writeAt_eq_some {s s' : Store κ ν} {k : κ} {v : Option ν} {r : ℕ}
    (h : s.writeAt k v r = some s') : s.revision k = r ∧ s' = s.write k v := by
  unfold writeAt at h
  split at h
  · exact ⟨‹_›, (Option.some.inj h).symm⟩
  · cases h

/-! ### Growth -/

/-- Every record of `s'` is the one of `s` or newer than all of `s`. -/
structure Grows (s s' : Store κ ν) : Prop where
  seq : s.seq ≤ s'.seq
  cells : ∀ k, s'.cells k = s.cells k ∨ s.seq < s'.revision k

omit [DecidableEq κ] in
theorem Grows.refl (s : Store κ ν) : Grows s s := ⟨Nat.le_refl _, fun _ => .inl rfl⟩

theorem grows_write (s : Store κ ν) (k : κ) (v : Option ν) : Grows s (s.write k v) := by
  refine ⟨Nat.le_succ _, fun k' => ?_⟩
  by_cases hk : k' = k
  · subst hk
    exact .inr (by simp)
  · exact .inl (cells_write_ne s v hk)

omit [DecidableEq κ] in
/-- The revision of a key never goes back. -/
theorem Grows.revision_le {s s' : Store κ ν} (h : Grows s s') (k : κ) :
    s.revision k ≤ s'.revision k := by
  rcases h.cells k with hk | hk
  · simp [revision, hk]
  · exact Nat.le_trans (s.revision_le_seq k) (Nat.le_of_lt hk)

/-! ### What stands under a revision -/

/-- Revision `r` of key `k` has been written, with value `v`. -/
def Recorded (s : Store κ ν) (k : κ) (v : Option ν) (r : ℕ) : Prop :=
  0 < r ∧ r ≤ s.seq ∧ ∀ c, s.cells k = some c → c.revision = r → c.value = v

omit [DecidableEq κ] in
theorem Recorded.grows {s s' : Store κ ν} {k : κ} {v : Option ν} {r : ℕ}
    (h : s.Recorded k v r) (hg : Grows s s') : s'.Recorded k v r := by
  refine ⟨h.1, Nat.le_trans h.2.1 hg.seq, fun c hc hr => ?_⟩
  rcases hg.cells k with hk | hk
  · exact h.2.2 c (hk ▸ hc) hr
  · rw [revision_of_cells hc, hr] at hk
    exact absurd hk (Nat.not_lt.mpr h.2.1)

omit [DecidableEq κ] in
theorem recorded_of_cells {s : Store κ ν} {k : κ} {v : Option ν} {r : ℕ}
    (h : s.cells k = some ⟨v, r⟩) : s.Recorded k v r := by
  refine ⟨(s.le_seq k _ h).1, (s.le_seq k _ h).2, fun c hc _ => ?_⟩
  cases h.symm.trans hc
  rfl

theorem recorded_write (s : Store κ ν) (k : κ) (v : Option ν) :
    (s.write k v).Recorded k v (s.seq + 1) :=
  recorded_of_cells (cells_write_self s k v)

omit [DecidableEq κ] in
/-- A key that is still at a revision still holds what was written there. -/
theorem Recorded.cells {s : Store κ ν} {k : κ} {v : Option ν} {r : ℕ}
    (h : s.Recorded k v r) (hr : s.revision k = r) : s.cells k = some ⟨v, r⟩ := by
  obtain ⟨v', hc⟩ := cells_of_revision h.1 hr
  have hv : v' = v := h.2.2 _ hc rfl
  rw [hc, hv]

/-! ### Records that vanish -/

/-- The latest record of a key vanishes without a trace; its number is not used again. -/
def forget (s : Store κ ν) (k : κ) : Store κ ν where
  cells := Function.update s.cells k none
  seq := s.seq
  le_seq k' c h := by
    by_cases hk : k' = k
    · subst hk
      rw [Function.update_self] at h
      cases h
    · rw [Function.update_of_ne hk] at h
      exact s.le_seq k' c h

/-- Whatever the latest record of a key is, it is the one of `s` or newer than all of `s`. -/
structure Ages (s s' : Store κ ν) : Prop where
  seq : s.seq ≤ s'.seq
  cells : ∀ k c, s'.cells k = some c → s.cells k = some c ∨ s.seq < c.revision

omit [DecidableEq κ] in
theorem Ages.refl (s : Store κ ν) : Ages s s := ⟨Nat.le_refl _, fun _ _ => .inl⟩

theorem ages_write (s : Store κ ν) (k : κ) (v : Option ν) : Ages s (s.write k v) := by
  refine ⟨Nat.le_succ _, fun k' c hc => ?_⟩
  by_cases hk : k' = k
  · subst hk
    rw [cells_write_self] at hc
    cases hc
    exact .inr (Nat.lt_succ_self _)
  · rw [cells_write_ne s v hk] at hc
    exact .inl hc

theorem ages_forget (s : Store κ ν) (k : κ) : Ages s (s.forget k) := by
  refine ⟨Nat.le_refl _, fun k' c hc => .inl ?_⟩
  simp only [forget] at hc
  by_cases hk : k' = k
  · subst hk
    rw [Function.update_self] at hc
    cases hc
  · rwa [Function.update_of_ne hk] at hc

omit [DecidableEq κ] in
theorem Recorded.ages {s s' : Store κ ν} {k : κ} {v : Option ν} {r : ℕ}
    (h : s.Recorded k v r) (ha : Ages s s') : s'.Recorded k v r := by
  refine ⟨h.1, Nat.le_trans h.2.1 ha.seq, fun c hc hr => ?_⟩
  rcases ha.cells k c hc with hk | hk
  · exact h.2.2 c hk hr
  · exact absurd (hr ▸ hk) (Nat.not_lt.mpr h.2.1)

/-- Revision `r` of key `k` has been written and is not the latest any more. -/
def Replaced (s : Store κ ν) (k : κ) (r : ℕ) : Prop := r ≤ s.seq ∧ s.revision k ≠ r

omit [DecidableEq κ] in
/-- A revision that is not the latest any more never is again. -/
theorem Replaced.ages {s s' : Store κ ν} {k : κ} {r : ℕ} (hr : 0 < r) (h : s.Replaced k r)
    (ha : Ages s s') : s'.Replaced k r := by
  refine ⟨Nat.le_trans h.1 ha.seq, fun heq => ?_⟩
  obtain ⟨v, hc⟩ := cells_of_revision hr heq
  rcases ha.cells k _ hc with hk | hk
  · exact h.2 (revision_of_cells hk)
  · exact absurd hk (Nat.not_lt.mpr h.1)

theorem replaced_write {s : Store κ ν} {k : κ} {r : ℕ} (v : Option ν) (h : s.revision k = r) :
    (s.write k v).Replaced k r := by
  have hle := s.revision_le_seq k
  refine ⟨Nat.le_succ_of_le (h ▸ hle), ?_⟩
  rw [revision_write_self]
  omega

end Store

end VersionedStore
