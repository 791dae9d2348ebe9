import TransportNats.Library.World

/-!
Monitors: what has to be remembered of a history.

A guard that speaks about a whole history is hard to carry through a long
program, and an invariant that ties the histories of many threads together is
worse. A `Monitor` keeps of a history only a value, its mark, which every
answered operation updates, and allows an operation on the strength of the mark
alone. One proof per program shows that the monitor accepts it; after that the
programs are gone, and a run of the system is a run of the shared state beside
the list of the marks of its threads. The rule `Watch.run_invariant` proves
invariants of such runs, and the lemmas after it say what one thread's step does
to the list.
-/

namespace Interleaving

/-- A value kept along a history, and the operations it allows. -/
structure Monitor (S : Signature) (μ : Type) where
  after : μ → Answered S → μ
  allows : μ → S.Op → Prop

namespace Monitor

variable {S : Signature} {μ α β : Type} (O : Monitor S μ)

/-- The mark after a history that began with the mark `m`. -/
def value (m : μ) : History S → μ
  | [] => m
  | x :: h => O.after (value m h) x

/-- Started with the mark `m`, the program performs only what is allowed, and
ends with marks and values that `Q` allows. -/
def Accepts (Q : μ → α → Prop) : μ → Program S α → Prop
  | m, .ret a => Q m a
  | m, .call o k => O.allows m o ∧ ∀ r, Accepts Q (O.after m ⟨o, r⟩) (k r)

/-- What holds of a mark and did not hold at the start came about with one of
the answers. -/
theorem exists_change {P : μ → Prop} {m : μ} (hm : ¬ P m) {h : History S} (hv : P (O.value m h)) :
    ∃ x h', x :: h' <:+ h ∧ ¬ P (O.value m h') ∧ P (O.after (O.value m h') x) := by
  induction h with
  | nil => exact absurd hv hm
  | cons x h ih =>
      by_cases hP : P (O.value m h)
      · obtain ⟨y, h', hsuf, hy⟩ := ih hP
        exact ⟨y, h', hsuf.trans (List.suffix_cons x h), hy⟩
      · exact ⟨x, h, List.suffix_refl _, hP, hv⟩

variable {O} {m : μ} {Q : μ → β → Prop}

@[simp] theorem accepts_pure (a : β) : O.Accepts Q m (pure a) ↔ Q m a := Iff.rfl

@[simp] theorem accepts_perform_bind (o : S.Op) (f : S.Ret o → Program S β) :
    O.Accepts Q m (Program.perform o >>= f) ↔
      O.allows m o ∧ ∀ r, O.Accepts Q (O.after m ⟨o, r⟩) (f r) := Iff.rfl

theorem accepts_bind (p : Program S α) (f : α → Program S β) :
    O.Accepts Q m (p >>= f) ↔ O.Accepts (fun m a => O.Accepts Q m (f a)) m p := by
  induction p generalizing m with
  | ret a => exact Iff.rfl
  | call o k ih =>
      change (O.allows m o ∧ ∀ r, O.Accepts Q (O.after m ⟨o, r⟩) (k r >>= f)) ↔ _
      simp only [ih]
      exact Iff.rfl

theorem Accepts.mono {Q' : μ → β → Prop} {p : Program S β} (hp : O.Accepts Q m p)
    (hQ : ∀ m a, Q m a → Q' m a) : O.Accepts Q' m p := by
  induction p generalizing m with
  | ret a => exact hQ m a hp
  | call o k ih => exact ⟨hp.1, fun r => ih r (hp.2 r)⟩

theorem Accepts.of_eq {m' : μ} {p : Program S β} (hp : O.Accepts Q m p) (hm : m = m') :
    O.Accepts Q m' p := hm ▸ hp

/-- Sequencing through a stated postcondition of the first program. -/
theorem Accepts.bind {p : Program S α} {f : α → Program S β} {R : μ → α → Prop}
    (hp : O.Accepts R m p) (hf : ∀ m a, R m a → O.Accepts Q m (f a)) :
    O.Accepts Q m (p >>= f) :=
  (accepts_bind p f).mpr (hp.mono hf)

/-- An accepted program is guarded by what the monitor allows. -/
theorem Accepts.guarded {m₀ : μ} {h : History S} {p : Program S β}
    (hp : O.Accepts Q (O.value m₀ h) p) :
    p.Guarded (fun h o => O.allows (O.value m₀ h) o) (fun h a => Q (O.value m₀ h) a) h := by
  induction p generalizing h with
  | ret a => exact hp
  | call o k ih => exact ⟨hp.1, fun r => ih r (hp.2 r)⟩

end Monitor

/-! ### Monitored systems -/

/-- A monitor that accepts the program of every call of a system, started with a
mark of the call's own. -/
structure Watch (M : System) (μ : Type) extends Monitor M.sig μ where
  start : M.Call → μ
  final : M.Call → μ → M.Result → Prop
  program : ∀ c, toMonitor.Accepts (final c) (start c) (M.program c)

namespace Watch

variable {M : System} {μ : Type} (K : Watch M μ)

/-- The guards and postconditions that the monitor gives. Answers state nothing
by themselves: what they say of the shared state is the invariants' business. -/
def contract : Contract M where
  guard c h o := K.allows (K.value (K.start c) h) o
  post c h r := K.final c (K.value (K.start c) h) r
  sound _ _ := True
  program c := Monitor.Accepts.guarded (h := []) (K.program c)
  answer _ _ _ := trivial
  stable _ _ _ := trivial

def mark (th : Thread M) : μ := K.value (K.start th.call) th.hist

def marks (w : World M) : List μ := w.threads.map K.mark

theorem getElem?_marks {w : World M} {t : ℕ} {th : Thread M} (ht : w.threads[t]? = some th) :
    (K.marks w)[t]? = some (K.mark th) := by
  rw [marks, List.getElem?_map, ht]
  rfl

theorem exists_of_getElem?_marks {w : World M} {t : ℕ} {m : μ} (ht : (K.marks w)[t]? = some m) :
    ∃ th, w.threads[t]? = some th ∧ K.mark th = m := by
  rw [marks, List.getElem?_map] at ht
  exact Option.map_eq_some_iff.mp ht

theorem marks_enter (w : World M) (c : M.Call) (s : M.State) :
    K.marks ⟨s, w.threads ++ [.start c]⟩ = K.marks w ++ [K.start c] := by
  rw [marks, List.map_append]
  rfl

theorem marks_perform (w : World M) (t : ℕ) (ch : M.Choice) (c : M.Call) (h : History M.sig)
    (o : M.sig.Op) (k : M.sig.Ret o → Program M.sig M.Result) :
    K.marks (w.perform t ch c h o k) = (K.marks w).set t
      (K.after (K.value (K.start c) h) ⟨o, (M.exec ch w.state o).2⟩) := by
  simp only [marks, World.perform, List.map_set]
  rfl

/-- Conditions on the actions of a run that speak about the call that enters, or
about the operation performed, and the state and the marks it meets. -/
def Regular (admits : M.Call → Prop) (ready : M.Choice → M.State → List μ → M.sig.Op → Prop)
    (w : World M) : Act M → Prop
  | .spawn c => admits c
  | .step t ch => ∀ c o, w.performs? (.step t ch) = some (c, o) → ready ch w.state (K.marks w) o
  | .env _ => True

variable {K} {admits : M.Call → Prop} {ready : M.Choice → M.State → List μ → M.sig.Op → Prop}
  {I : M.State → List μ → Prop}

/-- What one action keeps, for an invariant of the shared state and the marks. -/
theorem moves_invariant
    (henter : ∀ {c s s' ms}, admits c → M.enter c s = some s' → I s ms →
      I s' (ms ++ [K.start c]))
    (hstep : ∀ {ch s ms t m o}, ms[t]? = some m → K.allows m o → ready ch s ms o → I s ms →
      I (M.exec ch s o).1 (ms.set t (K.after m ⟨o, (M.exec ch s o).2⟩)))
    (henv : ∀ {e s ms}, I s ms → I (M.env e s) ms)
    {w w' : World M} {a : Act M} (hm : World.Moves w a w') (ha : K.Regular admits ready w a)
    (hok : K.contract.Ok w) (hw : I w.state (K.marks w)) : I w'.state (K.marks w') := by
  cases hm with
  | idle => exact hw
  | enter h =>
      rw [marks_enter]
      exact henter ha h hw
  | @perform t ch c h o k ht =>
      rw [marks_perform]
      exact hstep (K.getElem?_marks ht) (hok.guard ht) (ha c o (World.performs?_step ch ht)) hw
  | env e => exact henv hw

/-- An invariant of the shared state and the marks holds after every run whose
actions are regular. -/
theorem run_invariant
    (henter : ∀ {c s s' ms}, admits c → M.enter c s = some s' → I s ms →
      I s' (ms ++ [K.start c]))
    (hstep : ∀ {ch s ms t m o}, ms[t]? = some m → K.allows m o → ready ch s ms o → I s ms →
      I (M.exec ch s o).1 (ms.set t (K.after m ⟨o, (M.exec ch s o).2⟩)))
    (henv : ∀ {e s ms}, I s ms → I (M.env e s) ms)
    {w : World M} (hok : K.contract.Ok w) (hw : I w.state (K.marks w)) {acts : List (Act M)}
    (ha : World.Always (K.Regular admits ready) w acts) :
    K.contract.Ok (w.run acts) ∧ I (w.run acts).state (K.marks (w.run acts)) :=
  World.run_invariant_of_always (P := fun w => K.contract.Ok w ∧ I w.state (K.marks w))
    (fun hm ha hw => ⟨K.contract.ok_moves hm hw.1,
      moves_invariant henter hstep henv hm ha hw.1 hw.2⟩) ⟨hok, hw⟩ ha

end Watch

/-! ### Lists of marks -/

section
variable {μ : Type} {ms : List μ} {t : ℕ} {m m' : μ}

theorem lt_length_of_getElem? (ht : ms[t]? = some m) : t < ms.length :=
  (List.getElem?_eq_some_iff.mp ht).1

theorem getElem?_set_self_of (ht : ms[t]? = some m) (m' : μ) : (ms.set t m')[t]? = some m' :=
  List.getElem?_set_self (lt_length_of_getElem? ht)

/-- What holds of the thread that moved and of all others holds of all. -/
theorem forall_set {P : ℕ → μ → Prop} (hself : P t m')
    (hother : ∀ (i : ℕ) (x : μ), i ≠ t → ms[i]? = some x → P i x) :
    ∀ (i : ℕ) (x : μ), (ms.set t m')[i]? = some x → P i x := by
  intro i x hx
  by_cases hi : i = t
  · subst hi
    rw [List.getElem?_set_self'] at hx
    obtain ⟨_, _, rfl⟩ := Option.map_eq_some_iff.mp hx
    exact hself
  · rw [List.getElem?_set_ne (Ne.symm hi)] at hx
    exact hother i x hi hx

theorem forall_enter {P : ℕ → μ → Prop} (hnew : P ms.length m')
    (hold : ∀ (i : ℕ) (x : μ), ms[i]? = some x → P i x) :
    ∀ (i : ℕ) (x : μ), (ms ++ [m'])[i]? = some x → P i x := by
  intro i x hx
  rw [List.getElem?_append] at hx
  split at hx
  · exact hold i x hx
  · rename_i hlt
    rw [List.getElem?_singleton] at hx
    split at hx
    · obtain rfl := Option.some.inj hx
      obtain rfl : i = ms.length := by omega
      exact hnew
    · cases hx

/-- A thread with a property is still there after a step, if the one that moved
has kept it. -/
theorem exists_set {P : μ → Prop} (ht : ms[t]? = some m) (m' : μ) (hkeep : P m → P m')
    (h : ∃ (i : ℕ) (x : μ), ms[i]? = some x ∧ P x) :
    ∃ (i : ℕ) (x : μ), (ms.set t m')[i]? = some x ∧ P x := by
  obtain ⟨i, x, hx, hP⟩ := h
  by_cases hi : i = t
  · subst hi
    obtain rfl := Option.some.inj (hx.symm.trans ht)
    exact ⟨i, m', getElem?_set_self_of ht m', hkeep hP⟩
  · exact ⟨i, x, by rwa [List.getElem?_set_ne (Ne.symm hi)], hP⟩

theorem exists_enter {P : μ → Prop} (h : ∃ (i : ℕ) (x : μ), ms[i]? = some x ∧ P x) :
    ∃ (i : ℕ) (x : μ), (ms ++ [m'])[i]? = some x ∧ P x := by
  obtain ⟨i, x, hx, hP⟩ := h
  exact ⟨i, x, by rwa [List.getElem?_append_left (lt_length_of_getElem? hx)], hP⟩

/-! ### Parts of marks, and counts -/

theorem getElem?_map_of {ν : Type} (f : μ → ν) (ht : ms[t]? = some m) :
    (ms.map f)[t]? = some (f m) := by
  rw [List.getElem?_map, ht]
  rfl

theorem exists_of_getElem?_map {ν : Type} {f : μ → ν} {n : ν} (ht : (ms.map f)[t]? = some n) :
    ∃ m, ms[t]? = some m ∧ f m = n := by
  rw [List.getElem?_map] at ht
  exact Option.map_eq_some_iff.mp ht

/-- A step that leaves a part of the thread's mark as it is leaves the list of
these parts as it is. -/
theorem map_set_of_eq {ν : Type} {f : μ → ν} (ht : ms[t]? = some m) (m' : μ)
    (hm : f m' = f m) : (ms.set t m').map f = ms.map f := by
  obtain ⟨hlt, hget⟩ := List.getElem?_eq_some_iff.mp (getElem?_map_of f ht)
  rw [List.map_set, hm, ← hget, List.set_getElem_self]

/-- How a count changes when one thread moves. -/
theorem countP_set_add (p : μ → Bool) (ht : ms[t]? = some m) (m' : μ) :
    (ms.set t m').countP p + (p m).toNat = ms.countP p + (p m').toNat := by
  obtain ⟨hlt, rfl⟩ := List.getElem?_eq_some_iff.mp ht
  have hcount := List.countP_set (p := p) (a := m') hlt
  cases hp : p ms[t] with
  | false => cases hp' : p m' <;> simp_all
  | true =>
      have hpos : 0 < ms.countP p := List.countP_pos_iff.mpr ⟨_, List.getElem_mem hlt, hp⟩
      cases hp' : p m' <;> simp_all

theorem eq_false_of_countP_eq_zero {p : μ → Bool} (hzero : ms.countP p = 0)
    (ht : ms[t]? = some m) : p m = false := by
  simpa using List.countP_eq_zero.mp hzero m (List.mem_of_getElem? ht)

/-! ### Exclusive holders -/

/-- Only one thread at a time holds what `held` says is held. -/
structure Exclusive (held : Bool) (holds : μ → Bool) (ms : List μ) : Prop where
  held : ∀ (i : ℕ) (m : μ), ms[i]? = some m → holds m = true → held = true
  unique : ∀ (i j : ℕ) (m n : μ), ms[i]? = some m → ms[j]? = some n →
    holds m = true → holds n = true → i = j

namespace Exclusive

variable {held : Bool} {holds : μ → Bool}

theorem nil : Exclusive held holds [] := ⟨by simp, by simp⟩

/-- No thread but the holder holds it. -/
theorem eq_false (hx : Exclusive held holds ms) (ht : ms[t]? = some m) (hm : holds m = true)
    {i : ℕ} {n : μ} (hi : i ≠ t) (hn : ms[i]? = some n) : holds n = false := by
  by_contra hne
  exact hi (hx.unique i t n m hn ht (by simpa using hne) hm)

theorem keep (hx : Exclusive held holds ms) (ht : ms[t]? = some m)
    (hm : holds m' = true → holds m = true) : Exclusive held holds (ms.set t m') where
  held := forall_set (fun h => hx.held t m ht (hm h)) fun i x _ hi => hx.held i x hi
  unique := by
    intro i j a b ha hb hha hhb
    have key : ∀ (i : ℕ) (a : μ), (ms.set t m')[i]? = some a → holds a = true →
        ∃ x, ms[i]? = some x ∧ holds x = true :=
      forall_set (P := fun i a => holds a = true → ∃ x, ms[i]? = some x ∧ holds x = true)
        (fun h => ⟨m, ht, hm h⟩) fun i x _ hi h => ⟨x, hi, h⟩
    obtain ⟨x, hx', hhx⟩ := key i a ha hha
    obtain ⟨y, hy, hhy⟩ := key j b hb hhb
    exact hx.unique i j x y hx' hy hhx hhy

theorem acquire (hx : Exclusive false holds ms) (m' : μ) :
    Exclusive true holds (ms.set t m') where
  held _ _ _ _ := rfl
  unique := by
    have key : ∀ (i : ℕ) (a : μ), (ms.set t m')[i]? = some a → holds a = true → i = t :=
      forall_set (P := fun i a => holds a = true → i = t) (fun _ => rfl)
        fun i x _ hi h => absurd (hx.held i x hi h) (by simp)
    intro i j a b ha hb hha hhb
    rw [key i a ha hha, key j b hb hhb]

theorem release (hx : Exclusive held holds ms) (ht : ms[t]? = some m) (hm : holds m = true)
    (hm' : holds m' = false) : Exclusive false holds (ms.set t m') := by
  have free : ∀ (i : ℕ) (a : μ), (ms.set t m')[i]? = some a → holds a = true → False :=
    forall_set (P := fun _ a => holds a = true → False) (by rw [hm']; exact nofun)
      fun i x hi h hh => by
        rw [hx.eq_false ht hm hi h] at hh
        cases hh
  exact ⟨fun i a ha h => (free i a ha h).elim, fun i _ a _ ha _ h _ => (free i a ha h).elim⟩

theorem enter (hx : Exclusive held holds ms) (hm' : holds m' = false) :
    Exclusive held holds (ms ++ [m']) where
  held := forall_enter (by rw [hm']; exact nofun) hx.held
  unique := by
    have key : ∀ (i : ℕ) (a : μ), (ms ++ [m'])[i]? = some a → holds a = true → ms[i]? = some a :=
      forall_enter (P := fun i a => holds a = true → ms[i]? = some a)
        (by rw [hm']; exact nofun) fun _ _ hi _ => hi
    intro i j a b ha hb hha hhb
    exact hx.unique i j a b (key i a ha hha) (key j b hb hhb) hha hhb

end Exclusive

end

end Interleaving
