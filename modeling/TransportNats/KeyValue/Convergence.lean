import TransportNats.KeyValue.Watch
import Mathlib.Data.List.ReduceOption

/-!
Watchers converge.

A watcher delivers the latest value of every key it selects, then a nil marker,
and from then on every value that is written; deletions are left out. When the
program has taken everything out of a watcher that is alive, the last update it
has executed for a key that is present is the one with the current value,
however often the watcher was lost before. The argument is about the updates of
one watcher, those taken and those pending together: their last one for a key is
its current value, from the opening on.

The channel of a watcher stands for everything that is still to come, what is on
its way from the server included: a write reaches it at once. What does not get
through is what a loss of the watcher cuts off. A receive that would wait is
answered with a nil marker, on which the loop goes round once more. A record that
expires is taken for a deletion.
-/

namespace TransportNats.KeyValue

open Interleaving Program

/-! ### The bucket and its watchers -/

/-- A record of the bucket; a deletion has no value. -/
structure Record where
  key : Bytes
  value : Option Bytes

/-- The current value of a key. The log has the latest record first. -/
def latest (key : Bytes) : List Record → Option Update
  | [] => none
  | r :: log =>
      if r.key = key then r.value.map fun v => ⟨key, v, log.length + 1⟩ else latest key log

/-- The update that a record is, if it is not a deletion. -/
def update? (log : List Record) (r : Record) : Option Update :=
  r.value.map fun v => ⟨r.key, v, log.length + 1⟩

/-- What a watcher gets to begin with: the current values of all the keys that it selects,
the latest first. -/
def snapshot (selects : Bytes → Bool) : List Record → List Update
  | [] => []
  | r :: log =>
      (if selects r.key then (update? log r).toList else []) ++
        (snapshot selects log).filter fun u => u.key ≠ r.key

structure Watcher where
  /-- The key or pattern it was opened with. -/
  filter : Bytes
  /-- What was received from it, the latest first. -/
  taken : List Update
  /-- What is still to come out of its channel, in flight or there already. -/
  pending : List (Option Update)
  live : Bool

structure WatchState where
  log : List Record
  watchers : List Watcher := []
  /-- The error of every context that is done. -/
  done : ℕ → Option Err := fun _ => none

/-- `cancelled` is the choice of a wait that is over when its context is done. -/
structure WatchChoice where
  fault : Option Err := none
  cancelled : Bool := false

section
variable (covers : Bytes → Bytes → Bool)

/-- The keys that a watcher is for; `covers` is the matching of keys by patterns. -/
def selects (filter key : Bytes) : Bool := filter = [] || covers filter key

namespace Watcher

/-- A watcher that has just been opened. -/
def opened (filter : Bytes) (log : List Record) : Watcher :=
  ⟨filter, [], (snapshot (selects covers filter) log).reverse.map some ++ [none], true⟩

/-- The record that was written on top of `log` reaches the channel. -/
def deliver (log : List Record) (r : Record) (W : Watcher) : Watcher :=
  if W.live ∧ selects covers W.filter r.key then
    { W with pending := W.pending ++ (update? log r).toList.map some }
  else W

def receive (W : Watcher) : Watcher × Option (Option Update) :=
  match W.pending with
  | p :: rest => ({ W with taken := p.toList ++ W.taken, pending := rest }, some p)
  | [] => (W, if W.live then some none else none)

/-- The channel is closed, and of what was to come only the first `keep` have got into it. -/
def close (keep : ℕ) (W : Watcher) : Watcher :=
  { W with pending := W.pending.take keep, live := false }

end Watcher

def watchExec (ch : WatchChoice) (s : WatchState) : (o : WatchOp) → WatchState × o.Ret
  | .ctxErr ctx => (s, s.done ctx)
  | .keyValue _ => (s, ch.fault)
  | .openWatcher key =>
      match ch.fault with
      | some err => (s, .error err)
      | none =>
          ({ s with watchers := s.watchers ++ [.opened covers key s.log] }, .ok s.watchers.length)
  | .next i =>
      match s.watchers[i]? with
      | none => (s, none)
      | some W => ({ s with watchers := s.watchers.set i W.receive.1 }, W.receive.2)
  | .execute _ => (s, ch.fault)
  | .stop i => ({ s with watchers := s.watchers.modify i (Watcher.close 0) }, ch.fault)
  | .wait ctx _ => (s, (s.done ctx).isSome && ch.cancelled)

/-- Other clients write, watchers get lost, and contexts are cancelled, once and for all. -/
inductive WatchEnv
  | write (r : Record)
  | close (watcher keep : ℕ)
  | cancel (ctx : ℕ) (err : Err)

def WatchEnv.apply (s : WatchState) : WatchEnv → WatchState
  | .write r =>
      { s with log := r :: s.log, watchers := s.watchers.map (Watcher.deliver covers s.log r) }
  | .close i keep => { s with watchers := s.watchers.modify i (Watcher.close keep) }
  | .cancel ctx err =>
      { s with done := fun c => if c = ctx then s.done c <|> some err else s.done c }

structure WatchCall where
  ctx : ℕ
  binding : KVBinding
  turns : ℕ
  rounds : ℕ

/-- Any number of bindings to one bucket, under any contexts. -/
@[reducible] def watching : System where
  sig := watchSig
  State := WatchState
  Call := WatchCall
  Result := Option Err
  Choice := WatchChoice
  Env := WatchEnv
  program c := mountKV c.ctx c.binding c.turns c.rounds
  exec := watchExec covers
  enter _ s := some s
  env e s := e.apply covers s

end

section
variable {covers : Bytes → Bytes → Bool}

/-- A context that is done stays done. -/
theorem done_moves {w w' : World (watching covers)} {a : Act (watching covers)}
    (hm : w.Moves a w') {ctx : ℕ} (hd : (w.state.done ctx).isSome) :
    (w'.state.done ctx).isSome := by
  cases hm with
  | idle => exact hd
  | enter h =>
      cases h
      exact hd
  | @perform t ch c h o k ht =>
      have hsame : (watchExec covers ch w.state o).1.done = w.state.done := by
        cases o with
        | ctxErr | keyValue | execute | stop | wait => rfl
        | openWatcher key =>
            simp only [watchExec]
            split <;> rfl
        | next i =>
            simp only [watchExec]
            split <;> rfl
      change ((watchExec covers ch w.state o).1.done ctx).isSome
      rw [hsame]
      exact hd
  | env e =>
      cases e with
      | write | close => exact hd
      | cancel ctx' err =>
          change (if ctx = ctx' then w.state.done ctx <|> some err
            else w.state.done ctx).isSome
          split
          · obtain ⟨err', herr⟩ := Option.isSome_iff_exists.mp hd
            rw [herr]
            rfl
          · exact hd

/-- Who was told that a context is done was told so for good. -/
def watch (covers : Bytes → Bytes → Bool) : Contract (watching covers) where
  guard c := watchGuard c.ctx c.binding
  post _ _ _ := True
  sound s x := ∀ ctx err, x = ⟨.ctxErr ctx, some err⟩ → (s.done ctx).isSome
  program c := guarded_mountKV c.ctx c.binding c.turns c.rounds
  answer ch s o ctx err h := by
    obtain ⟨rfl, hr⟩ := Answered.mk.inj h
    change (s.done ctx).isSome
    rw [show s.done ctx = some err from eq_of_heq hr]
    rfl
  stable hm x hx ctx err h := done_moves hm (hx ctx err h)

/-- So its history is steady. -/
theorem steady_moves {w w' : World (watching covers)} {a : Act (watching covers)}
    (hm : w.Moves a w') (hok : (watch covers).Ok w)
    (hw : ∀ (t : ℕ) (th : Thread (watching covers)), w.threads[t]? = some th →
      Steady th.call.ctx th.hist) :
    ∀ (t : ℕ) (th : Thread (watching covers)), w'.threads[t]? = some th →
      Steady th.call.ctx th.hist := by
  refine hm.forall_threads (P := fun _ (th : Thread (watching covers)) =>
    Steady th.call.ctx th.hist) hw (fun _ h => h) ?_ ?_
  · intro c newer older err h
    simp [Thread.start] at h
  intro t ch c h o k _ ht _
  have hold : Steady c.ctx h := hw _ _ ht
  refine hold.cons fun hx err hmem => ?_
  obtain ⟨rfl, hr⟩ := Answered.mk.inj hx
  have hnone : w.state.done c.ctx = none := eq_of_heq hr
  have hsome := (hok _ _ ht).sound _ hmem _ _ rfl
  rw [hnone] at hsome
  cases hsome

end

/-! ### The last update of a key -/

def lastOf (key : Bytes) (us : List Update) : Option Update := us.find? fun u => u.key = key

theorem lastOf_cons_self {key : Bytes} {u : Update} (hu : u.key = key) (us : List Update) :
    lastOf key (u :: us) = some u := by
  simp [lastOf, hu]

theorem lastOf_cons_ne {key : Bytes} {u : Update} (hu : u.key ≠ key) (us : List Update) :
    lastOf key (u :: us) = lastOf key us := by
  simp [lastOf, hu]

theorem lastOf_append_of_eq_some {key : Bytes} {us vs : List Update} {u : Update}
    (h : lastOf key us = some u) : lastOf key (us ++ vs) = some u := by
  simp only [lastOf] at h ⊢
  rw [List.find?_append, h]
  rfl

theorem key_of_update? {log : List Record} {r : Record} {u : Update}
    (h : update? log r = some u) : u.key = r.key := by
  obtain ⟨v, -, rfl⟩ := Option.map_eq_some_iff.mp h
  rfl

theorem latest_cons_self (r : Record) (log : List Record) :
    latest r.key (r :: log) = update? log r := by
  simp [latest, update?]

theorem latest_cons_ne {r : Record} {key : Bytes} (hr : r.key ≠ key) (log : List Record) :
    latest key (r :: log) = latest key log := by
  simp [latest, hr]

/-- A watcher begins with the current values. -/
theorem lastOf_snapshot {sel : Bytes → Bool} {key : Bytes} (hkey : sel key = true)
    {log : List Record} {u : Update} (hu : latest key log = some u) :
    lastOf key (snapshot sel log) = some u := by
  induction log with
  | nil => cases hu
  | cons r log ih =>
      by_cases hr : r.key = key
      · subst hr
        rw [latest_cons_self] at hu
        rw [snapshot, if_pos hkey, hu]
        exact lastOf_cons_self (key_of_update? hu) _
      · rw [latest_cons_ne hr] at hu
        have hrest : lastOf key ((snapshot sel log).filter fun u => u.key ≠ r.key) = some u := by
          have hlast := ih hu
          simp only [lastOf, List.find?_filter] at hlast ⊢
          rw [← hlast]
          congr 1
          funext v
          by_cases hv : v.key = key
          · simp [hv, Ne.symm hr]
          · simp [hv]
        rw [snapshot]
        split
        · cases hup : update? log r with
          | none => exact hrest
          | some v =>
              have hv : v.key ≠ key := by rw [key_of_update? hup]; exact hr
              exact (lastOf_cons_ne hv _).trans hrest
        · exact hrest

/-- All updates of a watcher, the latest first. -/
def Watcher.updates (W : Watcher) : List Update := W.pending.reverse.reduceOption ++ W.taken

/-- The last update of a watcher that is alive is, for every key, the current value. -/
def UpToDate (covers : Bytes → Bytes → Bool) (s : WatchState) : Prop :=
  ∀ W ∈ s.watchers, W.live = true → ∀ key u, selects covers W.filter key = true →
    latest key s.log = some u → lastOf key W.updates = some u

section
variable {covers : Bytes → Bytes → Bool}

theorem updates_opened (filter : Bytes) (log : List Record) :
    (Watcher.opened covers filter log).updates = snapshot (selects covers filter) log := by
  simp [Watcher.updates, Watcher.opened, List.reduceOption]

theorem updates_receive (W : Watcher) : W.receive.1.updates = W.updates := by
  unfold Watcher.receive
  split
  · rename_i p rest hp
    cases p <;> simp [Watcher.updates, hp, List.reduceOption]
  · rfl

@[simp] theorem filter_receive (W : Watcher) : W.receive.1.filter = W.filter := by
  unfold Watcher.receive
  split <;> rfl

@[simp] theorem live_receive (W : Watcher) : W.receive.1.live = W.live := by
  unfold Watcher.receive
  split <;> rfl

/-- A written record is the last update of its key, for every watcher that selects it. -/
theorem lastOf_deliver {W : Watcher} {log : List Record} {r : Record}
    (hW : ∀ key u, selects covers W.filter key = true → latest key log = some u →
      lastOf key W.updates = some u)
    (hlive : W.live = true) {key : Bytes} {u : Update}
    (hkey : selects covers W.filter key = true) (hu : latest key (r :: log) = some u) :
    lastOf key (W.deliver covers log r).updates = some u := by
  have hupdates : selects covers W.filter r.key = true →
      (W.deliver covers log r).updates = (update? log r).toList ++ W.updates := by
    intro hsel
    unfold Watcher.deliver
    rw [if_pos ⟨hlive, hsel⟩]
    cases update? log r <;> simp [Watcher.updates, List.reduceOption]
  by_cases hr : r.key = key
  · subst hr
    rw [latest_cons_self] at hu
    rw [hupdates hkey, hu]
    exact lastOf_cons_self (key_of_update? hu) _
  · rw [latest_cons_ne hr] at hu
    by_cases hsel : selects covers W.filter r.key = true
    · rw [hupdates hsel]
      cases hup : update? log r with
      | none => exact hW key u hkey hu
      | some v =>
          have hv : v.key ≠ key := by rw [key_of_update? hup]; exact hr
          exact (lastOf_cons_ne hv _).trans (hW key u hkey hu)
    · unfold Watcher.deliver
      rw [if_neg fun h => hsel h.2]
      exact hW key u hkey hu

@[simp] theorem live_deliver (W : Watcher) (log : List Record) (r : Record) :
    (W.deliver covers log r).live = W.live := by
  unfold Watcher.deliver
  split <;> rfl

@[simp] theorem filter_deliver (W : Watcher) (log : List Record) (r : Record) :
    (W.deliver covers log r).filter = W.filter := by
  unfold Watcher.deliver
  split <;> rfl

@[simp] theorem taken_deliver (W : Watcher) (log : List Record) (r : Record) :
    (W.deliver covers log r).taken = W.taken := by
  unfold Watcher.deliver
  split <;> rfl

/-- A watcher that is alive after some of them were closed was there before. -/
theorem mem_of_close {s : WatchState} {i keep : ℕ} {W : Watcher}
    (hW : W ∈ s.watchers.modify i (Watcher.close keep)) (hlive : W.live = true) :
    W ∈ s.watchers := by
  obtain ⟨j, hj⟩ := List.mem_iff_getElem?.mp hW
  rw [List.getElem?_modify] at hj
  split at hj
  · obtain ⟨W', -, rfl⟩ := Option.map_eq_some_iff.mp hj
    cases hlive
  · simp only [id_map'] at hj
    exact List.mem_of_getElem? hj

theorem upToDate_exec {ch : WatchChoice} {s : WatchState} (hs : UpToDate covers s) (o : WatchOp) :
    UpToDate covers (watchExec covers ch s o).1 := by
  cases o with
  | ctxErr | keyValue | execute | wait => exact hs
  | openWatcher key =>
      simp only [watchExec]
      split
      · exact hs
      · intro W hW hlive k u hk hu
        rcases List.mem_append.mp hW with hW | hW
        · exact hs W hW hlive k u hk hu
        · obtain rfl := List.mem_singleton.mp hW
          rw [updates_opened]
          exact lastOf_snapshot hk hu
  | next i =>
      simp only [watchExec]
      split
      · exact hs
      · rename_i W₀ hW₀
        intro W hW hlive k u hk hu
        rcases List.mem_or_eq_of_mem_set hW with hW | rfl
        · exact hs W hW hlive k u hk hu
        · rw [updates_receive]
          rw [live_receive] at hlive
          rw [filter_receive] at hk
          exact hs W₀ (List.mem_of_getElem? hW₀) hlive k u hk hu
  | stop i => exact fun W hW hlive => hs W (mem_of_close hW hlive) hlive

theorem upToDate_env {e : WatchEnv} {s : WatchState} (hs : UpToDate covers s) :
    UpToDate covers (e.apply covers s) := by
  cases e with
  | write r =>
      intro W hW hlive key u hkey hu
      obtain ⟨W₀, hW₀, rfl⟩ := List.mem_map.mp hW
      rw [live_deliver] at hlive
      rw [filter_deliver] at hkey
      exact lastOf_deliver (fun key u => hs W₀ hW₀ hlive key u) hlive hkey hu
  | close i keep => exact fun W hW hlive => hs W (mem_of_close hW hlive) hlive
  | cancel ctx err => exact hs

theorem upToDate_moves {w w' : World (watching covers)} {a : Act (watching covers)}
    (hm : w.Moves a w') (hw : UpToDate covers w.state) : UpToDate covers w'.state := by
  cases hm with
  | idle => exact hw
  | enter h =>
      cases h
      exact hw
  | perform ht => exact upToDate_exec hw _
  | env e => exact upToDate_env hw

/-! ### Whose watcher it is -/

/-- What a thread has received while a watcher was the one it had opened last was taken from
that watcher, and nobody opens a watcher that was opened before. -/
structure Owned (w : World (watching covers)) : Prop where
  ok : (watch covers).Ok w
  steady : ∀ (t : ℕ) (th : Thread (watching covers)), w.threads[t]? = some th →
    Steady th.call.ctx th.hist
  nodup : ∀ {t : ℕ} {th}, w.threads[t]? = some th → (opened th.hist).Nodup
  taken : ∀ {t : ℕ} {th i}, w.threads[t]? = some th → i ∈ opened th.hist →
    ∃ W, w.state.watchers[i]? = some W ∧ W.taken = received (during i th.hist) ∧
      W.filter = th.call.binding.key
  apart : ∀ {t u : ℕ} {th th' i}, w.threads[t]? = some th → w.threads[u]? = some th' →
    i ∈ opened th.hist → i ∈ opened th'.hist → t = u

/-- Nothing is taken from a watcher. -/
def Untouched (i : ℕ) (s s' : WatchState) : Prop :=
  ∀ W, s.watchers[i]? = some W →
    ∃ W', s'.watchers[i]? = some W' ∧ W'.taken = W.taken ∧ W'.filter = W.filter

theorem Untouched.taken {i : ℕ} {s s' : WatchState} {us : List Update} {key : Bytes}
    (hu : Untouched i s s')
    (h : ∃ W, s.watchers[i]? = some W ∧ W.taken = us ∧ W.filter = key) :
    ∃ W, s'.watchers[i]? = some W ∧ W.taken = us ∧ W.filter = key := by
  obtain ⟨W, hW, htaken, hfilter⟩ := h
  obtain ⟨W', hW', htaken', hfilter'⟩ := hu W hW
  exact ⟨W', hW', htaken'.trans htaken, hfilter'.trans hfilter⟩

theorem Untouched.refl (i : ℕ) (s : WatchState) : Untouched i s s := fun W h => ⟨W, h, rfl, rfl⟩

theorem untouched_close (i j keep : ℕ) (s : WatchState) :
    Untouched i s { s with watchers := s.watchers.modify j (Watcher.close keep) } := by
  intro W hW
  refine ⟨if j = i then W.close keep else W, ?_, ?_, ?_⟩
  · rw [List.getElem?_modify, hW]
    split <;> rfl
  · split <;> rfl
  · split <;> rfl

theorem untouched_env (i : ℕ) (e : WatchEnv) (s : WatchState) :
    Untouched i s (e.apply covers s) := by
  cases e with
  | write r =>
      intro W hW
      exact ⟨W.deliver covers s.log r, by simp [WatchEnv.apply, hW], taken_deliver ..,
        filter_deliver ..⟩
  | close j keep => exact untouched_close i j keep s
  | cancel ctx err => exact .refl i s

/-- Only a receive takes something from a watcher. -/
theorem untouched_exec {i : ℕ} {o : WatchOp} (ho : o ≠ .next i) (ch : WatchChoice)
    (s : WatchState) : Untouched i s (watchExec covers ch s o).1 := by
  cases o with
  | ctxErr | keyValue | execute | wait => exact .refl i s
  | openWatcher key =>
      simp only [watchExec]
      split
      · exact .refl i s
      · intro W hW
        have hlt : i < s.watchers.length := (List.getElem?_eq_some_iff.mp hW).1
        exact ⟨W, by rw [List.getElem?_append_left hlt, hW], rfl, rfl⟩
  | next j =>
      have hji : j ≠ i := fun h => ho (h ▸ rfl)
      simp only [watchExec]
      split
      · exact .refl i s
      · intro W hW
        exact ⟨W, by rw [List.getElem?_set_ne hji, hW], rfl, rfl⟩
  | stop j => exact untouched_close i j 0 s

/-- What a receive takes is what it answers. -/
theorem taken_next (covers : Bytes → Bytes → Bool) {i : ℕ} (ch : WatchChoice) {s : WatchState}
    {W : Watcher} (hW : s.watchers[i]? = some W) :
    ∃ W', (watchExec covers ch s (.next i)).1.watchers[i]? = some W' ∧ W'.filter = W.filter ∧
      W'.taken = (receipt ⟨.next i, (watchExec covers ch s (.next i)).2⟩).toList ++ W.taken := by
  have hlt : i < s.watchers.length := (List.getElem?_eq_some_iff.mp hW).1
  simp only [watchExec, hW]
  refine ⟨W.receive.1, List.getElem?_set_self hlt, filter_receive W, ?_⟩
  unfold Watcher.receive
  split
  · rename_i p rest _
    cases p <;> rfl
  · split <;> rfl

theorem received_during_cons (i : ℕ) (x : Answered watchSig) (h : WatchHist) :
    received (during i (x :: h)) =
      (if session h = some i then (receipt x).toList else []) ++ received (during i h) := by
  rw [during]
  split
  · rw [received, List.filterMap_cons]
    cases receipt x <;> rfl
  · rfl

/-- A watcher that is opened is the next one. -/
theorem opens_exec {ch : WatchChoice} {s : WatchState} {o : WatchOp} {i : ℕ}
    (h : opens ⟨o, (watchExec covers ch s o).2⟩ = some i) :
    i = s.watchers.length ∧ ∃ key, o = .openWatcher key ∧
      (watchExec covers ch s o).1.watchers = s.watchers ++ [.opened covers key s.log] := by
  cases o with
  | openWatcher key =>
      simp only [watchExec] at h ⊢
      split at h
      · cases h
      · cases h
        exact ⟨rfl, key, rfl, rfl⟩
  | ctxErr | keyValue | next | execute | stop | wait => cases h

/-- The watchers that were opened are there. -/
theorem Owned.lt_length {w : World (watching covers)} (hw : Owned w) {t : ℕ}
    {th : Thread (watching covers)} (ht : w.threads[t]? = some th) {i : ℕ}
    (hi : i ∈ opened th.hist) : i < w.state.watchers.length := by
  obtain ⟨W, hW, -⟩ := hw.taken ht hi
  exact (List.getElem?_eq_some_iff.mp hW).1

/-- The watchers of the thread that has performed `o`. -/
theorem taken_perform {w : World (watching covers)} (hw : Owned w) {t : ℕ} {ch : WatchChoice}
    {c : WatchCall} {h : WatchHist} {o : WatchOp} {k : o.Ret → Watch (Option Err)}
    (ht : w.threads[t]? = some ⟨c, h, .call o k⟩) {i : ℕ}
    (hi : i ∈ opened (⟨o, (watchExec covers ch w.state o).2⟩ :: h)) :
    ∃ W, (watchExec covers ch w.state o).1.watchers[i]? = some W ∧
      W.taken = received (during i (⟨o, (watchExec covers ch w.state o).2⟩ :: h)) ∧
      W.filter = c.binding.key := by
  have hg := hw.ok.guard ht
  rw [received_during_cons]
  rcases mem_opened_cons.mp hi with hopen | hi
  · -- the watcher was opened just now
    obtain ⟨rfl, key, rfl, hwatchers⟩ := opens_exec hopen
    have hnot : w.state.watchers.length ∉ opened h :=
      fun hmem => Nat.lt_irrefl _ (hw.lt_length ht hmem)
    rw [during_eq_nil hnot, if_neg fun hs => hnot (mem_opened_of_session hs), hwatchers]
    exact ⟨_, List.getElem?_concat_length, rfl, hg.1⟩
  · obtain ⟨W, hW, htaken, hfilter⟩ := hw.taken ht hi
    by_cases ho : o = .next i
    · subst ho
      obtain ⟨W', hW', hfilter', htaken'⟩ := taken_next covers ch hW
      rw [if_pos hg.1]
      exact ⟨W', hW', by rw [htaken', htaken], hfilter'.trans hfilter⟩
    · have hkeep : Untouched i w.state (watchExec covers ch w.state o).1 :=
        untouched_exec ho ch w.state
      have hnone : (if session h = some i then
          (receipt ⟨o, (watchExec covers ch w.state o).2⟩).toList else []) = [] := by
        split
        · rename_i hs
          cases o with
          | next j => exact absurd (congrArg WatchOp.next (Option.some.inj (hg.1.symm.trans hs))) ho
          | ctxErr | keyValue | openWatcher | execute | stop | wait => rfl
        · rfl
      rw [hnone]
      exact hkeep.taken ⟨W, hW, htaken, hfilter⟩

/-- The watchers of a thread that has not performed anything. -/
theorem untouched_other {w : World (watching covers)} (hw : Owned w) {t u : ℕ} (ch : WatchChoice)
    {c : WatchCall} {h : WatchHist} {o : WatchOp} {k : o.Ret → Watch (Option Err)}
    (ht : w.threads[t]? = some ⟨c, h, .call o k⟩) {th : Thread (watching covers)}
    (hu : w.threads[u]? = some th) (hut : u ≠ t) {i : ℕ} (hi : i ∈ opened th.hist) :
    Untouched i w.state (watchExec covers ch w.state o).1 := by
  apply untouched_exec
  rintro rfl
  exact hut (hw.apart hu ht hi (mem_opened_of_session (hw.ok.guard ht).1))

/-- Nobody else has opened a watcher of the thread that has performed `o`. -/
theorem apart_perform {w : World (watching covers)} (hw : Owned w) {t u : ℕ} {ch : WatchChoice}
    {c : WatchCall} {h : WatchHist} {o : WatchOp} {k : o.Ret → Watch (Option Err)}
    (ht : w.threads[t]? = some ⟨c, h, .call o k⟩) {th : Thread (watching covers)}
    (hu : w.threads[u]? = some th) (hut : u ≠ t) {i : ℕ} (hi : i ∈ opened th.hist) :
    i ∉ opened (⟨o, (watchExec covers ch w.state o).2⟩ :: h) := by
  intro hi'
  rcases mem_opened_cons.mp hi' with hopen | hi'
  · exact absurd (hw.lt_length hu hi) ((opens_exec hopen).1 ▸ Nat.lt_irrefl _)
  · exact hut (hw.apart hu ht hi hi')

theorem nodup_perform {w : World (watching covers)} (hw : Owned w) {t : ℕ} {ch : WatchChoice}
    {c : WatchCall} {h : WatchHist} {o : WatchOp} {k : o.Ret → Watch (Option Err)}
    (ht : w.threads[t]? = some ⟨c, h, .call o k⟩) :
    (opened (⟨o, (watchExec covers ch w.state o).2⟩ :: h)).Nodup := by
  have hold : (opened h).Nodup := hw.nodup ht
  cases hopen : opens ⟨o, (watchExec covers ch w.state o).2⟩ with
  | none =>
      rw [opened, List.filterMap_cons_none hopen]
      exact hold
  | some j =>
      rw [opened, List.filterMap_cons_some hopen]
      refine List.nodup_cons.mpr ⟨fun hmem => ?_, hold⟩
      exact absurd (hw.lt_length ht hmem) ((opens_exec hopen).1 ▸ Nat.lt_irrefl _)

theorem nodup_moves {w w' : World (watching covers)} {a : Act (watching covers)}
    (hm : w.Moves a w') (hw : Owned w) :
    ∀ (t : ℕ) (th : Thread (watching covers)), w'.threads[t]? = some th →
      (opened th.hist).Nodup :=
  hm.forall_threads (P := fun _ (th : Thread (watching covers)) => (opened th.hist).Nodup)
    (fun _ _ ht => hw.nodup ht) (fun _ h => h) (fun _ => List.nodup_nil)
    fun _ ht _ => nodup_perform hw ht

theorem taken_moves {w w' : World (watching covers)} {a : Act (watching covers)}
    (hm : w.Moves a w') (hw : Owned w) {t i : ℕ} {th : Thread (watching covers)}
    (ht : w'.threads[t]? = some th) (hi : i ∈ opened th.hist) :
    ∃ W, w'.state.watchers[i]? = some W ∧ W.taken = received (during i th.hist) ∧
      W.filter = th.call.binding.key := by
  cases hm with
  | idle => exact hw.taken ht hi
  | enter h =>
      cases h
      rcases World.getElem?_enter ht with ht | ⟨-, rfl⟩
      · exact hw.taken ht hi
      · cases hi
  | env e => exact (untouched_env _ e w.state).taken (hw.taken ht hi)
  | @perform u ch c h o k hu =>
      rw [World.getElem?_perform hu] at ht
      split at ht
      · cases ht
        exact taken_perform hw hu hi
      · rename_i htu
        exact (untouched_other hw ch hu ht htu hi).taken (hw.taken ht hi)

theorem apart_moves {w w' : World (watching covers)} {a : Act (watching covers)}
    (hm : w.Moves a w') (hw : Owned w) {t u i : ℕ} {th th' : Thread (watching covers)}
    (ht : w'.threads[t]? = some th) (hu : w'.threads[u]? = some th') (hi : i ∈ opened th.hist)
    (hi' : i ∈ opened th'.hist) : t = u := by
  cases hm with
  | idle | env => exact hw.apart ht hu hi hi'
  | enter h =>
      rcases World.getElem?_enter ht with ht | ⟨-, rfl⟩
      · rcases World.getElem?_enter hu with hu | ⟨-, rfl⟩
        · exact hw.apart ht hu hi hi'
        · cases hi'
      · cases hi
  | @perform v ch c h o k hv =>
      rw [World.getElem?_perform hv] at ht hu
      split at ht
      · cases ht
        split at hu
        · rename_i htv huv
          rw [htv, huv]
        · rename_i huv
          exact absurd hi (apart_perform hw hv hu huv hi')
      · rename_i htv
        split at hu
        · cases hu
          exact absurd hi' (apart_perform hw hv ht htv hi)
        · exact hw.apart ht hu hi hi'

theorem owned_moves {w w' : World (watching covers)} {a : Act (watching covers)}
    (hm : w.Moves a w') (hw : Owned w) : Owned w' where
  ok := (watch covers).ok_moves hm hw.ok
  steady := steady_moves hm hw.ok hw.steady
  nodup ht := nodup_moves hm hw _ _ ht
  taken ht hi := taken_moves hm hw ht hi
  apart ht hu hi hi' := apart_moves hm hw ht hu hi hi'

theorem owned_run (covers : Bytes → Bytes → Bool) (log : List Record)
    (acts : List (Act (watching covers))) :
    Owned ((World.init (M := watching covers) { log }).run acts) := by
  refine World.run_invariant owned_moves ⟨(watch covers).ok_init _, fun t th ht => ?_,
    fun ht => ?_, fun ht => ?_, fun ht => ?_⟩ acts
  all_goals simp [World.init] at ht

theorem upToDate_run (covers : Bytes → Bytes → Bool) (log : List Record)
    (acts : List (Act (watching covers))) :
    UpToDate covers ((World.init (M := watching covers) { log }).run acts).state :=
  World.run_invariant (P := fun w => UpToDate covers w.state) upToDate_moves
    (fun W hW => by cases hW) acts

/-- What was executed since the watcher was opened is what was executed last. -/
theorem executed_since (h : WatchHist) : ∃ us, executed h = executed (since h) ++ us := by
  refine ⟨executed (h.dropWhile fun x => (opens x).isNone), ?_⟩
  rw [executed, executed, executed, ← List.filterMap_append, since, List.takeWhile_append_dropWhile]

end

/-- Convergence. When a binding waits for the next update, its watcher is alive and its
channel is empty, then for every key that the binding selects and that is present, the last
update it has executed is the current value; whatever was written, and however many
watchers were lost or could not be opened before. -/
theorem watch_converges (covers : Bytes → Bytes → Bool) (log : List Record)
    (acts : List (Act (watching covers))) {t : ℕ} {th : Thread (watching covers)} {i : ℕ}
    {W : Watcher} {key : Bytes} {u : Update}
    (ht : ((World.init (M := watching covers) { log }).run acts).threads[t]? = some th)
    (hnext : th.rest.next? = some (.next i))
    (hW : ((World.init (M := watching covers) { log }).run acts).state.watchers[i]? = some W)
    (hlive : W.live = true) (hdrained : W.pending = [])
    (hkey : selects covers th.call.binding.key key = true)
    (hu : latest key ((World.init (M := watching covers) { log }).run acts).state.log = some u) :
    lastOf key (executed th.hist) = some u := by
  have hw := owned_run covers log acts
  have hguard : session th.hist = some i ∧ Level th.hist := by
    obtain ⟨c, h, p⟩ := th
    cases p with
    | ret a => cases hnext
    | call o k =>
        cases hnext
        exact hw.ok.guard ht
  obtain ⟨W', hW', htaken, hfilter⟩ := hw.taken ht (mem_opened_of_session hguard.1)
  cases hW.symm.trans hW'
  rw [during_session (hw.nodup ht) hguard.1] at htaken
  have hlast := upToDate_run covers log acts W (List.mem_of_getElem? hW) hlive key u
    (hfilter ▸ hkey) hu
  have hupdates : W.updates = executed (since th.hist) := by
    rw [Watcher.updates, hdrained, hguard.2, ← htaken]
    rfl
  obtain ⟨us, hus⟩ := executed_since th.hist
  rw [hus]
  exact lastOf_append_of_eq_some (hupdates ▸ hlast)

/-- A binding to all keys of a bucket executes an update and loses its watcher; the key is
written again, and the first attempt to open another watcher fails. -/
def lostWatcher : List (Act (watching fun _ _ => true)) :=
  [.env (.write ⟨[107], some [49]⟩), .spawn ⟨0, ⟨[98], []⟩, 3, 20⟩] ++
    List.replicate 6 (.step 0 {}) ++
    [.env (.close 0 0), .env (.write ⟨[107], some [50]⟩)] ++ List.replicate 4 (.step 0 {}) ++
    [.step 0 { fault := some (.sentinel (.nats .errTimeout)) }]

/-- The second attempt succeeds, and the channel is drained. -/
def watcherBack : List (Act (watching fun _ _ => true)) :=
  lostWatcher ++ List.replicate 7 (.step 0 {})

/-- The world that `watcherBack` leads to. -/
abbrev backAgain : World (watching fun _ _ => true) :=
  (World.init (M := watching fun _ _ => true) { log := [] }).run watcherBack

/-- What was written while there was no watcher has been executed. -/
theorem watch_converges_watcherBack :
    ∃ th W, backAgain.threads[0]? = some th ∧ th.rest.next? = some (.next 1) ∧
      backAgain.state.watchers[1]? = some W ∧ W.live = true ∧ W.pending = [] ∧
      latest [107] backAgain.state.log = some ⟨[107], [50], 2⟩ ∧
      lastOf [107] (executed th.hist) = some ⟨[107], [50], 2⟩ :=
  ⟨_, _, rfl, rfl, rfl, rfl, rfl, rfl,
    watch_converges (fun _ _ => true) [] watcherBack (t := 0) (i := 1) rfl rfl rfl rfl rfl rfl rfl⟩

/-- Whenever a binding waits, it waits for 100 ms, doubled for each attempt to open a watcher
that has failed since the last one that succeeded, and never for more than 5 s; and before
every attempt but the first it has waited so to the end. -/
theorem watch_backoff (covers : Bytes → Bytes → Bool) (log : List Record)
    (acts : List (Act (watching covers))) {t : ℕ} {th : Thread (watching covers)}
    (ht : ((World.init (M := watching covers) { log }).run acts).threads[t]? = some th) :
    (∀ ctx backoff, th.rest.next? = some (.wait ctx backoff) →
      backoff = min 5000 (100 * 2 ^ failures th.hist)) ∧
    ∀ key r h, ⟨.openWatcher key, r⟩ :: h <:+ th.hist → ¬ Unopened h →
      ∃ h', h = ⟨.wait th.call.ctx (min 5000 (100 * 2 ^ failures h')), false⟩ :: h' := by
  have hw := (watch covers).ok_run { log } acts
  constructor
  · intro ctx backoff hwait
    obtain ⟨c, h, p⟩ := th
    cases p with
    | ret a => cases hwait
    | call o k =>
        cases hwait
        exact (hw.guard ht).2.1
  · intro key r h hopen hagain
    exact ((hw _ _ ht).allowed hopen).2.1.resolve_left hagain

/-- After one failure the wait is 200 ms, and then there is another attempt. -/
theorem watch_backoff_lostWatcher :
    (∃ th, ((World.init (M := watching fun _ _ => true) { log := [] }).run
        lostWatcher).threads[0]? = some th ∧ th.rest.next? = some (.wait 0 200) ∧
      200 = min 5000 (100 * 2 ^ failures th.hist)) ∧
    ∃ th h, ((World.init (M := watching fun _ _ => true) { log := [] }).run
        (lostWatcher ++ List.replicate 2 (.step 0 {}))).threads[0]? = some th ∧
      th.hist = ⟨.openWatcher [], .ok 1⟩ :: h ∧ ¬ Unopened h ∧
      ∃ h', h = ⟨.wait 0 (min 5000 (100 * 2 ^ failures h')), false⟩ :: h' := by
  refine ⟨⟨_, rfl, rfl, ?_⟩, _, _, rfl, rfl, ?_, ?_⟩
  · exact (watch_backoff (fun _ _ => true) [] lostWatcher (t := 0) rfl).1 0 200 rfl
  · intro hun
    exact hun _ (List.mem_cons_of_mem _ List.mem_cons_self) [] rfl
  · refine (watch_backoff (fun _ _ => true) [] (lostWatcher ++ List.replicate 2 (.step 0 {}))
      (t := 0) rfl).2 _ _ _ (List.suffix_refl _) fun hun => ?_
    exact hun _ (List.mem_cons_of_mem _ List.mem_cons_self) [] rfl

end TransportNats.KeyValue
