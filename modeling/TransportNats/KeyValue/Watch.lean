import TransportNats.Library.World
import TransportNats.Errors
import TransportNats.Go
import Mathlib.Algebra.Ring.Nat

/-!
The program that watches a bucket.

A watcher delivers updates on a channel. The program executes its action for
each of them and opens another watcher when the channel is closed, waiting
longer after each failure. What it does next is always determined by its history
since it has opened its watcher: it receives only when all that it has received
is executed, and the time it waits counts the failures. It leaves an update
unexecuted only when its context is done, and then it opens no other watcher,
since a context that is done stays so.
-/

namespace TransportNats.KeyValue

open Interleaving Program

/-! ### The program -/

structure KVBinding where
  bucket : Bytes
  key : Bytes

/-- A value of a key, with its revision. -/
structure Update where
  key : Bytes
  value : Bytes
  revision : ℕ
  deriving DecidableEq

/-- A context is known by its number. -/
inductive WatchOp
  | ctxErr (ctx : ℕ)
  | keyValue (bucket : Bytes)
  | openWatcher (key : Bytes)
  | next (watcher : ℕ)
  | execute (u : Update)
  | stop (watcher : ℕ)
  | wait (ctx backoff : ℕ)

/-- `next` receives from the channel: `none` if it is closed, and the nil marker is
`some none`. The answer of `wait` is whether the context was done first. -/
@[reducible] def WatchOp.Ret : WatchOp → Type
  | .ctxErr _ | .keyValue _ | .execute _ | .stop _ => Option Err
  | .openWatcher _ => Except Err ℕ
  | .next _ => Option (Option Update)
  | .wait _ _ => Bool

abbrev watchSig : Signature := ⟨WatchOp, WatchOp.Ret⟩

abbrev Watch := Program watchSig

abbrev WatchHist := History watchSig

def watchOp (o : WatchOp) : Watch o.Ret := .perform (S := watchSig) o

/-- No key stands for all keys. -/
def openKVWatcher (b : KVBinding) : Watch (Except Err ℕ) := watchOp (.openWatcher b.key)

/-- The first back-off and the longest one, in milliseconds. -/
def firstBackoff : ℕ := 100

def longestBackoff : ℕ := 5000

def nextBackoff (backoff : ℕ) : ℕ :=
  if backoff < longestBackoff then
    if longestBackoff < backoff * 2 then longestBackoff else backoff * 2
  else backoff

/-- The loop over the updates of a watcher, for a number of rounds, and what follows it with
the rounds that are left. -/
def consumeKVUpdates (ctx watcher : ℕ) (andThen : ℕ → Watch Unit) : ℕ → Watch Unit
  | 0 => pure ()
  | rounds + 1 => do
      match ← watchOp (.next watcher) with
      | none => do
          let _ ← watchOp (.stop watcher)
          andThen rounds
      | some update =>
          match ← watchOp (.ctxErr ctx) with
          | some _ => do
              let _ ← watchOp (.stop watcher)
              andThen rounds
          | none =>
              match update with
              | none => consumeKVUpdates ctx watcher andThen rounds
              | some u => do
                  let _ ← watchOp (.execute u)
                  consumeKVUpdates ctx watcher andThen rounds

/-- The inner loop: wait and open another watcher, until this succeeds. -/
def reopen (ctx : ℕ) (b : KVBinding) (andThen : ℕ → ℕ → Watch Unit) : ℕ → ℕ → Watch Unit
  | 0, _ => pure ()
  | rounds + 1, backoff => do
      if ← watchOp (.wait ctx backoff) then return ()
      else
        match ← openKVWatcher b with
        | .error _ => reopen ctx b andThen rounds (nextBackoff backoff)
        | .ok watcher => andThen watcher rounds

def watchKV (ctx : ℕ) (b : KVBinding) : ℕ → ℕ → ℕ → Watch Unit
  | 0, _, _ => pure ()
  | turns + 1, watcher, rounds =>
      consumeKVUpdates ctx watcher (fun rounds => do
        match ← watchOp (.ctxErr ctx) with
        | some _ => return ()
        | none => reopen ctx b (watchKV ctx b turns) rounds firstBackoff) rounds

/-- The set-up, and the goroutine that it starts. -/
def mountKV (ctx : ℕ) (b : KVBinding) (turns rounds : ℕ) : Watch (Option Err) := do
  if b.bucket = [] then return some (.app .badRequest "KV watcher requires a bucket name")
  else
    match ← watchOp (.ctxErr ctx) with
    | some err => return some err
    | none =>
        match ← watchOp (.keyValue b.bucket) with
        | some err => return some (mapError err)
        | none =>
            match ← openKVWatcher b with
            | .error err => return some (mapError err)
            | .ok watcher => do
                watchKV ctx b turns watcher rounds
                return none

/-! ### What a history says -/

/-- The watcher that an operation has opened. -/
def opens : Answered watchSig → Option ℕ
  | ⟨.openWatcher _, .ok watcher⟩ => some watcher
  | _ => none

/-- The watcher that was opened last. -/
def session (h : WatchHist) : Option ℕ := h.findSome? opens

/-- The part of the history since then. -/
def since (h : WatchHist) : WatchHist := h.takeWhile fun x => (opens x).isNone

/-- All watchers that were opened. -/
def opened (h : WatchHist) : List ℕ := h.filterMap opens

/-- The part of the history in which the watcher `i` was the one opened last. -/
def during (i : ℕ) : WatchHist → WatchHist
  | [] => []
  | x :: h => if session h = some i then x :: during i h else during i h

def receipt : Answered watchSig → Option Update
  | ⟨.next _, some (some u)⟩ => some u
  | _ => none

def execution : Answered watchSig → Option Update
  | ⟨.execute u, _⟩ => some u
  | _ => none

/-- The updates that were received, the latest first. -/
def received (h : WatchHist) : List Update := h.filterMap receipt

def executed (h : WatchHist) : List Update := h.filterMap execution

def failedOpen : Answered watchSig → Bool
  | ⟨.openWatcher _, .error _⟩ => true
  | _ => false

/-- The failures to open a watcher since one was opened. -/
def failures (h : WatchHist) : ℕ := (since h).countP failedOpen

/-- The program is between two updates: it has executed all that it has received. -/
def Level (h : WatchHist) : Prop := executed (since h) = received (since h)

/-- The context was not found alive after it had been found done. -/
def Steady (ctx : ℕ) (h : WatchHist) : Prop :=
  ∀ newer older err, h = newer ++ ⟨.ctxErr ctx, some err⟩ :: older → ⟨.ctxErr ctx, none⟩ ∉ newer

/-- How long the program waits after the history `h`: 100 ms, doubled for each failure to
open a watcher, and 5 s at most. -/
def backoffAfter (h : WatchHist) : ℕ := min longestBackoff (firstBackoff * 2 ^ failures h)

/-- The program has waited to the end, and as long as it has to. -/
def Waited (ctx : ℕ) (h : WatchHist) : Prop :=
  ∃ h', h = ⟨.wait ctx (backoffAfter h'), false⟩ :: h'

/-- No attempt was made to open a watcher. -/
def Unopened (h : WatchHist) : Prop := ∀ x ∈ h, ∀ key, x.op ≠ .openWatcher key

/-- An action is executed for an update that was just received, after a look at the context;
the next update is received, and another watcher is waited for and opened, only when all
before it have been executed. -/
def watchGuard (ctx : ℕ) (b : KVBinding) (h : WatchHist) : WatchOp → Prop
  | .ctxErr ctx' => ctx' = ctx
  | .next watcher => session h = some watcher ∧ Level h
  | .execute u => received (since h) = u :: executed (since h) ∧
      ∃ watcher h', h = ⟨.ctxErr ctx, none⟩ :: ⟨.next watcher, some (some u)⟩ :: h'
  | .wait ctx' backoff => ctx' = ctx ∧ backoff = backoffAfter h ∧ (Steady ctx h → Level h)
  | .openWatcher key => key = b.key ∧ (Unopened h ∨ Waited ctx h) ∧ (Steady ctx h → Level h)
  | .keyValue _ | .stop _ => True

theorem nextBackoff_min (k : ℕ) :
    nextBackoff (min longestBackoff (firstBackoff * 2 ^ k)) =
      min longestBackoff (firstBackoff * 2 ^ (k + 1)) := by
  have hpow : firstBackoff * 2 ^ (k + 1) = firstBackoff * 2 ^ k * 2 := by
    rw [pow_succ, Nat.mul_assoc]
  rw [hpow]
  generalize firstBackoff * 2 ^ k = n
  unfold nextBackoff
  split
  · split <;> omega
  · omega

/-! ### Histories that grow -/

theorem session_cons {x : Answered watchSig} (hx : opens x = none) (h : WatchHist) :
    session (x :: h) = session h := by
  simp [session, hx]

theorem since_cons {x : Answered watchSig} (hx : opens x = none) (h : WatchHist) :
    since (x :: h) = x :: since h := by
  simp [since, hx]

theorem session_opened {x : Answered watchSig} {watcher : ℕ} (hx : opens x = some watcher)
    (h : WatchHist) : session (x :: h) = some watcher := by
  simp [session, hx]

theorem since_opened {x : Answered watchSig} {watcher : ℕ} (hx : opens x = some watcher)
    (h : WatchHist) : since (x :: h) = [] := by
  simp [since, hx]

theorem mem_opened_of_session {i : ℕ} {h : WatchHist} (hi : session h = some i) :
    i ∈ opened h := by
  obtain ⟨x, hx, hopen⟩ := List.exists_of_findSome?_eq_some hi
  exact List.mem_filterMap.mpr ⟨x, hx, hopen⟩

theorem mem_opened_cons {i : ℕ} {x : Answered watchSig} {h : WatchHist} :
    i ∈ opened (x :: h) ↔ opens x = some i ∨ i ∈ opened h := by
  simp [opened]

theorem during_eq_nil {i : ℕ} {h : WatchHist} (hi : i ∉ opened h) : during i h = [] := by
  induction h with
  | nil => rfl
  | cons x h ih =>
      have hnot : i ∉ opened h := fun hmem => hi (mem_opened_cons.mpr (.inr hmem))
      rw [during, if_neg fun hs => hnot (mem_opened_of_session hs), ih hnot]

/-- The part of the history since the last opening is that of the watcher opened last, if no
watcher was opened twice. -/
theorem during_session {i : ℕ} {h : WatchHist} (hnodup : (opened h).Nodup)
    (hi : session h = some i) : during i h = since h := by
  induction h with
  | nil => rfl
  | cons x h ih =>
      cases hopen : opens x with
      | none =>
          rw [session_cons hopen] at hi
          rw [opened, List.filterMap_cons_none hopen] at hnodup
          rw [during, if_pos hi, since_cons hopen, ih hnodup hi]
      | some j =>
          rw [session_opened hopen] at hi
          cases hi
          rw [opened, List.filterMap_cons_some hopen] at hnodup
          have hnot : i ∉ opened h := (List.nodup_cons.mp hnodup).1
          rw [during, if_neg fun hs => hnot (mem_opened_of_session hs), since_opened hopen,
            during_eq_nil hnot]

/-- An operation that has nothing to do with updates. -/
structure Silent (x : Answered watchSig) : Prop where
  opens : opens x = none
  receipt : receipt x = none
  execution : execution x = none

theorem Silent.received {x : Answered watchSig} (hx : Silent x) (h : WatchHist) :
    received (since (x :: h)) = received (since h) := by
  rw [since_cons hx.opens, KeyValue.received, List.filterMap_cons_none hx.receipt]
  rfl

theorem Silent.executed {x : Answered watchSig} (hx : Silent x) (h : WatchHist) :
    executed (since (x :: h)) = executed (since h) := by
  rw [since_cons hx.opens, KeyValue.executed, List.filterMap_cons_none hx.execution]
  rfl

theorem Silent.level {x : Answered watchSig} (hx : Silent x) {h : WatchHist} (hl : Level h) :
    Level (x :: h) := by
  rw [Level, hx.received, hx.executed, hl]

theorem silent_ctxErr (ctx : ℕ) (r : Option Err) : Silent ⟨.ctxErr ctx, r⟩ := ⟨rfl, rfl, rfl⟩

theorem level_opened {x : Answered watchSig} {watcher : ℕ} (hx : opens x = some watcher)
    (h : WatchHist) : Level (x :: h) := by
  rw [Level, since_opened hx]
  rfl

theorem failures_opened {x : Answered watchSig} {watcher : ℕ} (hx : opens x = some watcher)
    (h : WatchHist) : failures (x :: h) = 0 := by
  rw [failures, since_opened hx]
  rfl

theorem failures_cons {x : Answered watchSig} (hx : opens x = none) (hf : failedOpen x = false)
    (h : WatchHist) : failures (x :: h) = failures h := by
  rw [failures, since_cons hx, List.countP_cons_of_neg (by simp [hf])]
  rfl

/-- The update has been received and nothing has been executed since. -/
theorem received_next (watcher : ℕ) (u : Update) (h : WatchHist) :
    received (since (⟨.next watcher, some (some u)⟩ :: h)) = u :: received (since h) := by
  rw [since_cons rfl]
  rfl

theorem executed_execute (u : Update) (r : Option Err) (h : WatchHist) :
    executed (since (⟨.execute u, r⟩ :: h)) = u :: executed (since h) := by
  rw [since_cons rfl]
  rfl

theorem Steady.of_cons {ctx : ℕ} {x : Answered watchSig} {h : WatchHist}
    (hs : Steady ctx (x :: h)) : Steady ctx h := by
  rintro newer older err rfl hmem
  exact hs (x :: newer) older err rfl (List.mem_cons_of_mem _ hmem)

theorem Steady.cons {ctx : ℕ} {x : Answered watchSig} {h : WatchHist} (hs : Steady ctx h)
    (hx : x = ⟨.ctxErr ctx, none⟩ → ∀ err, ⟨.ctxErr ctx, some err⟩ ∉ h) :
    Steady ctx (x :: h) := by
  intro newer older err heq hmem
  cases newer with
  | nil => cases hmem
  | cons y newer =>
      obtain ⟨rfl, rfl⟩ := List.cons.inj heq
      rcases List.mem_cons.mp hmem with hx' | hmem
      · exact hx hx'.symm err (List.mem_append_right newer List.mem_cons_self)
      · exact hs newer older err rfl hmem

/-- If a context that was found done is found alive, histories with this are not steady. -/
theorem not_steady {ctx : ℕ} {err : Err} {h : WatchHist}
    (hmem : ⟨.ctxErr ctx, some err⟩ ∈ h) : ¬ Steady ctx (⟨.ctxErr ctx, none⟩ :: h) := by
  intro hs
  obtain ⟨newer, older, rfl⟩ := List.append_of_mem hmem
  exact hs (⟨.ctxErr ctx, none⟩ :: newer) older err rfl List.mem_cons_self

/-! ### The program keeps to its guard -/

section
variable {ctx : ℕ} {b : KVBinding} {h : WatchHist}

/-- Where the loops begin: a watcher is open, nothing is left to execute, and no attempt to
open another one has failed. -/
structure Fresh (watcher : ℕ) (h : WatchHist) : Prop where
  session : session h = some watcher
  level : Level h
  failures : failures h = 0

theorem Fresh.silent {watcher : ℕ} (hh : Fresh watcher h) {x : Answered watchSig} (hx : Silent x)
    (hf : failedOpen x = false) : Fresh watcher (x :: h) where
  session := by rw [session_cons hx.opens, hh.session]
  level := hx.level hh.level
  failures := by rw [failures_cons hx.opens hf, hh.failures]

theorem fresh_opened (key : Bytes) (watcher : ℕ) :
    Fresh watcher (⟨.openWatcher key, .ok watcher⟩ :: h) where
  session := session_opened rfl h
  level := level_opened rfl h
  failures := failures_opened rfl h

theorem Silent.settled {x : Answered watchSig} (hx : Silent x) (hl : Steady ctx h → Level h) :
    Steady ctx (x :: h) → Level (x :: h) :=
  fun hs => hx.level (hl hs.of_cons)

theorem guarded_reopen {andThen : ℕ → ℕ → Watch Unit}
    (hthen : ∀ h watcher rounds, Fresh watcher h →
      Guarded (S := watchSig) (watchGuard ctx b) (fun _ _ => True) h (andThen watcher rounds))
    (rounds k : ℕ) (hk : failures h = k) (hl : Steady ctx h → Level h) :
    Guarded (S := watchSig) (watchGuard ctx b) (fun _ _ => True) h
      (reopen ctx b andThen rounds (min longestBackoff (firstBackoff * 2 ^ k))) := by
  induction rounds generalizing h k with
  | zero => trivial
  | succ rounds ih =>
      subst hk
      unfold reopen watchOp
      rw [guarded_perform_bind]
      refine ⟨⟨rfl, rfl, hl⟩, fun r => ?_⟩
      cases r with
      | true => trivial
      | false =>
          have hwait : Silent ⟨.wait ctx (backoffAfter h), false⟩ := ⟨rfl, rfl, rfl⟩
          have hl' := hwait.settled hl
          refine ⟨⟨rfl, .inr ⟨h, rfl⟩, hl'⟩, fun r => ?_⟩
          cases r with
          | error err =>
              have hfail : failures (⟨.openWatcher b.key, .error err⟩ ::
                  ⟨.wait ctx (backoffAfter h), false⟩ :: h) = failures h + 1 := by
                rw [failures, since_cons rfl, List.countP_cons_of_pos rfl, ← failures,
                  failures_cons rfl rfl]
              have hopen : Silent ⟨.openWatcher b.key, .error err⟩ := ⟨rfl, rfl, rfl⟩
              have hrest := ih (failures h + 1) hfail (hopen.settled hl')
              rw [← nextBackoff_min] at hrest
              exact hrest
          | ok watcher => exact hthen _ _ _ (fresh_opened b.key watcher)

theorem guarded_consumeKVUpdates {watcher : ℕ} {andThen : ℕ → Watch Unit}
    (hthen : ∀ h rounds, failures h = 0 → (Level h ∨ ∃ err, ⟨.ctxErr ctx, some err⟩ ∈ h) →
      Guarded (S := watchSig) (watchGuard ctx b) (fun _ _ => True) h (andThen rounds))
    (rounds : ℕ) (hh : Fresh watcher h) :
    Guarded (S := watchSig) (watchGuard ctx b) (fun _ _ => True) h
      (consumeKVUpdates ctx watcher andThen rounds) := by
  -- the loop is left when all is executed, or the context is done
  have hleave : ∀ h' rounds, failures h' = 0 →
      (Level h' ∨ ∃ err, ⟨.ctxErr ctx, some err⟩ ∈ h') →
      Guarded (S := watchSig) (watchGuard ctx b) (fun _ _ => True) h'
        (do
          let _ ← watchOp (.stop watcher)
          andThen rounds) := by
    intro h' rounds h0 hdone
    refine ⟨trivial, fun r => hthen _ _ (by rw [failures_cons rfl rfl, h0]) ?_⟩
    rcases hdone with hl | ⟨err, hmem⟩
    · exact .inl (Silent.level ⟨rfl, rfl, rfl⟩ hl)
    · exact .inr ⟨err, List.mem_cons_of_mem _ hmem⟩
  induction rounds generalizing h with
  | zero => trivial
  | succ rounds ih =>
      unfold consumeKVUpdates
      refine ⟨⟨hh.session, hh.level⟩, fun r => ?_⟩
      cases r with
      | none =>
          refine hleave _ _ (by rw [failures_cons rfl rfl, hh.failures]) (.inl ?_)
          exact Silent.level ⟨rfl, rfl, rfl⟩ hh.level
      | some update =>
          refine ⟨rfl, fun r => ?_⟩
          cases r with
          | some err =>
              refine hleave _ _ ?_ (.inr ⟨err, List.mem_cons_self⟩)
              rw [failures_cons rfl rfl, failures_cons rfl rfl, hh.failures]
          | none =>
              cases update with
              | none =>
                  have hnil : Silent ⟨.next watcher, some none⟩ := ⟨rfl, rfl, rfl⟩
                  exact ih ((hh.silent hnil rfl).silent (silent_ctxErr ctx none) rfl)
              | some u =>
                  have hrec : received (since (⟨.ctxErr ctx, none⟩ ::
                      ⟨.next watcher, some (some u)⟩ :: h)) =
                      u :: executed (since (⟨.ctxErr ctx, none⟩ ::
                        ⟨.next watcher, some (some u)⟩ :: h)) := by
                    rw [(silent_ctxErr ctx none).received, (silent_ctxErr ctx none).executed,
                      received_next, ← hh.level, since_cons rfl]
                    rfl
                  refine ⟨⟨hrec, watcher, h, rfl⟩, fun r => ih ⟨?_, ?_, ?_⟩⟩
                  · rw [session_cons rfl, session_cons rfl, session_cons rfl, hh.session]
                  · rw [Level, executed_execute, ← hrec, since_cons rfl]
                    rfl
                  · rw [failures_cons rfl rfl, failures_cons rfl rfl, failures_cons rfl rfl,
                      hh.failures]

theorem guarded_watchKV (turns : ℕ) {watcher : ℕ} (rounds : ℕ) (hh : Fresh watcher h) :
    Guarded (S := watchSig) (watchGuard ctx b) (fun _ _ => True) h
      (watchKV ctx b turns watcher rounds) := by
  induction turns generalizing h watcher rounds with
  | zero => trivial
  | succ turns ih =>
      unfold watchKV
      refine guarded_consumeKVUpdates (fun h' rounds h0 hdone => ?_) rounds hh
      refine ⟨rfl, fun r => ?_⟩
      cases r with
      | some err => trivial
      | none =>
          have h0' : failures (⟨.ctxErr ctx, none⟩ :: h') = 0 := by
            rw [failures_cons rfl rfl, h0]
          -- a context that is alive was not done when the loop was left
          have hl : Steady ctx (⟨.ctxErr ctx, none⟩ :: h') →
              Level (⟨.ctxErr ctx, none⟩ :: h') := by
            intro hs
            rcases hdone with hl | ⟨err, hmem⟩
            · exact (silent_ctxErr ctx none).level hl
            · exact absurd hs (not_steady hmem)
          exact guarded_reopen (fun h watcher rounds hh => ih rounds hh) rounds 0 h0' hl

theorem guarded_mountKV (ctx : ℕ) (b : KVBinding) (turns rounds : ℕ) :
    Guarded (S := watchSig) (watchGuard ctx b) (fun _ _ => True) []
      (mountKV ctx b turns rounds) := by
  unfold mountKV
  split
  · trivial
  · refine ⟨rfl, fun r => ?_⟩
    cases r with
    | some err => trivial
    | none =>
        refine ⟨trivial, fun r => ?_⟩
        cases r with
        | some err => trivial
        | none =>
            refine ⟨⟨rfl, .inl ?_, fun _ => rfl⟩, fun r => ?_⟩
            · simp [Unopened]
            cases r with
            | error err => trivial
            | ok watcher =>
                exact (guarded_watchKV turns rounds (fresh_opened b.key watcher)).bind
                  fun _ _ _ => trivial

end

end TransportNats.KeyValue
