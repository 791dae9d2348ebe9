import TransportNats.Idempotency.Coordinator

/-!
The shared state the coordinator methods run against.

The bucket is a versioned store, every request to it is one atomic step, and
all clients read one clock that never goes back. A request can also fail on the
way: either it never reached the bucket, or it was applied and the reply was
lost. Such a failure is never mistaken for the answer that a key is missing.
-/

namespace TransportNats.Idempotency

open Interleaving VersionedStore

/-- A failure of the connection rather than an answer of the bucket. -/
structure Outage where
  err : Err
  not_missing : isKeyMissing err = false

inductive Fault
  | none
  | dropped (o : Outage)
  | lost (o : Outage)

/-- What the schedule decides about one operation. -/
structure KvChoice where
  fault : Fault := .none
  ctx : Option Err := none
  token : String := ""

structure KvState where
  kv : Store String Data
  clock : I64
  issued : List String

/-- A write request whose outcome without faults is `attempt`. -/
def commit (s : KvState) (fault : Fault) (attempt : Except Err (Store String Data)) :
    KvState × Except Err ℕ :=
  match fault, attempt with
  | .dropped o, _ => (s, .error o.err)
  | .lost o, .ok kv => ({ s with kv := kv }, .error o.err)
  | .lost o, .error _ => (s, .error o.err)
  | .none, .ok kv => ({ s with kv := kv }, .ok kv.seq)
  | .none, .error err => (s, .error err)

/-- The store after a conditional write, or the error of a refused one. -/
def orRefuse (refusal : NatsErr) : Option (Store String Data) → Except Err (Store String Data)
  | some kv => .ok kv
  | none => .error (.sentinel (.nats refusal))

def answerGet (s : KvState) (fault : Fault) (key : String) : Except Err KvItem :=
  match fault with
  | .dropped o | .lost o => .error o.err
  | .none =>
      match s.kv.read key with
      | some (value, revision) => .ok ⟨value, revision⟩
      | none => .error (.sentinel (.nats .errKeyNotFound))

/-- The error of a write request, if it failed. -/
def writeErr : Except Err ℕ → Option Err
  | .ok _ => none
  | .error err => some err

/-- One operation. A token is fresh: the random source returns a string that it
has not returned before, or fails. -/
def exec (ch : KvChoice) (s : KvState) : (o : KvOp) → KvState × o.Ret
  | .ctxErr => (s, ch.ctx)
  | .now => (s, s.clock)
  | .newToken =>
      if ch.token ≠ "" ∧ ch.token ∉ s.issued then
        ({ s with issued := ch.token :: s.issued }, .ok ch.token)
      else (s, .error (.other "random source failed" none))
  | .get key => (s, answerGet s ch.fault key)
  | .put key data => commit s ch.fault (.ok (s.kv.write key (some data)))
  | .create key data => commit s ch.fault (orRefuse .errKeyExists (s.kv.create key data))
  | .update key data revision =>
      commit s ch.fault (orRefuse .errKeyRevisionMismatch (s.kv.writeAt key (some data) revision))
  | .delete key revision =>
      let r := commit s ch.fault
        (orRefuse .errKeyRevisionMismatch (s.kv.writeAt key none revision))
      (r.1, writeErr r.2)

inductive KvCall
  | claim (key requestHash : String) (leaseTTL : ℤ)
  | complete (key token : String) (entry : IdempotencyEntry) (ttl : ℤ)
  | release (key token : String)
  | renewClaim (key token : String) (leaseTTL : ℤ)

inductive KvResult
  | claim (r : Except Err IdempotencyClaim)
  | done (err : Option Err)

def KvCall.program (K : Kernel) : KvCall → Kv KvResult
  | .claim key requestHash leaseTTL => do
      return .claim (← Idempotency.claim K key requestHash leaseTTL)
  | .complete key token entry ttl => do
      return .done (← Idempotency.complete K key token entry ttl)
  | .release key token => do return .done (← Idempotency.release key token)
  | .renewClaim key token leaseTTL => do
      return .done (← Idempotency.renewClaim K key token leaseTTL)

/-- Any number of clients of one bucket. The environment lets time pass. -/
@[reducible] def coordinator (K : Kernel) : System where
  sig := kvSig
  State := KvState
  Call := KvCall
  Result := KvResult
  Choice := KvChoice
  Env := ℕ
  program := KvCall.program K
  exec := exec
  enter _ s := some s
  env d s := { s with clock := s.clock.advance d }

/-! ### What an operation can do -/

/-- The request `o`, if it is applied to `kv`, writes `v` under `key`. -/
inductive Applies (kv : Store String Data) : KvOp → String → Option Data → Prop
  | put (key : String) (data : Data) : Applies kv (.put key data) key (some data)
  | create {key : String} (data : Data) (h : kv.read key = none) :
      Applies kv (.create key data) key (some data)
  | update {key : String} {revision : ℕ} (data : Data) (h : kv.revision key = revision) :
      Applies kv (.update key data revision) key (some data)
  | delete {key : String} {revision : ℕ} (h : kv.revision key = revision) :
      Applies kv (.delete key revision) key none

/-- The answer `x` reports that `data` was written under `key`, at revision `r`. -/
inductive Reports : Answered kvSig → String → Data → ℕ → Prop
  | put (key : String) (data : Data) (r : ℕ) : Reports ⟨.put key data, .ok r⟩ key data r
  | create (key : String) (data : Data) (r : ℕ) : Reports ⟨.create key data, .ok r⟩ key data r
  | update (key : String) (data : Data) (revision r : ℕ) :
      Reports ⟨.update key data revision, .ok r⟩ key data r

/-- The answer `x` reports that `key` was deleted at revision `r`. -/
inductive ReportsDelete : Answered kvSig → String → ℕ → Prop
  | delete (key : String) (r : ℕ) : ReportsDelete ⟨.delete key r, none⟩ key r

/-- What is reported as written is what was asked for. -/
theorem Reports.applies {x : Answered kvSig} {key k : String} {data : Data} {r : ℕ}
    {v : Option Data} {kv : Store String Data} (h : Reports x key data r)
    (happ : Applies kv x.op k v) : k = key ∧ v = some data := by
  cases h <;> cases happ <;> exact ⟨rfl, rfl⟩

theorem orRefuse_eq_ok {refusal : NatsErr} {x : Option (Store String Data)}
    {kv : Store String Data} (h : orRefuse refusal x = .ok kv) : x = some kv := by
  cases x with
  | none => cases h
  | some kv' =>
      cases h
      rfl

/-- A write request that can only do what `o` asks for. -/
theorem commit_cases {s : KvState} {attempt : Except Err (Store String Data)} {o : KvOp}
    (fault : Fault)
    (h : ∀ kv, attempt = .ok kv → ∃ key v, Applies s.kv o key v ∧ kv = s.kv.write key v) :
    ((commit s fault attempt).1 = s ∧ ∃ err, (commit s fault attempt).2 = .error err) ∨
      ∃ key v, Applies s.kv o key v ∧
        (commit s fault attempt).1 = { s with kv := s.kv.write key v } ∧
        ∀ r, (commit s fault attempt).2 = .ok r → r = s.kv.seq + 1 := by
  cases attempt with
  | error err => cases fault <;> simp [commit]
  | ok kv =>
      obtain ⟨key, v, happ, rfl⟩ := h kv rfl
      cases fault with
      | none => exact .inr ⟨key, v, happ, rfl, fun r hr => (Except.ok.inj hr).symm⟩
      | dropped o => exact .inl ⟨rfl, o.err, rfl⟩
      | lost o => exact .inr ⟨key, v, happ, rfl, fun r hr => by cases hr⟩

theorem put_applies (kv : Store String Data) (key : String) (data : Data) :
    ∀ kv', (.ok (kv.write key (some data)) : Except Err _) = .ok kv' →
      ∃ k v, Applies kv (.put key data) k v ∧ kv' = kv.write k v :=
  fun _ h => ⟨key, _, .put key data, (Except.ok.inj h).symm⟩

theorem create_applies (kv : Store String Data) (key : String) (data : Data) :
    ∀ kv', orRefuse .errKeyExists (kv.create key data) = .ok kv' →
      ∃ k v, Applies kv (.create key data) k v ∧ kv' = kv.write k v := by
  intro kv' h
  obtain ⟨hread, rfl⟩ := Store.create_eq_some (orRefuse_eq_ok h)
  exact ⟨key, _, .create data hread, rfl⟩

theorem update_applies (kv : Store String Data) (key : String) (data : Data) (revision : ℕ) :
    ∀ kv', orRefuse .errKeyRevisionMismatch (kv.writeAt key (some data) revision) = .ok kv' →
      ∃ k v, Applies kv (.update key data revision) k v ∧ kv' = kv.write k v := by
  intro kv' h
  obtain ⟨hrev, rfl⟩ := Store.writeAt_eq_some (orRefuse_eq_ok h)
  exact ⟨key, _, .update data hrev, rfl⟩

theorem delete_applies (kv : Store String Data) (key : String) (revision : ℕ) :
    ∀ kv', orRefuse .errKeyRevisionMismatch (kv.writeAt key none revision) = .ok kv' →
      ∃ k v, Applies kv (.delete key revision) k v ∧ kv' = kv.write k v := by
  intro kv' h
  obtain ⟨hrev, rfl⟩ := Store.writeAt_eq_some (orRefuse_eq_ok h)
  exact ⟨key, _, .delete hrev, rfl⟩

/-- What a `Get` returns is in the bucket. -/
theorem cells_of_answerGet {s : KvState} {fault : Fault} {key : String} {item : KvItem}
    (h : answerGet s fault key = .ok item) :
    s.kv.cells key = some ⟨some item.value, item.revision⟩ := by
  unfold answerGet at h
  split at h
  · cases h
  · cases h
  · split at h
    · rename_i hread
      cases h
      exact Store.cells_of_read hread
    · cases h

/-- What an operation did to the bucket, with what its answer says about it. -/
inductive Effect (s s' : KvState) (x : Answered kvSig) : Prop
  /-- The bucket is as it was, and the answer reports no write. -/
  | silent (kv : s'.kv = s.kv) (reports : ∀ key data r, ¬ Reports x key data r)
      (deletes : ∀ key r, ¬ ReportsDelete x key r)
  /-- The one write that the operation asks for; its reply may be lost. -/
  | wrote (key : String) (v : Option Data) (applies : Applies s.kv x.op key v)
      (kv : s'.kv = s.kv.write key v)
      (reports : ∀ key data r, Reports x key data r → r = s.kv.seq + 1)

/-- The effect of a write request, from what its answer `r` lets `x` report. -/
theorem effect_commit {s : KvState} {attempt : Except Err (Store String Data)} (fault : Fault)
    (x : Answered kvSig)
    (happ : ∀ kv, attempt = .ok kv → ∃ key v, Applies s.kv x.op key v ∧ kv = s.kv.write key v)
    (hrep : ∀ key data r, Reports x key data r → (commit s fault attempt).2 = .ok r)
    (hdel : ∀ key r, ReportsDelete x key r → ∃ n, (commit s fault attempt).2 = .ok n) :
    Effect s (commit s fault attempt).1 x := by
  rcases commit_cases fault happ with ⟨hs, err, he⟩ | ⟨key, v, ha, hs, hr⟩
  · refine .silent (congrArg KvState.kv hs) (fun _ _ _ h => ?_) (fun _ _ h => ?_)
    · cases he.symm.trans (hrep _ _ _ h)
    · obtain ⟨n, hn⟩ := hdel _ _ h
      cases he.symm.trans hn
  · exact .wrote key v ha (congrArg KvState.kv hs) fun _ _ r h => hr r (hrep _ _ _ h)

theorem Reports.ok_put {key k : String} {data d : Data} {r : Except Err ℕ} {n : ℕ}
    (h : Reports ⟨.put key data, r⟩ k d n) : r = .ok n := by
  cases h
  rfl

theorem Reports.ok_create {key k : String} {data d : Data} {r : Except Err ℕ} {n : ℕ}
    (h : Reports ⟨.create key data, r⟩ k d n) : r = .ok n := by
  cases h
  rfl

theorem Reports.ok_update {key k : String} {data d : Data} {revision : ℕ} {r : Except Err ℕ}
    {n : ℕ} (h : Reports ⟨.update key data revision, r⟩ k d n) : r = .ok n := by
  cases h
  rfl

theorem ReportsDelete.ok_delete {key k : String} {revision n : ℕ} {r : Except Err ℕ}
    (h : ReportsDelete ⟨.delete key revision, writeErr r⟩ k n) : ∃ m, r = .ok m := by
  cases r with
  | error err => cases h
  | ok m => exact ⟨m, rfl⟩

theorem exec_effect (ch : KvChoice) (s : KvState) (o : KvOp) :
    Effect s (exec ch s o).1 ⟨o, (exec ch s o).2⟩ := by
  cases o with
  | ctxErr | now | get =>
      exact .silent rfl (fun _ _ _ h => by cases h) (fun _ _ h => by cases h)
  | newToken =>
      refine .silent ?_ (fun _ _ _ h => by cases h) (fun _ _ h => by cases h)
      simp only [exec]
      split <;> rfl
  | put key data =>
      exact effect_commit ch.fault _ (put_applies s.kv key data) (fun _ _ _ h => h.ok_put)
        (fun _ _ h => by cases h)
  | create key data =>
      exact effect_commit ch.fault _ (create_applies s.kv key data) (fun _ _ _ h => h.ok_create)
        (fun _ _ h => by cases h)
  | update key data revision =>
      exact effect_commit ch.fault _ (update_applies s.kv key data revision)
        (fun _ _ _ h => h.ok_update) (fun _ _ h => by cases h)
  | delete key revision =>
      exact effect_commit ch.fault _ (delete_applies s.kv key revision)
        (fun _ _ _ h => by cases h) (fun _ _ h => h.ok_delete)

theorem exec_clock (ch : KvChoice) (s : KvState) (o : KvOp) : (exec ch s o).1.clock = s.clock := by
  have hcommit : ∀ attempt, (commit s ch.fault attempt).1.clock = s.clock := by
    intro attempt
    cases ch.fault <;> cases attempt <;> rfl
  cases o with
  | ctxErr | now | get => rfl
  | newToken =>
      simp only [exec]
      split <;> rfl
  | put | create | update | delete => exact hcommit _

/-- An operation only adds records to the bucket. -/
theorem Effect.grows {s s' : KvState} {x : Answered kvSig} (h : Effect s s' x) :
    s.kv.Grows s'.kv := by
  cases h with
  | silent kv => exact kv ▸ .refl _
  | wrote key v _ kv => exact kv ▸ Store.grows_write _ _ _

end TransportNats.Idempotency
