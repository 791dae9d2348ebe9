import TransportNats.Idempotency.Lease

/-!
Taking over an expired claim.

A holder that crashes leaves its claim record behind, and nothing removes it
from the bucket. A later `Claim` is to treat the record, once its lease has run
out, as if it were not there. It does so only if the record was written for the
same request hash: the hash is compared before the expiry, so that an expired
record of another request is a conflict for ever.
-/

namespace TransportNats.Idempotency

open Interleaving VersionedStore Program

/-- Nothing fails and nobody interferes; the random source yields `token`. -/
def calm (token : String) : KvChoice := { token := token }

/-- An uninterrupted call of `Claim`, and what it returns. -/
def claimAlone (K : Kernel) (token : String) (s : KvState) (key requestHash : String)
    (leaseTTL : ℤ) : Except Err IdempotencyClaim :=
  ((claim K key requestHash leaseTTL).alone (exec (calm token)) s).2

/-- The state with the claim record of `key` deleted. -/
def KvState.released (s : KvState) (key : String) : KvState :=
  { s with kv := s.kv.write (claimPrefix ++ key) none }

/-- A stored entry, unless it has expired by `now`. -/
def currentEntry (K : Kernel) (now : I64) (data : Data) : Except Err (Option IdempotencyEntry) :=
  match decodeEntryPayload K data with
  | .error err => .error err
  | .ok (.legacy entry) => .ok (some entry)
  | .ok (.wrapped entry expiresAt) =>
      if expiresAt.val = 0 then .ok (some entry)
      else if expiresAt.val ≤ now.val then .ok none
      else .ok (some entry)

/-- The entry that stands for `key`. -/
def standingEntry (K : Kernel) (s : KvState) (key : String) :
    Except Err (Option IdempotencyEntry) :=
  if key = "" then .error (.app .badRequest "idempotency key is required")
  else
    match s.kv.read (entryPrefix ++ key) with
    | none => .ok none
    | some (value, _) => currentEntry K s.clock value

section
variable {K : Kernel} {s : KvState} {key requestHash token : String} {leaseTTL : ℤ}

theorem alone_decodeKVEntry (data : Data) (ch : KvChoice) :
    (decodeKVEntry K data).alone (exec ch) s = (s, currentEntry K s.clock data) := by
  unfold decodeKVEntry timeNow currentEntry
  cases decodeEntryPayload K data with
  | error err => rfl
  | ok decoded =>
      cases decoded with
      | legacy entry => rfl
      | wrapped entry expiresAt =>
          dsimp only
          by_cases hzero : expiresAt.val = 0
          · simp only [if_pos hzero]
            rfl
          · simp only [if_neg hzero]
            rw [alone_perform_bind]
            change (if expiresAt.val ≤ s.clock.val then pure (.ok none)
              else pure (.ok (some entry)) : Kv (Except Err _)).alone (exec ch) s = _
            split_ifs <;> rfl

theorem alone_loadEntry (token : String) :
    (loadEntry K key).alone (exec (calm token)) s = (s, standingEntry K s key) := by
  unfold loadEntry ctxErr kvGet standingEntry
  rw [alone_perform_bind]
  simp only [exec, calm]
  split_ifs with hkey
  · rfl
  · rw [alone_perform_bind]
    simp only [exec, answerGet]
    cases hr : s.kv.read (entryPrefix ++ key) with
    | none => rfl
    | some item => exact alone_decodeKVEntry item.1 _

/-- Neither the claim record nor the tokens matter for the entry. -/
theorem standingEntry_released (s : KvState) (key : String) :
    standingEntry K (s.released key) key = standingEntry K s key := by
  have hne : entryPrefix ++ key ≠ claimPrefix ++ key :=
    fun h => claimPrefix_ne_entryPrefix key key h.symm
  simp only [standingEntry, KvState.released, Store.read_write_ne _ _ hne]

/-- The lease `Claim` asks for. -/
def effectiveTTL (K : Kernel) (leaseTTL : ℤ) : ℤ :=
  if leaseTTL ≤ 0 then K.defaultIdempotencyLeaseTTL else leaseTTL

/-- A `Claim` gets as far as the claim record: no entry decides it, and the lease
it asks for has an end. -/
def ReachesRecord (K : Kernel) (s : KvState) (key : String) (leaseTTL : ℤ) : Prop :=
  standingEntry K s key = .ok none ∧
    ∃ expiresAt, idempotencyExpiry s.clock (effectiveTTL K leaseTTL) = .ok expiresAt

/-- What `createClaim` returns for the record of an uninterrupted `Claim`. -/
def createAlone (s : KvState) (key requestHash token : String) (expiresAt : I64) :
    Except Err IdempotencyClaim :=
  ((createClaim (claimPrefix ++ key) requestHash token s.clock
    (marshalClaim ⟨token, requestHash, expiresAt⟩)).alone (exec (calm token))
      { s with issued := token :: s.issued }).2

/-- A `Claim` that draws a fresh token returns what the entry decides, or goes on
to create the claim record. -/
theorem claimAlone_eq (hfresh : token ≠ "" ∧ token ∉ s.issued) :
    claimAlone K token s key requestHash leaseTTL =
      match standingEntry K s key with
      | .error err => .error err
      | .ok (some entry) =>
          if entry.requestHash ≠ "" ∧ entry.requestHash ≠ requestHash then
            .ok { state := .conflict }
          else .ok { state := .completed, entry := entry }
      | .ok none =>
          match idempotencyExpiry s.clock (effectiveTTL K leaseTTL) with
          | .error err => .error err
          | .ok expiresAt => createAlone s key requestHash token expiresAt := by
  unfold claimAlone claim ctxErr timeNow newKVClaimToken
  rw [alone_perform_bind]
  simp only [exec, calm]
  by_cases hkey : key = ""
  · simp only [standingEntry, if_pos hkey]
    rfl
  · simp only [if_neg hkey]
    rw [alone_bind]
    have hload : (loadEntry K key).alone (exec (calm token)) s = (s, standingEntry K s key) :=
      alone_loadEntry token
    simp only [calm] at hload
    rw [hload]
    cases hentry : standingEntry K s key with
    | error err => rfl
    | ok found =>
        cases found with
        | some entry =>
            dsimp only
            split <;> rfl
        | none =>
            dsimp only
            rw [alone_perform_bind]
            simp only [exec, effectiveTTL]
            cases hexp : idempotencyExpiry s.clock
                (if leaseTTL ≤ 0 then K.defaultIdempotencyLeaseTTL else leaseTTL) with
            | error err => rfl
            | ok expiresAt =>
                dsimp only
                rw [alone_perform_bind]
                simp only [exec, if_pos hfresh]
                rfl

theorem read_of_claimRecord {p : KVClaimPayload} (h : s.claimRecord key = some p) :
    ∃ value r, s.kv.read (claimPrefix ++ key) = some (value, r) ∧ unmarshalClaim value = .ok p := by
  unfold KvState.claimRecord at h
  split at h
  · rename_i value r hread
    refine ⟨value, r, hread, ?_⟩
    cases hv : unmarshalClaim value with
    | error err => simp [hv, Except.toOption] at h
    | ok q =>
        simp only [hv, Except.toOption, Option.some.injEq] at h
        rw [h]
  · cases h

/-- A record that is not there is created. -/
theorem createAlone_of_absent (hread : s.kv.read (claimPrefix ++ key) = none)
    (expiresAt : I64) :
    createAlone s key requestHash token expiresAt = .ok { state := .acquired, token := token } := by
  unfold createAlone createClaim kvCreate
  rw [alone_perform_bind]
  simp only [exec, Store.create, hread, orRefuse, calm, commit]
  rfl

/-- An expired record is a conflict for another request hash, and else is
replaced. -/
theorem createAlone_of_expired {p : KVClaimPayload} (hrec : s.claimRecord key = some p)
    (hwf : p.corrupted = false) (hexp : p.expiresAt.val ≤ s.clock.val) (expiresAt : I64) :
    createAlone s key requestHash token expiresAt =
      if p.requestHash ≠ "" ∧ p.requestHash ≠ requestHash then .ok { state := .conflict }
      else .ok { state := .acquired, token := token } := by
  obtain ⟨value, r, hread, hv⟩ := read_of_claimRecord hrec
  have hrev : s.kv.revision (claimPrefix ++ key) = r :=
    Store.revision_of_cells (Store.cells_of_read hread)
  unfold createAlone createClaim kvCreate ctxErr kvGet
  rw [alone_perform_bind]
  simp only [exec, Store.create, hread, orRefuse, calm, commit]
  rw [alone_perform_bind]
  simp only [exec]
  rw [alone_perform_bind]
  simp only [exec, answerGet, hread]
  unfold resolveExistingClaim replaceExpiredClaim kvUpdate
  simp only [hv, hwf, Bool.false_eq_true, if_false, not_lt.mpr hexp]
  split_ifs with hhash
  · rfl
  · rw [alone_perform_bind]
    simp only [exec, Store.writeAt, if_pos hrev, orRefuse, commit]
    rfl

theorem read_released (s : KvState) (key : String) :
    (s.released key).kv.read (claimPrefix ++ key) = none := by
  simp [KvState.released]

end

/-- What a call of `Claim` returns, apart from the token it drew. -/
def outcome (r : Except Err IdempotencyClaim) : Except Err (ClaimState × IdempotencyEntry) :=
  r.map fun c => (c.state, c.entry)

/-- An uninterrupted `Claim` treats a well-formed record that has expired as if it
had been deleted, exactly if the record was written for the same request hash
or for none, or `Claim` does not get to the record. -/
theorem expired_as_released_iff (K : Kernel) (s : KvState) (key requestHash : String)
    (leaseTTL : ℤ) (token token' : String) (hfresh : token ≠ "" ∧ token ∉ s.issued)
    (hfresh' : token' ≠ "" ∧ token' ∉ s.issued) (p : KVClaimPayload)
    (hrec : s.claimRecord key = some p) (hwf : p.corrupted = false)
    (hexp : p.expiresAt.val ≤ s.clock.val) :
    outcome (claimAlone K token s key requestHash leaseTTL) =
        outcome (claimAlone K token' (s.released key) key requestHash leaseTTL) ↔
      p.requestHash = "" ∨ p.requestHash = requestHash ∨ ¬ ReachesRecord K s key leaseTTL := by
  have hclock : (s.released key).clock = s.clock := rfl
  rw [claimAlone_eq hfresh, claimAlone_eq (s := s.released key) hfresh', standingEntry_released,
    hclock]
  cases hentry : standingEntry K s key with
  | error err => simp [ReachesRecord, hentry]
  | ok found =>
      cases found with
      | some entry => simp [ReachesRecord, hentry]
      | none =>
          cases hexpiry : idempotencyExpiry s.clock (effectiveTTL K leaseTTL) with
          | error err => simp [ReachesRecord, hentry, hexpiry]
          | ok expiresAt =>
              have hreach : ReachesRecord K s key leaseTTL := ⟨hentry, expiresAt, hexpiry⟩
              simp only [createAlone_of_expired hrec hwf hexp,
                createAlone_of_absent (read_released s key), hreach, not_true_eq_false, or_false]
              by_cases hhash : p.requestHash ≠ "" ∧ p.requestHash ≠ requestHash
              · rw [if_pos hhash]
                simp [outcome, Except.map, hhash]
              · rw [if_neg hhash]
                exact ⟨fun _ => by tauto, fun _ => rfl⟩

/-! ### A crashed holder -/

/-- A bucket with the claim of a holder that has crashed: the lease has ended. -/
def crashed (requestHash : String) : KvState :=
  { KvState.fresh with
    kv := Store.empty.write (claimPrefix ++ "k") (some (marshalClaim ⟨"t0", requestHash, .one⟩))
    issued := ["t0"] }

theorem expired_as_released_same_hash :
    outcome (claimAlone .plain "t1" (crashed "h") "k" "h" 10) = .ok (.acquired, .zero) ∧
      outcome (claimAlone .plain "t1" (crashed "h") "k" "h" 10) =
        outcome (claimAlone .plain "t2" ((crashed "h").released "k") "k" "h" 10) :=
  ⟨rfl, (expired_as_released_iff .plain (crashed "h") "k" "h" 10 "t1" "t2" (by decide)
    (by decide) ⟨"t0", "h", .one⟩ rfl rfl (by decide)).mpr (.inr (.inl rfl))⟩

/-- A request with another hash is refused although the lease has ended, and is
granted the key once the record is deleted. -/
theorem expired_blocks_other_hash :
    (crashed "h").claimRecord "k" = some ⟨"t0", "h", .one⟩ ∧
      KVClaimPayload.corrupted ⟨"t0", "h", .one⟩ = false ∧
      I64.one.val ≤ (crashed "h").clock.val ∧
      outcome (claimAlone .plain "t1" (crashed "h") "k" "h'" 10) = .ok (.conflict, .zero) ∧
      outcome (claimAlone .plain "t1" ((crashed "h").released "k") "k" "h'" 10) =
        .ok (.acquired, .zero) :=
  ⟨rfl, rfl, by decide, rfl, rfl⟩

end TransportNats.Idempotency
