import TransportNats.Library.Reliance
import TransportNats.Idempotency.Entry

/-!
Coordinators do not corrupt their own ledger.

Every reader of a claim record refuses an empty token and an expiry that is not
positive, and every reader of an entry refuses a wrapper without an entry. None
of these can be met in a bucket that only coordinators write: a token is never
empty, a lease is positive and is added to a time that is not negative, and an
expiry of zero is only ever written into an entry. The reading and the writing
side are settled together: a call writes a good record because the records it
has read are good.
-/

namespace TransportNats.Idempotency

open Interleaving VersionedStore Program

/-! ### Reports of corruption -/

/-- The texts by which the coordinator says that a stored record is corrupted. -/
def corruptions : List String :=
  ["corrupted idempotency claim in KV", "corrupted idempotency entry in KV",
   "corrupted legacy idempotency entry in KV"]

/-- The error itself is one of the coordinator's reports of corruption. -/
def ReportsCorruption : Err → Prop
  | .app _ text | .appOf _ text _ => text ∈ corruptions
  | .sentinel _ | .api _ _ | .other _ _ | .wrap _ _ _ | .join _ _ => False

/-- An error that the Kernel's taxonomy has no part in: an error of the client
library, of a context or of `encoding/json`. -/
def Foreign (err : Err) : Prop := err.asAppError = none

theorem Foreign.not_reportsCorruption {err : Err} (h : Foreign err) : ¬ ReportsCorruption err := by
  cases err <;> simp [Foreign, Err.asAppError, ReportsCorruption] at h ⊢

theorem mapErrorCases_text : ∀ c ∈ mapErrorCases, c.2.2 ∉ corruptions := by decide

/-- One case of a mapping by status, in front of the others. -/
theorem not_reportsCorruption_ite {p : Prop} [Decidable p] {kind : Kind} {text : String}
    {err : Err} {others : Option Err} (htext : text ∉ corruptions)
    (hothers : ∀ mapped, others = some mapped → ¬ ReportsCorruption mapped) (mapped : Err)
    (h : (if p then some (.appOf kind text err) else others) = some mapped) :
    ¬ ReportsCorruption mapped := by
  split at h
  · cases h
    exact htext
  · exact hothers mapped h

theorem mapAPIStatus_not_reportsCorruption {err mapped : Err} {status : ℤ}
    (h : mapAPIStatus err status = some mapped) : ¬ ReportsCorruption mapped := by
  unfold mapAPIStatus at h
  refine not_reportsCorruption_ite (by decide) (not_reportsCorruption_ite (by decide)
    (not_reportsCorruption_ite (by decide) (not_reportsCorruption_ite (by decide)
    (not_reportsCorruption_ite (by decide) (not_reportsCorruption_ite (by decide)
    (not_reportsCorruption_ite (by decide) (not_reportsCorruption_ite (by decide) ?_))))))) mapped h
  intro mapped h
  cases h

theorem mapJetStreamAPIError_not_reportsCorruption {err mapped : Err}
    (h : mapJetStreamAPIError err = some mapped) : ¬ ReportsCorruption mapped := by
  unfold mapJetStreamAPIError at h
  split at h
  · exact mapAPIStatus_not_reportsCorruption h
  · split at h
    · exact mapAPIStatus_not_reportsCorruption h
    · cases h

/-- `MapError` gives a foreign error a text of its own. -/
theorem Foreign.mapError {err : Err} (h : Foreign err) :
    ¬ ReportsCorruption (TransportNats.mapError err) := by
  unfold TransportNats.mapError
  rw [show err.asAppError = none from h]
  dsimp only
  split
  · rename_i hc
    exact mapErrorCases_text _ (List.mem_of_find?_eq_some hc)
  · split
    · exact mapJetStreamAPIError_not_reportsCorruption ‹_›
    · simp [ReportsCorruption, corruptions]

/-- A result that is no report of corruption. -/
def Clean {α : Type} (r : Except Err α) : Prop := ∀ err, r = .error err → ¬ ReportsCorruption err

def CleanErr (r : Option Err) : Prop := ∀ err, r = some err → ¬ ReportsCorruption err

section
variable {α : Type} {err : Err}

@[simp] theorem clean_ok (a : α) : Clean (.ok a : Except Err α) := by simp [Clean]

@[simp] theorem clean_error : Clean (.error err : Except Err α) ↔ ¬ ReportsCorruption err := by
  simp [Clean]

@[simp] theorem cleanErr_none : CleanErr none := by simp [CleanErr]

@[simp] theorem cleanErr_some : CleanErr (some err) ↔ ¬ ReportsCorruption err := by
  simp [CleanErr]

theorem clean_app {kind : Kind} {text : String} (h : text ∉ corruptions) :
    Clean (.error (.app kind text) : Except Err α) := clean_error.mpr h

theorem cleanErr_app {kind : Kind} {text : String} (h : text ∉ corruptions) :
    CleanErr (some (.app kind text)) := cleanErr_some.mpr h

theorem clean_appOf {kind : Kind} {text : String} (h : text ∉ corruptions) :
    Clean (.error (.appOf kind text err) : Except Err α) := clean_error.mpr h

end

/-! ### Good records -/

/-- A claim record as every reader of claims expects it. -/
def ClaimRecord (data : Data) : Prop :=
  ∃ p, unmarshalClaim data = .ok p ∧ p.token ≠ "" ∧ 0 < p.expiresAt.val

/-- A wrapper with an entry in it. -/
def EntryRecord (K : Kernel) (data : Data) : Prop :=
  ∃ entry expiresAt, decodeEntryPayload K data = .ok (.wrapped entry expiresAt)

/-- The record is good for the key under which it stands. -/
structure GoodAt (K : Kernel) (k : String) (data : Data) : Prop where
  claim : ∀ key, k = claimPrefix ++ key → ClaimRecord data
  entry : ∀ key, k = entryPrefix ++ key → EntryRecord K data

def WellFormed (K : Kernel) (kv : Store String Data) : Prop :=
  ∀ k data r, kv.read k = some (data, r) → GoodAt K k data

section
variable {K : Kernel} {key : String} {data : Data} {kv : Store String Data}

theorem ClaimRecord.goodAt (h : ClaimRecord data) : GoodAt K (claimPrefix ++ key) data :=
  ⟨fun _ _ => h, fun key' hk => absurd hk (claimPrefix_ne_entryPrefix key key')⟩

theorem EntryRecord.goodAt (h : EntryRecord K data) : GoodAt K (entryPrefix ++ key) data :=
  ⟨fun key' hk => absurd hk.symm (claimPrefix_ne_entryPrefix key' key), fun _ _ => h⟩

theorem wellFormed_empty : WellFormed K .empty := by
  intro k data r h
  cases h

theorem WellFormed.write (hkv : WellFormed K kv) {k : String} {v : Option Data}
    (hv : ∀ data, v = some data → GoodAt K k data) : WellFormed K (kv.write k v) := by
  intro k' data r h
  by_cases hk : k' = k
  · subst hk
    rw [Store.read_write_self] at h
    obtain ⟨data', rfl, heq⟩ := Option.map_eq_some_iff.mp h
    cases heq
    exact hv data rfl
  · rw [Store.read_write_ne _ _ hk] at h
    exact hkv k' data r h

/-- The expiry of a lease, which is never the zero of an entry without an end. -/
theorem idempotencyExpiry_pos {now expiresAt : I64} {ttl : ℤ} (hnow : 0 ≤ now.val)
    (httl : 0 < ttl) (h : idempotencyExpiry now ttl = .ok expiresAt) : 0 < expiresAt.val := by
  by_cases hmax : maxInt64 < now.val + ttl
  · obtain ⟨err, herr⟩ := idempotencyExpiry_of_overflow httl hmax
    cases h.symm.trans herr
  · have hfits : ¬ (0 < ttl ∧ maxInt64 < now.val + ttl) := fun h => hmax h.2
    obtain ⟨_, hok, hval⟩ := idempotencyExpiry_of_fits hnow hfits
    cases h.symm.trans hok
    rw [hval, if_neg (by omega)]
    omega

theorem idempotencyExpiry_clean (now : I64) (ttl : ℤ) : Clean (idempotencyExpiry now ttl) := by
  unfold idempotencyExpiry
  split_ifs
  · exact clean_ok _
  · exact clean_app (by decide)
  · exact clean_ok _

theorem lease_pos (hlease : 0 < K.defaultIdempotencyLeaseTTL) (leaseTTL : ℤ) :
    0 < if leaseTTL ≤ 0 then K.defaultIdempotencyLeaseTTL else leaseTTL := by
  split <;> omega

end

/-! ### What the answers and the operations look like -/

/-- A failed request fails with a foreign error. -/
def FailsForeign {α : Type} (r : Except Err α) : Prop := ∀ err, r = .error err → Foreign err

def ForeignErr (r : Option Err) : Prop := ∀ err, r = some err → Foreign err

theorem ForeignErr.clean {α : Type} {err : Err} (h : ForeignErr (some err)) :
    Clean (.error err : Except Err α) := clean_error.mpr (h err rfl).not_reportsCorruption

theorem ForeignErr.cleanErr {err : Err} (h : ForeignErr (some err)) : CleanErr (some err) :=
  cleanErr_some.mpr (h err rfl).not_reportsCorruption

/-- An answer that a well-formed bucket can give after the epoch. -/
def Plausible (K : Kernel) : Answered kvSig → Prop
  | ⟨.ctxErr, r⟩ => ForeignErr r
  | ⟨.now, now⟩ => 0 ≤ now.val
  | ⟨.newToken, r⟩ => ∀ token, r = .ok token → token ≠ ""
  | ⟨.get k, r⟩ => FailsForeign r ∧ ∀ item, r = .ok item → GoodAt K k item.value
  | ⟨.put _ _, r⟩ => FailsForeign r
  | ⟨.create _ _, r⟩ => FailsForeign r
  | ⟨.update _ _ _, r⟩ => FailsForeign r
  | ⟨.delete _ _, r⟩ => ForeignErr r

/-- An operation that keeps the bucket well formed and touches only the records
of `key`. -/
def Upkeep (K : Kernel) (key : String) : KvOp → Prop
  | .put k data => k = entryPrefix ++ key ∧ EntryRecord K data
  | .create k data => k = claimPrefix ++ key ∧ ClaimRecord data
  | .update k data _ => k = claimPrefix ++ key ∧ ClaimRecord data
  | .delete k _ => k = claimPrefix ++ key
  | .ctxErr | .now | .newToken | .get _ => True

theorem Upkeep.applies {K : Kernel} {key k : String} {o : KvOp} {v : Option Data}
    {kv : Store String Data} (ho : Upkeep K key o) (happ : Applies kv o k v) :
    (k = claimPrefix ++ key ∨ k = entryPrefix ++ key) ∧
      ∀ data, v = some data → GoodAt K k data := by
  cases happ with
  | put k data =>
      obtain ⟨rfl, hdata⟩ := ho
      exact ⟨.inr rfl, by rintro _ ⟨⟩; exact hdata.goodAt⟩
  | create data | update data =>
      obtain ⟨rfl, hdata⟩ := ho
      exact ⟨.inl rfl, by rintro _ ⟨⟩; exact hdata.goodAt⟩
  | delete => exact ⟨.inl ho, by simp⟩

/-- `p` keeps up the bucket while its answers are plausible, and returns what `Q`
allows. -/
def Upholds (K : Kernel) (key : String) {α : Type} (Q : α → Prop) (p : Kv α) : Prop :=
  p.Relies (Plausible K) (Upkeep K key) Q

theorem upholds_perform_bind {K : Kernel} {key : String} {α : Type} {Q : α → Prop} (o : KvOp)
    (f : o.Ret → Kv α) :
    Upholds K key Q (perform (S := kvSig) o >>= f) ↔
      Upkeep K key o ∧ ∀ r, Plausible K ⟨o, r⟩ → Upholds K key Q (f r) := Iff.rfl

theorem Upholds.bind {K : Kernel} {key : String} {α β : Type} {R : α → Prop} {Q : β → Prop}
    {p : Kv α} {f : α → Kv β} (hp : Upholds K key R p) (hf : ∀ a, R a → Upholds K key Q (f a)) :
    Upholds K key Q (p >>= f) := Relies.bind hp hf

/-! ### The methods -/

section
variable {K : Kernel} {key requestHash token : String} {data : Data} {now : I64} {err : Err}

theorem upholds_mapKVFailure (herr : Foreign err) :
    Upholds K key (fun err => ¬ ReportsCorruption err) (mapKVFailure err) := by
  unfold mapKVFailure ctxErr
  rw [upholds_perform_bind]
  refine ⟨trivial, fun r hr => ?_⟩
  cases r with
  | some err' => exact (hr err' rfl).not_reportsCorruption
  | none => exact herr.mapError

/-- The mapped error as the result of a method. -/
theorem upholds_failure {α : Type} (herr : Foreign err) :
    Upholds K key Clean (do return (.error (← mapKVFailure err) : Except Err α)) :=
  (upholds_mapKVFailure herr).bind fun _ h => clean_error.mpr h

theorem upholds_failureErr (herr : Foreign err) :
    Upholds K key CleanErr (do return some (← mapKVFailure err)) :=
  (upholds_mapKVFailure herr).bind fun _ h => cleanErr_some.mpr h

theorem upholds_decodeKVEntry (hdata : EntryRecord K data) :
    Upholds K key Clean (decodeKVEntry K data) := by
  obtain ⟨entry, expiresAt, hdecode⟩ := hdata
  unfold decodeKVEntry timeNow
  rw [hdecode]
  dsimp only
  split
  · exact clean_ok _
  · rw [upholds_perform_bind]
    refine ⟨trivial, fun now _ => ?_⟩
    split <;> exact clean_ok _

theorem upholds_loadEntry : Upholds K key Clean (loadEntry K key) := by
  unfold loadEntry ctxErr kvGet
  rw [upholds_perform_bind]
  refine ⟨trivial, fun r hr => ?_⟩
  cases r with
  | some err => exact ForeignErr.clean hr
  | none =>
      dsimp only
      split
      · exact clean_app (by decide)
      · rw [upholds_perform_bind]
        refine ⟨trivial, fun r hr => ?_⟩
        cases r with
        | error err =>
            dsimp only
            split
            · exact clean_ok _
            · exact upholds_failure (hr.1 err rfl)
        | ok item =>
            dsimp only
            rw [upholds_perform_bind]
            refine ⟨trivial, fun r hctx => ?_⟩
            cases r with
            | some err => exact ForeignErr.clean hctx
            | none => exact upholds_decodeKVEntry ((hr.2 item rfl).entry key rfl)

theorem upholds_retryCreateClaim (hdata : ClaimRecord data) :
    Upholds K key Clean (retryCreateClaim (claimPrefix ++ key) token data) := by
  unfold retryCreateClaim kvCreate
  rw [upholds_perform_bind]
  refine ⟨⟨rfl, hdata⟩, fun r hr => ?_⟩
  cases r with
  | ok r => exact clean_ok _
  | error err =>
      dsimp only
      split
      · exact clean_ok _
      · exact upholds_failure (hr err rfl)

theorem upholds_replaceExpiredClaim (hdata : ClaimRecord data) (revision : ℕ) :
    Upholds K key Clean (replaceExpiredClaim (claimPrefix ++ key) token data revision) := by
  unfold replaceExpiredClaim kvUpdate ctxErr
  rw [upholds_perform_bind]
  refine ⟨⟨rfl, hdata⟩, fun r hr => ?_⟩
  cases r with
  | ok r => exact clean_ok _
  | error err =>
      dsimp only
      split
      · exact clean_ok _
      · split
        · rw [upholds_perform_bind]
          refine ⟨trivial, fun r hctx => ?_⟩
          cases r with
          | some err => exact ForeignErr.clean hctx
          | none => exact upholds_retryCreateClaim hdata
        · exact upholds_failure (hr err rfl)

theorem not_corrupted {p : KVClaimPayload} (htoken : p.token ≠ "") (hexp : 0 < p.expiresAt.val) :
    p.corrupted = false := by
  simp [KVClaimPayload.corrupted, htoken, hexp]

theorem upholds_resolveExistingClaim (hdata : ClaimRecord data) {existing : KvItem}
    (hexisting : ClaimRecord existing.value) :
    Upholds K key Clean
      (resolveExistingClaim (claimPrefix ++ key) requestHash token now data existing) := by
  obtain ⟨p, hp, htoken, hexp⟩ := hexisting
  unfold resolveExistingClaim
  rw [hp]
  dsimp only
  rw [not_corrupted htoken hexp, if_neg Bool.false_ne_true]
  split
  · exact clean_ok _
  · split
    · exact clean_ok _
    · exact upholds_replaceExpiredClaim hdata _

theorem upholds_createClaim (hdata : ClaimRecord data) :
    Upholds K key Clean (createClaim (claimPrefix ++ key) requestHash token now data) := by
  unfold createClaim kvCreate kvGet ctxErr
  rw [upholds_perform_bind]
  refine ⟨⟨rfl, hdata⟩, fun r hcreate => ?_⟩
  cases r with
  | ok r => exact clean_ok _
  | error createErr =>
      dsimp only
      rw [upholds_perform_bind]
      refine ⟨trivial, fun r hctx => ?_⟩
      cases r with
      | some err => exact ForeignErr.clean hctx
      | none =>
          dsimp only
          rw [upholds_perform_bind]
          refine ⟨trivial, fun r hget => ?_⟩
          cases r with
          | error getErr =>
              dsimp only
              split
              · split
                · exact upholds_retryCreateClaim hdata
                · exact upholds_failure (hcreate createErr rfl)
              · exact upholds_failure (hget.1 getErr rfl)
          | ok existing =>
              exact upholds_resolveExistingClaim hdata ((hget.2 existing rfl).claim key rfl)

theorem upholds_claim (hlease : 0 < K.defaultIdempotencyLeaseTTL) (leaseTTL : ℤ) :
    Upholds K key Clean (claim K key requestHash leaseTTL) := by
  unfold claim ctxErr timeNow newKVClaimToken
  rw [upholds_perform_bind]
  refine ⟨trivial, fun r hctx => ?_⟩
  cases r with
  | some err => exact ForeignErr.clean hctx
  | none =>
      dsimp only
      split
      · exact clean_app (by decide)
      · refine upholds_loadEntry.bind ?_
        rintro (err | (_ | entry)) hload
        · exact clean_error.mpr (hload err rfl)
        · dsimp only
          rw [upholds_perform_bind]
          refine ⟨trivial, fun now hnow => ?_⟩
          split
          · rename_i err hexp
            exact clean_error.mpr (idempotencyExpiry_clean _ _ err hexp)
          · rename_i expiresAt hexp
            rw [upholds_perform_bind]
            refine ⟨trivial, fun r htoken => ?_⟩
            cases r with
            | error err => exact clean_appOf (by decide)
            | ok token =>
                dsimp only
                rw [upholds_perform_bind]
                refine ⟨trivial, fun r hctx => ?_⟩
                cases r with
                | some err => exact ForeignErr.clean hctx
                | none =>
                    exact upholds_createClaim ⟨_, unmarshalClaim_marshalClaim _, htoken token rfl,
                      idempotencyExpiry_pos hnow (lease_pos hlease leaseTTL) hexp⟩
        · dsimp only
          split <;> exact clean_ok _

theorem upholds_extendClaim {leaseTTL : ℤ} (hlease : 0 < leaseTTL) :
    Upholds K key Clean (extendClaim key token leaseTTL) := by
  unfold extendClaim kvGet timeNow ctxErr kvUpdate
  rw [upholds_perform_bind]
  refine ⟨trivial, fun r hget => ?_⟩
  cases r with
  | error err => exact upholds_failure (hget.1 err rfl)
  | ok item =>
      obtain ⟨p, hp, htoken, hexp⟩ := (hget.2 item rfl).claim key rfl
      dsimp only
      rw [hp]
      dsimp only
      rw [not_corrupted htoken hexp, if_neg Bool.false_ne_true]
      split
      · exact clean_app (by decide)
      · rw [upholds_perform_bind]
        refine ⟨trivial, fun now hnow => ?_⟩
        split
        · exact clean_app (by decide)
        · split
          · rename_i err hexpiry
            exact clean_error.mpr (idempotencyExpiry_clean _ _ err hexpiry)
          · rename_i expiresAt hexpiry
            rw [upholds_perform_bind]
            refine ⟨trivial, fun r hctx => ?_⟩
            cases r with
            | some err => exact ForeignErr.clean hctx
            | none =>
                dsimp only
                rw [upholds_perform_bind]
                -- the record that is written back keeps the token that was read
                refine ⟨⟨rfl, _, unmarshalClaim_marshalClaim _, htoken,
                  idempotencyExpiry_pos hnow hlease hexpiry⟩, fun r hupdate => ?_⟩
                cases r with
                | error err => exact upholds_failure (hupdate err rfl)
                | ok revision => exact clean_ok _

theorem upholds_marshalKVEntry
    (hjson : ∀ entry err, K.marshalEntry entry = .error err → Foreign err)
    (entry : IdempotencyEntry) (ttl : ℤ) :
    Upholds K key (fun r => Clean r ∧ ∀ data, r = .ok data → EntryRecord K data)
      (marshalKVEntry K entry ttl) := by
  unfold marshalKVEntry timeNow
  rw [upholds_perform_bind]
  refine ⟨trivial, fun now _ => ?_⟩
  split
  · rename_i err hexp
    exact ⟨clean_error.mpr (idempotencyExpiry_clean _ _ err hexp), by simp⟩
  · rename_i expiresAt hexp
    split
    · rename_i err herr
      exact ⟨clean_error.mpr (hjson entry err herr).not_reportsCorruption, by simp⟩
    · rename_i j hj
      refine ⟨clean_ok _, ?_⟩
      rintro _ ⟨⟩
      exact ⟨entry, expiresAt, decodeEntryPayload_marshal expiresAt hj⟩

theorem upholds_complete (hlease : 0 < K.defaultIdempotencyLeaseTTL)
    (hjson : ∀ entry err, K.marshalEntry entry = .error err → Foreign err)
    (entry : IdempotencyEntry) (ttl : ℤ) :
    Upholds K key CleanErr (complete K key token entry ttl) := by
  unfold complete ctxErr kvPut kvDelete extendClaimForCompletion
  rw [upholds_perform_bind]
  refine ⟨trivial, fun r hctx => ?_⟩
  cases r with
  | some err => exact ForeignErr.cleanErr hctx
  | none =>
      dsimp only
      split
      · exact cleanErr_app (by decide)
      · refine (upholds_marshalKVEntry hjson entry ttl).bind ?_
        rintro (err | entryData) ⟨hclean, hentry⟩
        · exact cleanErr_some.mpr (hclean err rfl)
        · refine (upholds_extendClaim hlease).bind ?_
          rintro (err | claimRevision) hextend
          · exact cleanErr_some.mpr (hextend err rfl)
          · dsimp only
            rw [upholds_perform_bind]
            refine ⟨trivial, fun r hctx => ?_⟩
            cases r with
            | some err => exact ForeignErr.cleanErr hctx
            | none =>
                dsimp only
                rw [upholds_perform_bind]
                refine ⟨⟨rfl, hentry entryData rfl⟩, fun r hput => ?_⟩
                cases r with
                | error err => exact upholds_failureErr (hput err rfl)
                | ok revision =>
                    dsimp only
                    rw [upholds_perform_bind]
                    refine ⟨trivial, fun r hctx => ?_⟩
                    cases r with
                    | some err => exact ForeignErr.cleanErr hctx
                    | none =>
                        dsimp only
                        rw [upholds_perform_bind]
                        refine ⟨rfl, fun r hdelete => ?_⟩
                        cases r with
                        | some err => exact upholds_failureErr (hdelete err rfl)
                        | none => exact cleanErr_none

theorem upholds_mapIdempotencyKVError {err : Option Err} (herr : ForeignErr err) :
    Upholds K key CleanErr (mapIdempotencyKVError err) := by
  unfold mapIdempotencyKVError ctxErr
  rw [upholds_perform_bind]
  refine ⟨trivial, fun r hctx => ?_⟩
  cases r with
  | some err' => exact ForeignErr.cleanErr hctx
  | none =>
      cases err with
      | none => exact cleanErr_none
      | some err => exact cleanErr_some.mpr (herr err rfl).mapError

theorem upholds_release : Upholds K key CleanErr (release key token) := by
  unfold release ctxErr kvGet kvDelete
  rw [upholds_perform_bind]
  refine ⟨trivial, fun r hctx => ?_⟩
  cases r with
  | some err => exact ForeignErr.cleanErr hctx
  | none =>
      dsimp only
      split
      · exact cleanErr_app (by decide)
      · rw [upholds_perform_bind]
        refine ⟨trivial, fun r hget => ?_⟩
        cases r with
        | error err =>
            dsimp only
            split
            · exact cleanErr_none
            · exact upholds_failureErr (hget.1 err rfl)
        | ok item =>
            obtain ⟨p, hp, -⟩ := (hget.2 item rfl).claim key rfl
            dsimp only
            rw [hp]
            dsimp only
            split
            · rw [upholds_perform_bind]
              refine ⟨rfl, fun r hdelete => ?_⟩
              cases r with
              | some err =>
                  dsimp only
                  split
                  · exact cleanErr_none
                  · exact upholds_mapIdempotencyKVError hdelete
              | none => exact upholds_mapIdempotencyKVError (by simp [ForeignErr])
            · exact cleanErr_none

theorem upholds_renewClaim (hlease : 0 < K.defaultIdempotencyLeaseTTL) (leaseTTL : ℤ) :
    Upholds K key CleanErr (renewClaim K key token leaseTTL) := by
  unfold renewClaim ctxErr
  rw [upholds_perform_bind]
  refine ⟨trivial, fun r hctx => ?_⟩
  cases r with
  | some err => exact ForeignErr.cleanErr hctx
  | none =>
      dsimp only
      split
      · exact cleanErr_app (by decide)
      · refine (upholds_extendClaim (lease_pos hlease leaseTTL)).bind ?_
        rintro (err | revision) hextend
        · exact cleanErr_some.mpr (hextend err rfl)
        · exact cleanErr_none

theorem upholds_set (hjson : ∀ entry err, K.marshalEntry entry = .error err → Foreign err)
    (entry : IdempotencyEntry) (ttl : ℤ) : Upholds K key (fun _ => True) (set K key entry ttl) := by
  unfold set ctxErr kvPut
  split
  · trivial
  · refine (upholds_marshalKVEntry hjson entry ttl).bind ?_
    rintro (err | entryData) ⟨-, hentry⟩
    · trivial
    · dsimp only
      rw [upholds_perform_bind]
      refine ⟨trivial, fun r _ => ?_⟩
      cases r with
      | some err => trivial
      | none =>
          dsimp only
          rw [upholds_perform_bind]
          exact ⟨⟨rfl, hentry entryData rfl⟩, fun _ _ => trivial⟩

end

/-! ### The bucket -/

/-- The error of the connection, if the request is one that fails on the way. -/
def Fault.err? : Fault → Option Err
  | .none => Option.none
  | .dropped o | .lost o => some o.err

/-- The client library and the context fail with errors of their own. -/
def KvChoice.Honest (ch : KvChoice) : Prop := ForeignErr ch.ctx ∧ ForeignErr ch.fault.err?

section
variable {K : Kernel} {s : KvState} {ch : KvChoice}

theorem orRefuse_failsForeign (refusal : NatsErr) (kv : Option (Store String Data)) :
    FailsForeign (orRefuse refusal kv) := by
  intro err h
  cases kv with
  | some kv => cases h
  | none =>
      cases h
      rfl

theorem commit_failsForeign {fault : Fault} {attempt : Except Err (Store String Data)}
    (hfault : ForeignErr fault.err?) (hattempt : FailsForeign attempt) :
    FailsForeign (commit s fault attempt).2 := by
  intro err h
  cases fault with
  | dropped o =>
      cases h
      exact hfault _ rfl
  | lost o =>
      cases attempt <;> cases h <;> exact hfault _ rfl
  | none =>
      cases attempt with
      | error err' =>
          cases h
          exact hattempt err rfl
      | ok kv => cases h

theorem answerGet_failsForeign {fault : Fault} (hfault : ForeignErr fault.err?) (k : String) :
    FailsForeign (answerGet s fault k) := by
  intro err h
  cases fault with
  | dropped o | lost o =>
      cases h
      exact hfault _ rfl
  | none =>
      simp only [answerGet] at h
      split at h
      · cases h
      · cases h
        rfl

theorem writeErr_foreign {r : Except Err ℕ} (h : FailsForeign r) : ForeignErr (writeErr r) := by
  intro err herr
  cases r with
  | ok n => cases herr
  | error err' =>
      cases herr
      exact h err rfl

theorem exec_plausible (hch : ch.Honest) (hclock : 0 ≤ s.clock.val) (hkv : WellFormed K s.kv)
    (o : KvOp) : Plausible K ⟨o, (exec ch s o).2⟩ := by
  cases o with
  | ctxErr => exact hch.1
  | now => exact hclock
  | newToken =>
      intro token h
      simp only [exec] at h
      split at h
      · rename_i htoken
        cases h
        exact htoken.1
      · cases h
  | get k =>
      refine ⟨answerGet_failsForeign hch.2 k, fun item hitem => ?_⟩
      exact hkv k _ _ (Store.read_of_cells (cells_of_answerGet hitem))
  | put k data => exact commit_failsForeign hch.2 (by simp [FailsForeign])
  | create k data => exact commit_failsForeign hch.2 (orRefuse_failsForeign _ _)
  | update k data r => exact commit_failsForeign hch.2 (orRefuse_failsForeign _ _)
  | delete k r =>
      exact writeErr_foreign (commit_failsForeign hch.2 (orRefuse_failsForeign _ _))

/-- What an operation that keeps up the bucket does to it: only records of `key`
change, and the bucket stays well formed. -/
theorem exec_upkeep {key : String} {o : KvOp} (ho : Upkeep K key o) (ch : KvChoice) :
    (WellFormed K s.kv → WellFormed K (exec ch s o).1.kv) ∧
      ∀ k, k ≠ claimPrefix ++ key → k ≠ entryPrefix ++ key →
        (exec ch s o).1.kv.cells k = s.kv.cells k := by
  cases exec_effect ch s o with
  | silent hsame =>
      rw [hsame]
      exact ⟨id, fun _ _ _ => rfl⟩
  | wrote k v happ hwrite =>
      obtain ⟨hk, hgood⟩ := ho.applies happ
      rw [hwrite]
      refine ⟨fun hkv => hkv.write hgood, fun k' hclaim hentry => Store.cells_write_ne _ _ ?_⟩
      rintro rfl
      exact hk.elim hclaim hentry

end

/-! ### The ledger -/

/-- The calls that write to the ledger. -/
inductive LedgerCall
  | kv (c : KvCall)
  | set (key : String) (entry : IdempotencyEntry) (ttl : ℤ)

def KvCall.subject : KvCall → String
  | .claim key _ _ | .complete key _ _ _ | .release key _ | .renewClaim key _ _ => key

def LedgerCall.key : LedgerCall → String
  | .kv c => c.subject
  | .set key _ _ => key

def LedgerCall.program (K : Kernel) : LedgerCall → Kv KvResult
  | .kv c => c.program K
  | .set key entry ttl => do
      Idempotency.set K key entry ttl
      return .done none

/-- Any number of coordinators of one bucket, which may also store entries with
`Set`. -/
@[reducible] def ledger (K : Kernel) : System where
  sig := kvSig
  State := KvState
  Call := LedgerCall
  Result := KvResult
  Choice := KvChoice
  Env := ℕ
  program := LedgerCall.program K
  exec := exec
  enter _ s := some s
  env d s := { s with clock := s.clock.advance d }

/-- The error that a call returned, if it did. -/
def KvResult.err? : KvResult → Option Err
  | .claim (.error err) => some err
  | .claim (.ok _) => none
  | .done err => err

theorem upholds_program {K : Kernel} (hlease : 0 < K.defaultIdempotencyLeaseTTL)
    (hjson : ∀ entry err, K.marshalEntry entry = .error err → Foreign err) (c : LedgerCall) :
    Upholds K c.key (fun r => CleanErr r.err?) (c.program K) := by
  cases c with
  | set key entry ttl => exact (upholds_set hjson entry ttl).bind fun _ _ => cleanErr_none
  | kv c =>
      cases c with
      | claim key requestHash leaseTTL =>
          refine (upholds_claim hlease leaseTTL).bind ?_
          rintro (err | claim) hclean
          · exact cleanErr_some.mpr (hclean err rfl)
          · exact cleanErr_none
      | complete key token entry ttl =>
          exact (upholds_complete hlease hjson entry ttl).bind fun _ h => h
      | release key token => exact upholds_release.bind fun _ h => h
      | renewClaim key token leaseTTL =>
          exact (upholds_renewClaim hlease leaseTTL).bind fun _ h => h

/-- The coordinators rely on a well-formed bucket and keep it up. -/
def upkeep (K : Kernel) (hlease : 0 < K.defaultIdempotencyLeaseTTL)
    (hjson : ∀ entry err, K.marshalEntry entry = .error err → Foreign err) :
    Reliance (ledger K) where
  inv s := 0 ≤ s.clock.val ∧ WellFormed K s.kv
  honest := KvChoice.Honest
  answer := Plausible K
  guard c := Upkeep K c.key
  post _ r := CleanErr r.err?
  program := upholds_program hlease hjson
  exec {ch s c o} hch hs ho :=
    ⟨⟨by rw [exec_clock]; exact hs.1, (exec_upkeep ho ch).1 hs.2⟩,
      exec_plausible hch hs.1 hs.2 o⟩
  enter {c s s'} hs h := by
    cases h
    exact hs
  env {d s} hs := ⟨hs.1.trans (s.clock.le_advance d), hs.2⟩

/-- The records of a key: its claim and its entry. -/
def KvState.records (s : KvState) (key : String) : Option (Cell Data) × Option (Cell Data) :=
  (s.kv.cells (claimPrefix ++ key), s.kv.cells (entryPrefix ++ key))

/-- The records of a key change only by a step of a call with that key. -/
def TouchesOwnKey {K : Kernel} (w : World (ledger K)) (a : Act (ledger K)) : Prop :=
  ∀ key, (∀ c, w.caller? a = some c → c.key ≠ key) →
    (w.act a).state.records key = w.state.records key

section
variable {K : Kernel} {hlease : 0 < K.defaultIdempotencyLeaseTTL}
  {hjson : ∀ entry err, K.marshalEntry entry = .error err → Foreign err}

theorem touchesOwnKey {w : World (ledger K)} (hw : (upkeep K hlease hjson).Ok w)
    (a : Act (ledger K)) : TouchesOwnKey w a := by
  intro key hkey
  have hm := World.moves_act w a
  generalize w.act a = w' at hm
  cases hm with
  | idle => rfl
  | enter h =>
      cases h
      rfl
  | env d => rfl
  | @perform t ch c h o k ht =>
      have hne : LedgerCall.key c ≠ key := hkey c (World.caller?_step ch ht)
      have hframe := (exec_upkeep (s := w.state) (hw.guard ht) ch).2
      refine Prod.ext (hframe _ ?_ ?_) (hframe _ ?_ ?_)
      · exact fun h => hne (claimPrefix_inj h).symm
      · exact claimPrefix_ne_entryPrefix _ _
      · exact fun h => claimPrefix_ne_entryPrefix _ _ h.symm
      · exact fun h => hne (entryPrefix_inj h).symm

end

/-- Every choice of the schedule is honest. -/
def HonestRun {K : Kernel} (acts : List (Act (ledger K))) : Prop :=
  ∀ t ch, .step t ch ∈ acts → KvChoice.Honest ch

/-- Coordinators that share a bucket, which was empty at the start, never meet a
corrupted record in it, and none of them touches the records of another's key.
Here the clock starts at or after the epoch, the Kernel's lease is positive, and
the client library, the context and `encoding/json` fail with errors of their
own. -/
theorem ledger_never_corrupted (K : Kernel) (hlease : 0 < K.defaultIdempotencyLeaseTTL)
    (hjson : ∀ entry err, K.marshalEntry entry = .error err → Foreign err) (s : KvState)
    (hempty : s.kv = .empty) (hepoch : 0 ≤ s.clock.val) (acts : List (Act (ledger K)))
    (hacts : HonestRun acts) :
    WellFormed K ((World.init (M := ledger K) s).run acts).state.kv ∧
      (∀ (t : ℕ) (th : Thread (ledger K)) (r : KvResult),
        ((World.init (M := ledger K) s).run acts).threads[t]? = some th →
          th.rest.result? = some r → ∀ err, r.err? = some err → ¬ ReportsCorruption err) ∧
      World.Always TouchesOwnKey (World.init (M := ledger K) s) acts := by
  have hinit : (upkeep K hlease hjson).Ok (World.init s) :=
    (upkeep K hlease hjson).ok_init ⟨hepoch, hempty ▸ wellFormed_empty⟩
  have hhonest := (upkeep K hlease hjson).always_honestAct hacts (World.init s)
  have hok := (upkeep K hlease hjson).ok_run hinit hhonest
  refine ⟨hok.inv.2, fun t th r ht hr => hok.post ht hr, ?_⟩
  exact hhonest.imp (upkeep K hlease hjson).ok_moves (fun _ hw => touchesOwnKey hw _) hinit

/-- A key that looks like the store key of an entry is claimed and completed,
and an entry without an end is stored for the key that it looks like. -/
def claimCompleteSet : List (Act (ledger Kernel.plain)) :=
  [.spawn (.kv (.claim "entry.k" "h" 10)), .spawn (.kv (.complete "entry.k" "t" .zero 10)),
    .spawn (.set "k" .zero 0)] ++ List.replicate 7 (.step 0 { token := "t" }) ++
    List.replicate 10 (.step 1 {}) ++ List.replicate 3 (.step 2 {})

theorem honest_calm (token : String) : KvChoice.Honest { token := token } :=
  ⟨by simp [ForeignErr], by simp [ForeignErr, Fault.err?]⟩

theorem honestRun_claimCompleteSet : HonestRun claimCompleteSet := by
  intro t ch h
  simp only [claimCompleteSet, List.mem_append, List.mem_cons, List.mem_replicate] at h
  obtain ⟨(h | h) | h⟩ | h := h
  · simp at h
  · cases h.2
    exact honest_calm _
  · cases h.2
    exact honest_calm _
  · cases h.2
    exact honest_calm _

/-- The claim is created, extended and deleted, and two entries are stored. -/
theorem ledger_never_corrupted_claimCompleteSet :
    ((World.init (M := ledger .plain) .fresh).run claimCompleteSet).state.kv.seq = 5 ∧
      WellFormed .plain ((World.init (M := ledger .plain) .fresh).run claimCompleteSet).state.kv :=
  ⟨rfl, (ledger_never_corrupted .plain (by decide) (by simp [Kernel.plain]) .fresh rfl (by decide)
    claimCompleteSet honestRun_claimCompleteSet).1⟩

end TransportNats.Idempotency
