import TransportNats.Go
import TransportNats.Library.World
import TransportNats.Library.VersionedStore

/-!
The idempotency coordinator over a JetStream key-value bucket.

Every method of `KVIdempotencyCoordinator` is a program whose operations are
the calls that leave the process: one request to the bucket, one reading of
the clock, one look at the context, one random token. Between two operations
any other client may run, for as long as it likes.

What the Kernel package fixes and the coordinator only uses (the default lease
and how an entry is written as JSON) is the parameter `K`.
-/

namespace TransportNats.Idempotency

open Interleaving VersionedStore

def claimPrefix : String := "claim."

def entryPrefix : String := "entry."

structure IdempotencyEntry where
  status : ℤ
  body : Bytes
  storedAt : ℤ
  requestHash : String
  deriving DecidableEq

def IdempotencyEntry.zero : IdempotencyEntry := ⟨0, [], 0, ""⟩

/-- `action.IdempotencyClaimState`; `other` is any value the executor does not know. -/
inductive ClaimState
  | acquired | completed | conflict | inProgress | other
  deriving DecidableEq

structure IdempotencyClaim where
  state : ClaimState
  token : String := ""
  entry : IdempotencyEntry := .zero
  deriving DecidableEq

/-- What the coordinator takes from the Kernel. Writing an entry as JSON may
fail (a time outside the years JSON can express); what was written is read back
as it was, and is an object rather than `null`. -/
structure Kernel where
  defaultIdempotencyLeaseTTL : ℤ
  marshalEntry : IdempotencyEntry → Except Err Json
  unmarshalEntry : IdempotencyEntry → Json → Except Err IdempotencyEntry
  unmarshal_marshal : ∀ {e j}, marshalEntry e = .ok j → unmarshalEntry .zero j = .ok e
  marshal_ne_null : ∀ {e}, marshalEntry e ≠ .ok .null

/-- A Kernel that writes an entry field by field and always succeeds. -/
def Kernel.plain : Kernel where
  defaultIdempotencyLeaseTTL := 30
  marshalEntry e := .ok (.obj [("status", .int e.status),
    ("body", .arr (e.body.map fun b => .int b.toNat)), ("stored_at", .int e.storedAt),
    ("request_hash", .str e.requestHash)])
  unmarshalEntry _ j :=
    match j with
    | .obj [(_, .int status), (_, .arr body), (_, .int storedAt), (_, .str requestHash)] =>
        .ok ⟨status, body.map fun | .int i => UInt8.ofNat i.toNat | _ => 0, storedAt, requestHash⟩
    | _ => .error Json.unmarshalErr
  unmarshal_marshal {e j} h := by
    cases h
    simp [Function.comp_def]
  marshal_ne_null {e} := by simp

/-! ### Stored records -/

structure KVClaimPayload where
  token : String
  requestHash : String
  expiresAt : I64
  deriving DecidableEq

structure KVEntryPayload where
  entry : Option IdempotencyEntry
  expiresAt : I64

def KVClaimPayload.zero : KVClaimPayload := ⟨"", "", .zero⟩

def KVClaimPayload.fields : List (Json.Field KVClaimPayload) :=
  [⟨"token", fun p v => (Json.unmarshalString p.token v).map fun x => { p with token := x }⟩,
   ⟨"req_hash", fun p v =>
      (Json.unmarshalString p.requestHash v).map fun x => { p with requestHash := x }⟩,
   ⟨"exp", fun p v => (Json.unmarshalInt64 p.expiresAt v).map fun x => { p with expiresAt := x }⟩]

/-- `json.Marshal` of a claim; strings and integers always encode. -/
def marshalClaim (p : KVClaimPayload) : Data :=
  .json (.obj [("token", .str p.token), ("req_hash", .str p.requestHash),
    ("exp", .int p.expiresAt.val)])

def unmarshalClaim : Data → Except Err KVClaimPayload
  | .json j => Json.unmarshalStruct KVClaimPayload.fields .zero j
  | .malformed _ => .error Json.unmarshalErr

/-- Decoding into the `*action.IdempotencyEntry` field: `null` clears the
pointer, anything else is decoded into the entry it points to. -/
def unmarshalEntryPointer (K : Kernel) (old : Option IdempotencyEntry) :
    Json → Except Err (Option IdempotencyEntry)
  | .null => .ok none
  | v => (K.unmarshalEntry (old.getD .zero) v).map some

def KVEntryPayload.fields (K : Kernel) : List (Json.Field KVEntryPayload) :=
  [⟨"entry", fun p v => (unmarshalEntryPointer K p.entry v).map fun x => { p with entry := x }⟩,
   ⟨"exp", fun p v => (Json.unmarshalInt64 p.expiresAt v).map fun x => { p with expiresAt := x }⟩]

def idempotencyExpiry (now : I64) (ttl : ℤ) : Except Err I64 :=
  if httl : ttl ≤ 0 then .ok .zero
  else if hmax : saturate (maxInt64 - now.val) < ttl then
    .error (.app .badRequest "idempotency TTL is too large")
  else .ok ⟨now.val + ttl, by have := now.lo; omega, by
    -- the saturated difference never exceeds the exact one
    have hdiff : saturate (maxInt64 - now.val) ≤ maxInt64 - now.val :=
      saturate_le (by have := now.hi; have : minInt64 ≤ 0 := by decide
                      omega)
    omega⟩

@[simp] theorem unmarshalClaim_marshalClaim (p : KVClaimPayload) :
    unmarshalClaim (marshalClaim p) = .ok p := by
  simp [unmarshalClaim, marshalClaim, Json.unmarshalStruct, Json.setFields, Json.findField,
    KVClaimPayload.fields, Json.unmarshalString, Json.unmarshalInt64, Except.map]

/-! ### Operations -/

/-- `nats.KeyValueEntry`, as far as the coordinator reads it. -/
structure KvItem where
  value : Data
  revision : ℕ

/-- The calls by which a coordinator method leaves the process. -/
inductive KvOp
  | ctxErr
  | now
  | newToken
  | get (key : String)
  | put (key : String) (data : Data)
  | create (key : String) (data : Data)
  | update (key : String) (data : Data) (revision : ℕ)
  | delete (key : String) (revision : ℕ)

@[reducible] def KvOp.Ret : KvOp → Type
  | .ctxErr => Option Err
  | .now => I64
  | .newToken => Except Err String
  | .get _ => Except Err KvItem
  | .put _ _ => Except Err ℕ
  | .create _ _ => Except Err ℕ
  | .update _ _ _ => Except Err ℕ
  | .delete _ _ => Option Err

abbrev kvSig : Signature := ⟨KvOp, KvOp.Ret⟩

abbrev Kv := Program kvSig

def ctxErr : Kv (Option Err) := .perform (S := kvSig) .ctxErr

def timeNow : Kv I64 := .perform (S := kvSig) .now

def newKVClaimToken : Kv (Except Err String) := .perform (S := kvSig) .newToken

def kvGet (key : String) : Kv (Except Err KvItem) := .perform (S := kvSig) (.get key)

def kvPut (key : String) (data : Data) : Kv (Except Err ℕ) := .perform (S := kvSig) (.put key data)

def kvCreate (key : String) (data : Data) : Kv (Except Err ℕ) :=
  .perform (S := kvSig) (.create key data)

def kvUpdate (key : String) (data : Data) (revision : ℕ) : Kv (Except Err ℕ) :=
  .perform (S := kvSig) (.update key data revision)

def kvDelete (key : String) (revision : ℕ) : Kv (Option Err) :=
  .perform (S := kvSig) (.delete key revision)

/-- The two errors that say that a key has no value. -/
def isKeyMissing (err : Err) : Bool :=
  err.is (.nats .errKeyNotFound) || err.is (.nats .errKeyDeleted)

def mapIdempotencyKVError (err : Option Err) : Kv (Option Err) := do
  match ← ctxErr with
  | some ctxErr => return some ctxErr
  | none => return err.map mapError

/-- `mapIdempotencyKVError` of an error that is not nil. -/
def mapKVFailure (err : Err) : Kv Err := do
  match ← ctxErr with
  | some ctxErr => return ctxErr
  | none => return mapError err

/-! ### The methods -/

def marshalKVEntry (K : Kernel) (entry : IdempotencyEntry) (ttl : ℤ) : Kv (Except Err Data) := do
  let now ← timeNow
  match idempotencyExpiry now ttl with
  | .error err => return .error err
  | .ok expiresAt =>
      match K.marshalEntry entry with
      | .error err => return .error err
      | .ok j => return .ok (.json (.obj [("entry", j), ("exp", .int expiresAt.val)]))

/-- The wrapper in a stored value, if it is one. -/
inductive DecodedEntry
  | wrapped (entry : IdempotencyEntry) (expiresAt : I64)
  | legacy (entry : IdempotencyEntry)

/-- The part of `decodeKVEntry` that does not look at the clock. -/
def decodeEntryPayload (K : Kernel) : Data → Except Err DecodedEntry
  | .malformed _ =>
      .error (.appOf .internal "corrupted idempotency entry in KV" Json.unmarshalErr)
  | .json j =>
      match Json.unmarshalMap j with
      | .error err => .error (.appOf .internal "corrupted idempotency entry in KV" err)
      | .ok object =>
          if object.any fun kv => kv.1 = "entry" then
            match Json.unmarshalStruct (KVEntryPayload.fields K) ⟨none, .zero⟩ j with
            | .error err => .error (.appOf .internal "corrupted idempotency entry in KV" err)
            | .ok stored =>
                match stored.entry with
                | none => .error (.app .internal "corrupted idempotency entry in KV")
                | some entry => .ok (.wrapped entry stored.expiresAt)
          else
            match K.unmarshalEntry .zero j with
            | .error err =>
                .error (.appOf .internal "corrupted legacy idempotency entry in KV" err)
            | .ok legacy => .ok (.legacy legacy)

/-- The stored entry, or `none` when it has expired. -/
def decodeKVEntry (K : Kernel) (data : Data) : Kv (Except Err (Option IdempotencyEntry)) := do
  match decodeEntryPayload K data with
  | .error err => return .error err
  | .ok (.legacy entry) => return .ok (some entry)
  | .ok (.wrapped entry expiresAt) =>
      if expiresAt.val = 0 then return .ok (some entry)
      else
        let now ← timeNow
        if expiresAt.val ≤ now.val then return .ok none else return .ok (some entry)

def loadEntry (K : Kernel) (key : String) : Kv (Except Err (Option IdempotencyEntry)) := do
  match ← ctxErr with
  | some err => return .error err
  | none =>
      if key = "" then return .error (.app .badRequest "idempotency key is required")
      else
        match ← kvGet (entryPrefix ++ key) with
        | .error err =>
            if isKeyMissing err then return .ok none
            else return .error (← mapKVFailure err)
        | .ok item =>
            match ← ctxErr with
            | some err => return .error err
            | none => decodeKVEntry K item.value

/-- `Get`: the entry and whether one was found; a failed read counts as found. -/
def get (K : Kernel) (key : String) : Kv (IdempotencyEntry × Bool) := do
  match ← loadEntry K key with
  | .error _ => return (.zero, true)
  | .ok (some entry) => return (entry, true)
  | .ok none => return (.zero, false)

def set (K : Kernel) (key : String) (entry : IdempotencyEntry) (ttl : ℤ) : Kv Unit := do
  if key = "" then return ()
  else
    match ← marshalKVEntry K entry ttl with
    | .error _ => return ()
    | .ok data =>
        match ← ctxErr with
        | some _ => return ()
        | none =>
            let _ ← kvPut (entryPrefix ++ key) data
            return ()

def retryCreateClaim (claimKey token : String) (data : Data) :
    Kv (Except Err IdempotencyClaim) := do
  match ← kvCreate claimKey data with
  | .ok _ => return .ok { state := .acquired, token := token }
  | .error createErr =>
      if createErr.is (.nats .errKeyExists) then return .ok { state := .inProgress }
      else return .error (← mapKVFailure createErr)

def replaceExpiredClaim (claimKey token : String) (data : Data) (revision : ℕ) :
    Kv (Except Err IdempotencyClaim) := do
  match ← kvUpdate claimKey data revision with
  | .ok _ => return .ok { state := .acquired, token := token }
  | .error updateErr =>
      if updateErr.is (.nats .errKeyRevisionMismatch) then return .ok { state := .inProgress }
      else if isKeyMissing updateErr then
        match ← ctxErr with
        | some err => return .error err
        | none => retryCreateClaim claimKey token data
      else return .error (← mapKVFailure updateErr)

/-- A claim record that decodes but cannot have been written by a coordinator. -/
def KVClaimPayload.corrupted (p : KVClaimPayload) : Bool := p.token = "" || p.expiresAt.val ≤ 0

def resolveExistingClaim (claimKey requestHash token : String) (now : I64) (data : Data)
    (existing : KvItem) : Kv (Except Err IdempotencyClaim) := do
  match unmarshalClaim existing.value with
  | .error err => return .error (.appOf .internal "corrupted idempotency claim in KV" err)
  | .ok activeClaim =>
      if activeClaim.corrupted then
        return .error (.app .internal "corrupted idempotency claim in KV")
      else if activeClaim.requestHash ≠ "" ∧ activeClaim.requestHash ≠ requestHash then
        return .ok { state := .conflict }
      else if now.val < activeClaim.expiresAt.val then return .ok { state := .inProgress }
      else replaceExpiredClaim claimKey token data existing.revision

def createClaim (claimKey requestHash token : String) (now : I64) (data : Data) :
    Kv (Except Err IdempotencyClaim) := do
  match ← kvCreate claimKey data with
  | .ok _ => return .ok { state := .acquired, token := token }
  | .error createErr =>
      match ← ctxErr with
      | some err => return .error err
      | none =>
          match ← kvGet claimKey with
          | .error getErr =>
              if isKeyMissing getErr then
                if createErr.is (.nats .errKeyExists) then retryCreateClaim claimKey token data
                else return .error (← mapKVFailure createErr)
              else return .error (← mapKVFailure getErr)
          | .ok existing => resolveExistingClaim claimKey requestHash token now data existing

def claim (K : Kernel) (key requestHash : String) (leaseTTL : ℤ) :
    Kv (Except Err IdempotencyClaim) := do
  match ← ctxErr with
  | some err => return .error err
  | none =>
      if key = "" then return .error (.app .badRequest "idempotency key is required")
      else
        match ← loadEntry K key with
        | .error err => return .error err
        | .ok (some entry) =>
            if entry.requestHash ≠ "" ∧ entry.requestHash ≠ requestHash then
              return .ok { state := .conflict }
            else return .ok { state := .completed, entry := entry }
        | .ok none =>
            let now ← timeNow
            match idempotencyExpiry now
                (if leaseTTL ≤ 0 then K.defaultIdempotencyLeaseTTL else leaseTTL) with
            | .error err => return .error err
            | .ok expiresAt =>
                match ← newKVClaimToken with
                | .error err =>
                    return .error
                      (.appOf .internal "failed to generate idempotency claim token" err)
                | .ok token =>
                    match ← ctxErr with
                    | some err => return .error err
                    | none =>
                        createClaim (claimPrefix ++ key) requestHash token now
                          (marshalClaim ⟨token, requestHash, expiresAt⟩)

/-- The part that `extendClaimForCompletion` and `RenewClaim` have in common:
read the claim, check that `token` owns it and that it has not expired, and
store it again at the revision read with a lease of `leaseTTL` from now. -/
def extendClaim (key token : String) (leaseTTL : ℤ) : Kv (Except Err ℕ) := do
  match ← kvGet (claimPrefix ++ key) with
  | .error err => return .error (← mapKVFailure err)
  | .ok item =>
      match unmarshalClaim item.value with
      | .error err => return .error (.appOf .internal "corrupted idempotency claim in KV" err)
      | .ok activeClaim =>
          if activeClaim.corrupted then
            return .error (.app .internal "corrupted idempotency claim in KV")
          else if activeClaim.token ≠ token then
            return .error (.app .conflict "idempotency claim is owned by another token")
          else
            let now ← timeNow
            if activeClaim.expiresAt.val ≤ now.val then
              return .error (.app .conflict "idempotency claim has expired")
            else
              match idempotencyExpiry now leaseTTL with
              | .error err => return .error err
              | .ok expiresAt =>
                  match ← ctxErr with
                  | some err => return .error err
                  | none =>
                      match ← kvUpdate (claimPrefix ++ key)
                          (marshalClaim { activeClaim with expiresAt := expiresAt })
                          item.revision with
                      | .error err => return .error (← mapKVFailure err)
                      | .ok revision => return .ok revision

def extendClaimForCompletion (K : Kernel) (key token : String) : Kv (Except Err ℕ) :=
  extendClaim key token K.defaultIdempotencyLeaseTTL

def complete (K : Kernel) (key token : String) (entry : IdempotencyEntry) (ttl : ℤ) :
    Kv (Option Err) := do
  match ← ctxErr with
  | some err => return some err
  | none =>
      if key = "" ∨ token = "" then
        return some (.app .badRequest "idempotency key and claim token are required")
      else
        match ← marshalKVEntry K entry ttl with
        | .error err => return some err
        | .ok entryData =>
            match ← extendClaimForCompletion K key token with
            | .error err => return some err
            | .ok claimRevision =>
                match ← ctxErr with
                | some err => return some err
                | none =>
                    match ← kvPut (entryPrefix ++ key) entryData with
                    | .error err => return some (← mapKVFailure err)
                    | .ok _ =>
                        match ← ctxErr with
                        | some err => return some err
                        | none =>
                            match ← kvDelete (claimPrefix ++ key) claimRevision with
                            | some err => return some (← mapKVFailure err)
                            | none => return none

def release (key token : String) : Kv (Option Err) := do
  match ← ctxErr with
  | some err => return some err
  | none =>
      if key = "" ∨ token = "" then
        return some (.app .badRequest "idempotency key and claim token are required")
      else
        match ← kvGet (claimPrefix ++ key) with
        | .error err =>
            if isKeyMissing err then return none else return some (← mapKVFailure err)
        | .ok item =>
            match unmarshalClaim item.value with
            | .error err =>
                return some (.appOf .internal "corrupted idempotency claim in KV" err)
            | .ok activeClaim =>
                if activeClaim.token = token then
                  match ← kvDelete (claimPrefix ++ key) item.revision with
                  | some err =>
                      if isKeyMissing err then return none
                      else mapIdempotencyKVError (some err)
                  | none => mapIdempotencyKVError none
                else return none

def renewClaim (K : Kernel) (key token : String) (leaseTTL : ℤ) : Kv (Option Err) := do
  match ← ctxErr with
  | some err => return some err
  | none =>
      if key = "" ∨ token = "" then
        return some (.app .badRequest "idempotency key and claim token are required")
      else
        match ← extendClaim key token
            (if leaseTTL ≤ 0 then K.defaultIdempotencyLeaseTTL else leaseTTL) with
        | .error err => return some err
        | .ok _ => return none

end TransportNats.Idempotency
