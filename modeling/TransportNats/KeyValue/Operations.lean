import TransportNats.Library.Moments
import TransportNats.Library.VersionedStore
import TransportNats.Object.Actions
import TransportNats.Classification

/-!
The key-value operations of the transport.

Each of them checks its arguments, opens the bucket and makes one request. What
the buckets are for is said by `Buckets.apply`: it answers a request at once, and
that a key is absent is one of its answers. On the wire a request can be lost,
or its reply; a refused write and an absent key are errors; and the bucket may
be gone by the time of the request.

A bucket that is deleted and created again starts its revisions from one.
-/

namespace TransportNats.KeyValue

open Interleaving VersionedStore
open Object (quote)

/-! ### What the buckets are for -/

/-- A value with the time at which it was written. -/
structure Stored where
  data : Bytes
  created : ℤ
  deriving DecidableEq

structure KVEntry where
  bucket : Bytes
  key : Bytes
  value : Bytes
  revision : ℕ
  created : ℤ
  deriving DecidableEq

inductive KvRequest
  | get (bucket key : Bytes)
  | put (bucket key value : Bytes)
  | create (bucket key value : Bytes) (ttl : ℤ)
  | update (bucket key value : Bytes) (revision : ℕ)
  | delete (bucket key : Bytes) (revision : Option ℕ)

@[reducible] def KvRequest.Answer : KvRequest → Type
  | .get _ _ => Option KVEntry
  | .put _ _ _ | .create _ _ _ _ | .update _ _ _ _ => ℕ
  | .delete _ _ _ => Unit

def KvRequest.bucket : KvRequest → Bytes
  | .get b _ | .put b _ _ | .create b _ _ _ | .update b _ _ _ | .delete b _ _ => b

abbrev Buckets := Bytes → Option (Store Bytes Stored)

namespace Buckets

def set (s : Buckets) (bucket : Bytes) (kv : Store Bytes Stored) : Buckets :=
  Function.update s bucket (some kv)

def entry? (kv : Store Bytes Stored) (bucket key : Bytes) : Option KVEntry :=
  (kv.read key).map fun v => ⟨bucket, key, v.1.data, v.2, v.1.created⟩

/-- A write that went through, with the revision it has got. -/
def written (s : Buckets) (bucket : Bytes) (kv : Store Bytes Stored) : Buckets × ℕ :=
  (s.set bucket kv, kv.seq)

/-- A deletion, which is conditional if a revision is given. -/
def deleted (kv : Store Bytes Stored) (key : Bytes) : Option ℕ → Option (Store Bytes Stored)
  | none => some (kv.write key none)
  | some revision => kv.writeAt key none revision

/-- The buckets after a request at the time `clock`, and its answer; `none` if there is no
such bucket or the request is refused. -/
def apply (s : Buckets) (clock : ℤ) : (req : KvRequest) → Option (Buckets × req.Answer)
  | .get b k => (s b).map fun kv => (s, entry? kv b k)
  | .put b k v => (s b).map fun kv => s.written b (kv.write k (some ⟨v, clock⟩))
  | .create b k v _ => ((s b).bind fun kv => kv.create k ⟨v, clock⟩).map (s.written b)
  | .update b k v r => ((s b).bind fun kv => kv.writeAt k (some ⟨v, clock⟩) r).map (s.written b)
  | .delete b k r => ((s b).bind fun kv => deleted kv k r).map fun kv => (s.set b kv, ())

end Buckets

/-! ### Operations -/

inductive KvOp
  | ensureConn
  | newJetStream
  | keyValue (bucket : Bytes)
  | send (req : KvRequest)

/-- For the client an absent key is an error. -/
@[reducible] def KvRequest.Reply : KvRequest → Type
  | .get _ _ => KVEntry
  | .put _ _ _ | .create _ _ _ _ | .update _ _ _ _ => ℕ
  | .delete _ _ _ => Unit

@[reducible] def KvOp.Ret : KvOp → Type
  | .ensureConn | .newJetStream | .keyValue _ => Option Err
  | .send req => Except Err req.Reply

abbrev kvSig : Signature := ⟨KvOp, KvOp.Ret⟩

abbrev Kv := Program kvSig

abbrev KvHist := History kvSig

def kvOp (o : KvOp) : Kv o.Ret := .perform (S := kvSig) o

def mapKVError (err : Err) (bucket key : Bytes) : Err :=
  if err.is (.jetstream .errBucketNotFound) then
    .appOf .notFound ("nats kv: bucket " ++ quote bucket ++ " not found") err
  else if err.is (.jetstream .errKeyNotFound) then
    .appOf .notFound
      ("nats kv: key " ++ quote key ++ " not found in bucket " ++ quote bucket) err
  else if err.is (.jetstream .errKeyExists) then
    .appOf .conflict
      ("nats kv: key " ++ quote key ++ " already exists in bucket " ++ quote bucket) err
  else if err.is (.jetstream .errKeyRevisionMismatch) then
    .appOf .conflict
      ("nats kv: revision conflict for key " ++ quote key ++ " in bucket " ++ quote bucket) err
  else if err.is (.jetstream .errInvalidKey) || err.is (.jetstream .errInvalidBucketName) then
    .appOf .badRequest "nats kv: invalid bucket or key" err
  else mapError err

/-- Open a bucket; the answer is the error, if there is one. -/
def keyValue (bucket : Bytes) : Kv (Option Err) := do
  if bucket = [] then return some (.app .badRequest "nats kv: bucket is required")
  else
    match ← kvOp .ensureConn with
    | some err => return some err
    | none =>
        match ← kvOp .newJetStream with
        | some err => return some (mapError err)
        | none =>
            match ← kvOp (.keyValue bucket) with
            | some err => return some (mapKVError err bucket [])
            | none => return none

/-- The request, with its error mapped. -/
def sendMapped (req : KvRequest) (bucket key : Bytes) : Kv (Except Err req.Reply) := do
  match ← kvOp (.send req) with
  | .error err => return .error (mapKVError err bucket key)
  | .ok reply => return .ok reply

def keyRequired : Err := .app .badRequest "nats kv: key is required"

def revisionPositive : Err :=
  .app .badRequest "nats kv: expected revision must be greater than zero"

/-- What the operations have in common: `before` is checked before the bucket is opened,
`after` when it is open. -/
def operate (req : KvRequest) (bucket key : Bytes) (before after : Option Err) :
    Kv (Except Err req.Reply) := do
  if key = [] then return .error keyRequired
  else
    match before with
    | some err => return .error err
    | none =>
        match ← keyValue bucket with
        | some err => return .error err
        | none =>
            match after with
            | some err => return .error err
            | none => sendMapped req bucket key

def getKV (bucket key : Bytes) : Kv (Except Err KVEntry) :=
  operate (.get bucket key) bucket key none none

def putKV (bucket key value : Bytes) : Kv (Except Err ℕ) :=
  operate (.put bucket key value) bucket key none none

def createKV (bucket key value : Bytes) (ttl : ℤ) : Kv (Except Err ℕ) :=
  operate (.create bucket key value ttl) bucket key
    (if ttl < 0 then some (.app .badRequest "nats kv: ttl must not be negative") else none) none

def updateKV (bucket key value : Bytes) (expectedRevision : ℕ) : Kv (Except Err ℕ) :=
  operate (.update bucket key value expectedRevision) bucket key
    (if expectedRevision = 0 then some revisionPositive else none) none

/-- Unlike `updateKV`, this looks at the revision only when the bucket is open. -/
def deleteKV (bucket key : Bytes) (expectedRevision : Option ℕ) : Kv (Except Err Unit) :=
  operate (.delete bucket key expectedRevision) bucket key none
    (if expectedRevision = some 0 then some revisionPositive else none)

/-! ### The server and the wire -/

/-- An error that does not say that a key is absent. -/
structure Outage where
  err : Err
  not_missing : err.is (.jetstream .errKeyNotFound) = false

inductive Fault
  | none
  | dropped (o : Outage)
  | lost (o : Outage)

/-- What the schedule decides about one operation. Which error a refused write is answered
with is left open. -/
structure KvChoice where
  fault : Fault := .none
  clock : ℤ := 0
  refusal : Outage := ⟨.sentinel (.jetstream .errKeyRevisionMismatch), rfl⟩

def Fault.err? : Fault → Option Err
  | .none => Option.none
  | .dropped o | .lost o => some o.err

/-- The answer of the buckets as the client gets it. -/
def KvRequest.reply : (req : KvRequest) → req.Answer → Except Err req.Reply
  | .get _ _, some entry => .ok entry
  | .get _ _, none => .error (.sentinel (.jetstream .errKeyNotFound))
  | .put _ _ _, revision => .ok revision
  | .create _ _ _ _, revision => .ok revision
  | .update _ _ _ _, revision => .ok revision
  | .delete _ _ _, _ => .ok ()

def kvExec (ch : KvChoice) (s : Buckets) : (o : KvOp) → Buckets × o.Ret
  | .ensureConn => (s, ch.fault.err?)
  | .newJetStream => (s, ch.fault.err?)
  | .keyValue bucket =>
      (s, match ch.fault.err? with
        | some err => some err
        | none =>
            if (s bucket).isSome then none
            else some (.sentinel (.jetstream .errBucketNotFound)))
  | .send req =>
      match ch.fault, s.apply ch.clock req with
      | .dropped o, _ => (s, .error o.err)
      | .lost o, some (s', _) => (s', .error o.err)
      | .lost o, none => (s, .error o.err)
      | .none, some (s', answer) => (s', req.reply answer)
      | .none, none => (s, .error ch.refusal.err)

/-- What happens to the buckets otherwise: they are created and deleted, entries reach the
end of their time, and other programs write. -/
inductive KvEnv
  | createBucket (bucket : Bytes)
  | deleteBucket (bucket : Bytes)
  | expire (bucket key : Bytes)
  | write (bucket key : Bytes) (value : Option Stored)

def KvEnv.apply (s : Buckets) : KvEnv → Buckets
  | .createBucket b => if (s b).isSome then s else s.set b .empty
  | .deleteBucket b => Function.update s b none
  | .expire b k => Function.update s b ((s b).map fun kv => kv.forget k)
  | .write b k v => Function.update s b ((s b).map fun kv => kv.write k v)

/-! ### Errors that do not say that a key is absent -/

theorem is_of_asAppError {err appErr : Err} {s : Sentinel} (h : err.asAppError = some appErr)
    (hs : appErr.is s = true) : err.is s = true := by
  induction err with
  | sentinel | api | other => cases h
  | app kind text | appOf kind text cause =>
      cases h
      exact hs
  | wrap text retryAfter cause ih => exact ih h
  | join left right ihl ihr =>
      simp only [Err.asAppError] at h
      simp only [Err.is, Bool.or_eq_true]
      cases hl : left.asAppError with
      | some a =>
          rw [hl] at h
          exact .inl (ihl (hl.trans h))
      | none =>
          rw [hl] at h
          exact .inr (ihr h)

theorem is_mapError_false {err : Err} {s : Sentinel} (h : err.is s = false) :
    (mapError err).is s = false := by
  cases happ : err.asAppError with
  | some appErr =>
      rw [mapError_eq_of_asAppError happ]
      by_contra hs
      rw [is_of_asAppError happ (by simpa using hs)] at h
      cases h
  | none =>
      obtain ⟨kind, text, heq⟩ := mapError_eq_appOf happ
      rw [heq]
      exact h

/-- Mapping an error does not make it say that a key is absent. -/
theorem is_mapKVError_false {err : Err} {s : Sentinel} (bucket key : Bytes)
    (h : err.is s = false) : (mapKVError err bucket key).is s = false := by
  unfold mapKVError
  repeat' split
  all_goals first
    | exact h
    | exact is_mapError_false h

end TransportNats.KeyValue
