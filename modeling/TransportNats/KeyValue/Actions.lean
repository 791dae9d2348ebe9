import TransportNats.KeyValue.Operations

/-!
The actions `nats.kv.get`, `put`, `create`, `update` and `delete`.

An action checks its request, encodes the value and calls the operation of the
transport. A get that finds no key answers so, instead of failing; it recognises
this case by the sentinel behind the error of the operation, so that a missing
bucket or a broken connection is not taken for a missing key.

Whatever other clients do in the meantime, an operation or action that succeeds
has taken effect at one moment of its run, and has answered what the buckets
answer at that moment.
-/

namespace TransportNats.KeyValue

open Interleaving Program VersionedStore
open Object (quote trimSpace)

/-! ### Requests and responses -/

/-- What the actions take from the Go library: non-nil JSON values, with strings among
them, and `time.ParseDuration`. A document may decode to nil. -/
structure FlowLib where
  Value : Type
  text : Bytes → Value
  marshal : Value → Except Err Bytes
  unmarshal : Bytes → Option (Option Value)
  parseDuration : Bytes → Except Err ℤ

structure KVGetRequest where
  bucket : Bytes
  key : Bytes

structure KVGetResponse (L : FlowLib) where
  bucket : Bytes
  key : Bytes
  found : Bool
  value : Option L.Value := none
  encoding : String := ""
  revision : ℕ := 0
  created : Option ℤ := none

structure KVPutRequest (L : FlowLib) where
  bucket : Bytes
  key : Bytes
  value : Option L.Value

structure KVWriteResponse where
  bucket : Bytes
  key : Bytes
  revision : ℕ

structure KVCreateRequest (L : FlowLib) where
  bucket : Bytes
  key : Bytes
  value : Option L.Value
  ttl : Bytes := []

structure KVUpdateRequest (L : FlowLib) where
  bucket : Bytes
  key : Bytes
  value : Option L.Value
  revision : ℕ

structure KVDeleteRequest where
  bucket : Bytes
  key : Bytes
  revision : Option ℕ := none

/-- The map with which a delete answers. -/
structure KVDeleteResponse where
  bucket : Bytes
  key : Bytes
  deleted : Bool

/-! ### The actions -/

def validateKVRequest (actionName : String) (bucket key : Bytes) : Option Err :=
  if trimSpace bucket = [] ∨ trimSpace key = [] then
    some (.app .badRequest (actionName ++ ": bucket and key are required"))
  else none

section
variable (L : FlowLib)

def marshalKVValue : Option L.Value → Except Err Bytes
  | none => .error (.other "value is required" none)
  | some value => L.marshal value

def decodeKVValue (data : Bytes) : Option L.Value × String :=
  match L.unmarshal data with
  | some decoded => (decoded, "json")
  | none => (some (L.text (Base64.encode data)), "base64")

/-- One second, in nanoseconds. -/
def second : ℤ := 1000000000

def parseKVTTL (raw : Bytes) : Except Err ℤ :=
  if raw = [] then .ok 0
  else
    match L.parseDuration raw with
    | .error err => .error err
    | .ok ttl =>
        if ttl < second then .error (.other "ttl must be at least one second" none) else .ok ttl

def kvGet (req : KVGetRequest) : Kv (Except Err (KVGetResponse L)) := do
  match validateKVRequest "nats.kv.get" req.bucket req.key with
  | some err => return .error err
  | none =>
      match ← getKV req.bucket req.key with
      | .error err =>
          if err.is (.jetstream .errKeyNotFound) then
            return .ok { bucket := req.bucket, key := req.key, found := false }
          else return .error err
      | .ok entry =>
          return .ok
            { bucket := req.bucket, key := req.key, found := true
              value := (decodeKVValue L entry.value).1
              encoding := (decodeKVValue L entry.value).2
              revision := entry.revision, created := some entry.created }

/-- The response to a write. -/
def wrote (bucket key : Bytes) : Except Err ℕ → Except Err KVWriteResponse
  | .error err => .error err
  | .ok revision => .ok ⟨bucket, key, revision⟩

def kvPut (req : KVPutRequest L) : Kv (Except Err KVWriteResponse) := do
  match validateKVRequest "nats.kv.put" req.bucket req.key with
  | some err => return .error err
  | none =>
      match marshalKVValue L req.value with
      | .error err =>
          return .error (.appOf .badRequest "nats.kv.put: value must be JSON encodable" err)
      | .ok data => return wrote req.bucket req.key (← putKV req.bucket req.key data)

def kvCreate (req : KVCreateRequest L) : Kv (Except Err KVWriteResponse) := do
  match validateKVRequest "nats.kv.create" req.bucket req.key with
  | some err => return .error err
  | none =>
      match marshalKVValue L req.value with
      | .error err =>
          return .error (.appOf .badRequest "nats.kv.create: value must be JSON encodable" err)
      | .ok data =>
          match parseKVTTL L req.ttl with
          | .error err =>
              return .error
                (.appOf .badRequest "nats.kv.create: ttl must be at least 1s, for example 15m" err)
          | .ok ttl => return wrote req.bucket req.key (← createKV req.bucket req.key data ttl)

def kvUpdate (req : KVUpdateRequest L) : Kv (Except Err KVWriteResponse) := do
  match validateKVRequest "nats.kv.update" req.bucket req.key with
  | some err => return .error err
  | none =>
      if req.revision = 0 then
        return .error (.app .badRequest
          "nats.kv.update: revision is required and must be greater than zero")
      else
        match marshalKVValue L req.value with
        | .error err =>
            return .error (.appOf .badRequest "nats.kv.update: value must be JSON encodable" err)
        | .ok data =>
            return wrote req.bucket req.key (← updateKV req.bucket req.key data req.revision)

def kvDelete (req : KVDeleteRequest) : Kv (Except Err KVDeleteResponse) := do
  match validateKVRequest "nats.kv.delete" req.bucket req.key with
  | some err => return .error err
  | none =>
      if req.revision = some 0 then
        return .error (.app .badRequest "nats.kv.delete: revision must be greater than zero")
      else
        match ← deleteKV req.bucket req.key req.revision with
        | .error err => return .error err
        | .ok _ => return .ok ⟨req.bucket, req.key, true⟩

end

/-! ### Any number of clients -/

/-- The operations of the transport and the actions. -/
inductive KvCall (L : FlowLib)
  | getKV (bucket key : Bytes)
  | putKV (bucket key value : Bytes)
  | createKV (bucket key value : Bytes) (ttl : ℤ)
  | updateKV (bucket key value : Bytes) (expectedRevision : ℕ)
  | deleteKV (bucket key : Bytes) (expectedRevision : Option ℕ)
  | get (req : KVGetRequest)
  | put (req : KVPutRequest L)
  | create (req : KVCreateRequest L)
  | update (req : KVUpdateRequest L)
  | delete (req : KVDeleteRequest)

inductive KvResult (L : FlowLib)
  | entry (r : KVEntry)
  | revision (r : ℕ)
  | done
  | got (r : KVGetResponse L)
  | wrote (r : KVWriteResponse)
  | deleted (r : KVDeleteResponse)

def KvCall.program (L : FlowLib) : KvCall L → Kv (Except Err (KvResult L))
  | .getKV b k => do return (← KeyValue.getKV b k).map .entry
  | .putKV b k v => do return (← KeyValue.putKV b k v).map .revision
  | .createKV b k v ttl => do return (← KeyValue.createKV b k v ttl).map .revision
  | .updateKV b k v r => do return (← KeyValue.updateKV b k v r).map .revision
  | .deleteKV b k r => do return (← KeyValue.deleteKV b k r).map fun _ => .done
  | .get req => do return (← kvGet L req).map .got
  | .put req => do return (← kvPut L req).map .wrote
  | .create req => do return (← kvCreate L req).map .wrote
  | .update req => do return (← kvUpdate L req).map .wrote
  | .delete req => do return (← kvDelete req).map .deleted

@[reducible] def clients (L : FlowLib) : System where
  sig := kvSig
  State := Buckets
  Call := KvCall L
  Result := Except Err (KvResult L)
  Choice := KvChoice
  Env := KvEnv
  program := KvCall.program L
  exec := kvExec
  enter _ s := some s
  env e s := e.apply s

/-- The call `c` makes the request `req`, and returns `res` when the buckets answer
`answer`. -/
inductive Yields (L : FlowLib) : KvCall L → (req : KvRequest) → req.Answer → KvResult L → Prop
  | getKV {b k} (e : KVEntry) : Yields L (.getKV b k) (.get b k) (some e) (.entry e)
  | putKV {b k v} (r : ℕ) : Yields L (.putKV b k v) (.put b k v) r (.revision r)
  | createKV {b k v ttl} (httl : 0 ≤ ttl) (r : ℕ) :
      Yields L (.createKV b k v ttl) (.create b k v ttl) r (.revision r)
  | updateKV {b k v n} (hn : n ≠ 0) (r : ℕ) :
      Yields L (.updateKV b k v n) (.update b k v n) r (.revision r)
  | deleteKV {b k n} (hn : n ≠ some 0) : Yields L (.deleteKV b k n) (.delete b k n) () .done
  | found {req : KVGetRequest} (e : KVEntry) :
      Yields L (.get req) (.get req.bucket req.key) (some e)
        (.got ⟨req.bucket, req.key, true, (decodeKVValue L e.value).1,
          (decodeKVValue L e.value).2, e.revision, some e.created⟩)
  | missing {req : KVGetRequest} :
      Yields L (.get req) (.get req.bucket req.key) none
        (.got ⟨req.bucket, req.key, false, none, "", 0, none⟩)
  | put {req : KVPutRequest L} {data : Bytes} (hdata : marshalKVValue L req.value = .ok data)
      (r : ℕ) :
      Yields L (.put req) (.put req.bucket req.key data) r (.wrote ⟨req.bucket, req.key, r⟩)
  | create {req : KVCreateRequest L} {data : Bytes} {ttl : ℤ}
      (hdata : marshalKVValue L req.value = .ok data) (httl : parseKVTTL L req.ttl = .ok ttl)
      (r : ℕ) :
      Yields L (.create req) (.create req.bucket req.key data ttl) r
        (.wrote ⟨req.bucket, req.key, r⟩)
  | update {req : KVUpdateRequest L} {data : Bytes} (hn : req.revision ≠ 0)
      (hdata : marshalKVValue L req.value = .ok data) (r : ℕ) :
      Yields L (.update req) (.update req.bucket req.key data req.revision) r
        (.wrote ⟨req.bucket, req.key, r⟩)
  | delete {req : KVDeleteRequest} (hn : req.revision ≠ some 0) :
      Yields L (.delete req) (.delete req.bucket req.key req.revision) ()
        (.deleted ⟨req.bucket, req.key, true⟩)

/-! ### One request for each call -/

section
variable {L : FlowLib}

/-- The sentinel by which a missing key is recognised. -/
abbrev keyMissing : Sentinel := .jetstream .errKeyNotFound

def KvOp.failure : (o : KvOp) → o.Ret → Option Err
  | .ensureConn, r | .newJetStream, r | .keyValue _, r => r
  | .send _, .error err => some err
  | .send _, .ok _ => none

/-- Some operation failed with an error that says that a key is absent. -/
def SaysMissing (h : KvHist) : Prop :=
  ∃ x ∈ h, ∃ err, KvOp.failure x.op x.ret = some err ∧ err.is keyMissing = true

def Unsent (h : KvHist) : Prop := ∀ x ∈ h, ∀ req, x.op ≠ .send req

/-- A single request is made, and it is `req`. -/
def sendGuard (Req : KvRequest → Prop) (h : KvHist) : KvOp → Prop
  | .send req => Req req ∧ Unsent h
  | _ => True

theorem unsent_cons {h : KvHist} {o : KvOp} (hh : Unsent h) (ho : ∀ req, o ≠ .send req)
    (r : o.Ret) : Unsent (⟨o, r⟩ :: h) := by
  intro x hx req
  rcases List.mem_cons.mp hx with rfl | hx
  · exact ho req
  · exact hh x hx req

/-- An error that says that a key is absent was got from an operation. -/
def ErrorTraced (h : KvHist) (err : Err) : Prop := err.is keyMissing = true → SaysMissing h

theorem errorTraced_of_not {h : KvHist} {err : Err} (hn : err.is keyMissing = false) :
    ErrorTraced h err := by
  intro hs
  rw [hn] at hs
  cases hs

theorem errorTraced_head {h : KvHist} {x : Answered kvSig} {err err' : Err}
    (hfail : KvOp.failure x.op x.ret = some err)
    (hmap : err.is keyMissing = false → err'.is keyMissing = false) :
    ErrorTraced (x :: h) err' := by
  intro hs
  refine ⟨x, List.mem_cons_self, err, hfail, ?_⟩
  by_contra hn
  rw [hmap (by simpa using hn)] at hs
  cases hs

theorem guarded_keyValue (Req : KvRequest → Prop) (bucket : Bytes) {h : KvHist} (hh : Unsent h) :
    Guarded (S := kvSig) (sendGuard Req)
      (fun h r => Unsent h ∧ ∀ err, r = some err → ErrorTraced h err) h (keyValue bucket) := by
  unfold keyValue kvOp
  split
  · refine ⟨hh, ?_⟩
    rintro _ ⟨⟩
    exact errorTraced_of_not rfl
  · rw [guarded_perform_bind]
    refine ⟨trivial, fun r => ?_⟩
    have h₁ := unsent_cons hh (o := .ensureConn) (by simp) r
    cases r with
    | some err =>
        refine ⟨h₁, ?_⟩
        rintro _ ⟨⟩
        exact errorTraced_head rfl id
    | none =>
        dsimp only
        rw [guarded_perform_bind]
        refine ⟨trivial, fun r => ?_⟩
        have h₂ := unsent_cons h₁ (o := .newJetStream) (by simp) r
        cases r with
        | some err =>
            refine ⟨h₂, ?_⟩
            rintro _ ⟨⟩
            exact errorTraced_head rfl is_mapError_false
        | none =>
            dsimp only
            rw [guarded_perform_bind]
            refine ⟨trivial, fun r => ?_⟩
            have h₃ := unsent_cons h₂ (o := .keyValue bucket) (by simp) r
            cases r with
            | some err =>
                refine ⟨h₃, ?_⟩
                rintro _ ⟨⟩
                exact errorTraced_head rfl (is_mapKVError_false bucket [])
            | none => exact ⟨h₃, by simp⟩

/-- What is known when an operation has returned: it succeeds only if its checks pass. -/
def operatePost (req : KvRequest) (before after : Option Err) (h : KvHist) :
    Except Err req.Reply → Prop
  | .ok reply => (before = none ∧ after = none) ∧ ⟨.send req, .ok reply⟩ ∈ h
  | .error err => ErrorTraced h err

theorem guarded_operate {Req : KvRequest → Prop} {req : KvRequest} (bucket key : Bytes)
    {before after : Option Err} (hreq : before = none ∧ after = none → Req req)
    (hbefore : ∀ err, before = some err → err.is keyMissing = false)
    (hafter : ∀ err, after = some err → err.is keyMissing = false) :
    Guarded (S := kvSig) (sendGuard Req) (operatePost req before after) []
      (operate req bucket key before after) := by
  unfold operate
  split
  · exact errorTraced_of_not rfl
  · cases before with
    | some err => exact errorTraced_of_not (hbefore err rfl)
    | none =>
        refine (guarded_keyValue Req bucket (by simp [Unsent])).bind fun h r hr => ?_
        cases r with
        | some err => exact hr.2 err rfl
        | none =>
            cases after with
            | some err => exact errorTraced_of_not (hafter err rfl)
            | none =>
                refine ⟨⟨hreq ⟨rfl, rfl⟩, hr.1⟩, fun r => ?_⟩
                cases r with
                | error err => exact errorTraced_head rfl (is_mapKVError_false bucket key)
                | ok reply => exact ⟨⟨rfl, rfl⟩, List.mem_cons_self⟩

/-- The requests that a call may make. -/
def Requests (c : KvCall L) (req : KvRequest) : Prop := ∃ answer res, Yields L c req answer res

/-- What is known when a call has returned: it made its request and got the answer for its
result, or it took an error for the news that the key is absent. -/
def kvPost (c : KvCall L) (h : KvHist) : Except Err (KvResult L) → Prop
  | .error _ => True
  | .ok res =>
      (∃ req answer, Yields L c req answer res ∧ ⟨.send req, req.reply answer⟩ ∈ h) ∨
        SaysMissing h ∧ ∃ req, c = .get req ∧
          res = .got ⟨req.bucket, req.key, false, none, "", 0, none⟩

theorem guarded_raw {c : KvCall L} {req : KvRequest} {bucket key : Bytes}
    {before after : Option Err} {f : req.Reply → KvResult L}
    (hf : before = none ∧ after = none → ∀ reply, ∃ answer, req.reply answer = .ok reply ∧
      Yields L c req answer (f reply))
    (hreq : before = none ∧ after = none → Requests c req)
    (hbefore : ∀ err, before = some err → err.is keyMissing = false)
    (hafter : ∀ err, after = some err → err.is keyMissing = false) :
    Guarded (S := kvSig) (sendGuard (Requests c)) (kvPost c) []
      (do return (← operate req bucket key before after).map f) := by
  refine (guarded_operate bucket key hreq hbefore hafter).bind fun h r hr => ?_
  cases r with
  | error err => trivial
  | ok reply =>
      obtain ⟨answer, hreply, hy⟩ := hf hr.1 reply
      exact .inl ⟨req, answer, hy, hreply ▸ hr.2⟩

/-- A check that has passed. -/
theorem not_of_check {p : Prop} [Decidable p] {err : Err}
    (h : (if p then some err else none) = none) : ¬ p := by
  split at h
  · cases h
  · assumption

/-- A write action whose checks have passed calls an operation. -/
theorem guarded_wrote {c : KvCall L} (req : KvRequest) {bucket key : Bytes}
    {p : Kv (Except Err ℕ)} {Q : KvHist → Except Err ℕ → Prop}
    (hp : Guarded (S := kvSig) (sendGuard (Requests c)) Q [] p)
    (hQ : ∀ h r, Q h (.ok r) → ∃ answer, Yields L c req answer (.wrote ⟨bucket, key, r⟩) ∧
      ⟨.send req, req.reply answer⟩ ∈ h) :
    Guarded (S := kvSig) (sendGuard (Requests c)) (fun h r => kvPost c h (r.map .wrote)) []
      (do return wrote bucket key (← p)) := by
  refine hp.bind fun h r hr => ?_
  cases r with
  | error err => trivial
  | ok r =>
      obtain ⟨answer, hy, hmem⟩ := hQ h r hr
      exact .inl ⟨req, answer, hy, hmem⟩

theorem not_missing_of_ite {p : Prop} [Decidable p] {kind : Kind} {text : String} (err : Err)
    (h : (if p then some (Err.app kind text) else none) = some err) :
    err.is keyMissing = false := by
  split at h
  · cases h
    rfl
  · cases h

theorem guarded_kvGet (req : KVGetRequest) :
    Guarded (S := kvSig) (sendGuard (Requests (L := L) (.get req)))
      (fun h r => kvPost (L := L) (.get req) h (r.map .got)) [] (kvGet L req) := by
  unfold kvGet
  split
  · trivial
  · have hop : Guarded (S := kvSig) (sendGuard (Requests (L := L) (.get req)))
        (operatePost (.get req.bucket req.key) none none) [] (getKV req.bucket req.key) :=
      guarded_operate _ _ (fun _ => ⟨none, _, .missing⟩) (by simp) (by simp)
    refine hop.bind fun h r hr => ?_
    cases r with
    | error err =>
        dsimp only
        split
        · rename_i hmissing
          exact .inr ⟨hr hmissing, req, rfl, rfl⟩
        · trivial
    | ok entry => exact .inl ⟨.get req.bucket req.key, some entry, .found entry, hr.2⟩

theorem guarded_kvPut (req : KVPutRequest L) :
    Guarded (S := kvSig) (sendGuard (Requests (.put req)))
      (fun h r => kvPost (L := L) (.put req) h (r.map .wrote)) [] (kvPut L req) := by
  unfold kvPut
  split
  · trivial
  · split
    · trivial
    · rename_i data hdata
      have hop : Guarded (S := kvSig) (sendGuard (Requests (.put req)))
          (operatePost (.put req.bucket req.key data) none none) []
          (putKV req.bucket req.key data) :=
        guarded_operate _ _ (fun _ => ⟨(0 : ℕ), _, .put hdata 0⟩) (by simp) (by simp)
      exact guarded_wrote (.put req.bucket req.key data) hop
        fun h r hr => ⟨r, .put hdata r, hr.2⟩

theorem guarded_kvCreate (req : KVCreateRequest L) :
    Guarded (S := kvSig) (sendGuard (Requests (.create req)))
      (fun h r => kvPost (L := L) (.create req) h (r.map .wrote)) [] (kvCreate L req) := by
  unfold kvCreate
  split
  · trivial
  · split
    · trivial
    · rename_i data hdata
      split
      · trivial
      · rename_i ttl httl
        have hop : Guarded (S := kvSig) (sendGuard (Requests (.create req)))
            (operatePost (.create req.bucket req.key data ttl) _ none) []
            (createKV req.bucket req.key data ttl) :=
          guarded_operate _ _ (fun _ => ⟨(0 : ℕ), _, .create hdata httl 0⟩) not_missing_of_ite
            (by simp)
        exact guarded_wrote (.create req.bucket req.key data ttl) hop
          fun h r hr => ⟨r, .create hdata httl r, hr.2⟩

theorem guarded_kvUpdate (req : KVUpdateRequest L) :
    Guarded (S := kvSig) (sendGuard (Requests (.update req)))
      (fun h r => kvPost (L := L) (.update req) h (r.map .wrote)) [] (kvUpdate L req) := by
  unfold kvUpdate
  split
  · trivial
  · split
    · trivial
    · rename_i hn
      split
      · trivial
      · rename_i data hdata
        have hop : Guarded (S := kvSig) (sendGuard (Requests (.update req)))
            (operatePost (.update req.bucket req.key data req.revision) _ none) []
            (updateKV req.bucket req.key data req.revision) :=
          guarded_operate _ _ (fun _ => ⟨(0 : ℕ), _, .update hn hdata 0⟩) not_missing_of_ite
            (by simp)
        exact guarded_wrote (.update req.bucket req.key data req.revision) hop
          fun h r hr => ⟨r, .update hn hdata r, hr.2⟩

theorem guarded_kvDelete (req : KVDeleteRequest) :
    Guarded (S := kvSig) (sendGuard (Requests (L := L) (.delete req)))
      (fun h r => kvPost (L := L) (.delete req) h (r.map .deleted)) [] (kvDelete req) := by
  unfold kvDelete
  split
  · trivial
  · split
    · trivial
    · rename_i hn
      have hop : Guarded (S := kvSig) (sendGuard (Requests (L := L) (.delete req)))
          (operatePost (.delete req.bucket req.key req.revision) none _) []
          (deleteKV req.bucket req.key req.revision) :=
        guarded_operate _ _ (fun _ => ⟨(), _, .delete hn⟩) (by simp) not_missing_of_ite
      refine hop.bind fun h r hr => ?_
      cases r with
      | error err => trivial
      | ok reply =>
          exact .inl ⟨.delete req.bucket req.key req.revision, (), .delete hn, hr.2⟩

theorem guarded_program (c : KvCall L) :
    Guarded (S := kvSig) (sendGuard (Requests c)) (kvPost c) [] (KvCall.program L c) := by
  cases c with
  | getKV b k =>
      exact guarded_raw (fun _ e => ⟨some e, rfl, .getKV e⟩)
        (fun _ => ⟨some ⟨b, k, [], 0, 0⟩, _, .getKV _⟩) (by simp) (by simp)
  | putKV b k v =>
      exact guarded_raw (fun _ r => ⟨r, rfl, .putKV r⟩) (fun _ => ⟨(0 : ℕ), _, .putKV 0⟩) (by simp)
        (by simp)
  | createKV b k v ttl =>
      exact guarded_raw (fun hc r => ⟨r, rfl, .createKV (not_lt.mp (not_of_check hc.1)) r⟩)
        (fun hc => ⟨(0 : ℕ), _, .createKV (not_lt.mp (not_of_check hc.1)) 0⟩) not_missing_of_ite
        (by simp)
  | updateKV b k v n =>
      exact guarded_raw (fun hc r => ⟨r, rfl, .updateKV (not_of_check hc.1) r⟩)
        (fun hc => ⟨(0 : ℕ), _, .updateKV (not_of_check hc.1) 0⟩) not_missing_of_ite (by simp)
  | deleteKV b k n =>
      exact guarded_raw (fun hc _ => ⟨(), rfl, .deleteKV (not_of_check hc.2)⟩)
        (fun hc => ⟨(), _, .deleteKV (not_of_check hc.2)⟩) (by simp) not_missing_of_ite
  | get req => exact (guarded_kvGet req).bind fun _ _ hr => hr
  | put req => exact (guarded_kvPut req).bind fun _ _ hr => hr
  | create req => exact (guarded_kvCreate req).bind fun _ _ hr => hr
  | update req => exact (guarded_kvUpdate req).bind fun _ _ hr => hr
  | delete req => exact (guarded_kvDelete req).bind fun _ _ hr => hr

/-- Only the buckets say that a key is absent. -/
def MissingSound (x : Answered kvSig) : Prop :=
  ∀ err, KvOp.failure x.op x.ret = some err → err.is keyMissing = true →
    ∃ b k, x = ⟨.send (.get b k), (KvRequest.get b k).reply none⟩

theorem Fault.not_missing {fault : Fault} {err : Err} (h : fault.err? = some err) :
    err.is keyMissing = false := by
  cases fault with
  | none => cases h
  | dropped o | lost o =>
      cases h
      exact o.not_missing

theorem missingSound_exec (ch : KvChoice) (s : Buckets) (o : KvOp) :
    MissingSound ⟨o, (kvExec ch s o).2⟩ := by
  intro err hfail hmissing
  have habsurd : err.is keyMissing = false → False := fun h => by
    rw [h] at hmissing
    cases hmissing
  cases o with
  | ensureConn | newJetStream => exact (habsurd (Fault.not_missing hfail)).elim
  | keyValue bucket =>
      exfalso
      apply habsurd
      simp only [KvOp.failure, kvExec] at hfail
      split at hfail
      · rename_i hf
        cases hfail
        exact Fault.not_missing hf
      · split at hfail
        · cases hfail
        · cases hfail
          rfl
  | send req =>
      simp only [kvExec] at hfail ⊢
      split at hfail
      · cases hfail
        exact (habsurd (Outage.not_missing _)).elim
      · cases hfail
        exact (habsurd (Outage.not_missing _)).elim
      · cases hfail
        exact (habsurd (Outage.not_missing _)).elim
      · rename_i s' answer _ _
        cases req with
        | get b k =>
            cases answer with
            | none => exact ⟨b, k, rfl⟩
            | some e => cases hfail
        | put | create | update | delete => cases hfail
      · cases hfail
        exact (habsurd (Outage.not_missing _)).elim

def calling (L : FlowLib) : Contract (clients L) where
  guard c := sendGuard (Requests c)
  post := kvPost
  sound _ := MissingSound
  program := guarded_program
  answer := missingSound_exec
  stable _ _ hx := hx

/-! ### The moment of a request -/

theorem reply_injective (req : KvRequest) : Function.Injective req.reply := by
  intro a b hab
  cases req with
  | get bucket key =>
      cases a with
      | none => cases b with
        | none => rfl
        | some e => cases hab
      | some e => cases b with
        | none => cases hab
        | some e' =>
            cases hab
            rfl
  | put | create | update =>
      cases hab
      rfl
  | delete => rfl

/-- A reply that is not an outage was given by the buckets. -/
theorem apply_of_reply {ch : KvChoice} {s s' : Buckets} {req : KvRequest} {answer : req.Answer}
    (h : kvExec ch s (.send req) = (s', req.reply answer)) :
    s.apply ch.clock req = some (s', answer) := by
  -- an outage is neither a reply nor the news that a key is absent
  have hout : ∀ (o : Outage) s₁, ((s₁, .error o.err) : Buckets × Except Err req.Reply) ≠
      (s', req.reply answer) := by
    intro o s₁ heq
    have herr := (Prod.mk.inj heq).2
    have hn := o.not_missing
    cases req with
    | get b k =>
        cases answer with
        | none =>
            rw [Except.error.inj herr] at hn
            cases hn
        | some e => cases herr
    | put | create | update | delete => cases herr
  simp only [kvExec] at h
  split at h
  · exact (hout _ _ h).elim
  · exact (hout _ _ h).elim
  · exact (hout _ _ h).elim
  · rename_i s₁ answer₁ _ ha
    obtain ⟨rfl, hr⟩ := Prod.mk.inj h
    rw [ha, reply_injective req hr]
  · exact (hout _ _ h).elim

/-- A call that has succeeded got the answer for its result from its one request. -/
theorem exists_yields {w : World (clients L)} (hw : (calling L).Ok w) {t : ℕ}
    {th : Thread (clients L)} (ht : w.threads[t]? = some th) {res : KvResult L}
    (hres : th.rest.result? = some (.ok res)) :
    ∃ req answer, Yields L th.call req answer res ∧ ⟨.send req, req.reply answer⟩ ∈ th.hist := by
  rcases hw.post ht hres with h | ⟨⟨x, hx, err, hfail, hmissing⟩, req, hc, rfl⟩
  · exact h
  · -- the news is a reply to the request of the call, so it is about its key
    obtain ⟨b, k, rfl⟩ := (hw _ _ ht).sound x hx err hfail hmissing
    obtain ⟨h₁, h₂, heq⟩ := List.append_of_mem hx
    have hsuf : ⟨.send (.get b k), (KvRequest.get b k).reply none⟩ :: h₂ <:+ th.hist :=
      heq ▸ List.suffix_append _ _
    obtain ⟨⟨answer, res, hy⟩, -⟩ := (hw _ _ ht).allowed hsuf
    rw [hc] at hy ⊢
    cases hy <;> exact ⟨.get req.bucket req.key, none, .missing, hx⟩

/-- A call that has succeeded, with the moment of its request: the actions before it, its
choice, and the answer. -/
structure Moment (s₀ : Buckets) (acts : List (Act (clients L))) (t : ℕ) (c : KvCall L)
    (res : KvResult L) (pre : List (Act (clients L))) (ch : KvChoice) (req : KvRequest)
    (answer : req.Answer) : Prop where
  at_step : ∃ post, acts = pre ++ .step t ch :: post
  applied : ((World.init (M := clients L) s₀).run pre).state.apply ch.clock req =
    some (((World.init (M := clients L) s₀).run (pre ++ [.step t ch])).state, answer)
  yields : Yields L c req answer res

theorem exists_moment {s₀ : Buckets} {acts : List (Act (clients L))} {t : ℕ}
    {th : Thread (clients L)} {res : KvResult L}
    (ht : ((World.init (M := clients L) s₀).run acts).threads[t]? = some th)
    (hres : th.rest.result? = some (.ok res)) :
    ∃ pre ch req answer, Moment s₀ acts t th.call res pre ch req answer := by
  obtain ⟨req, answer, hy, hmem⟩ := exists_yields ((calling L).ok_run s₀ acts) ht hres
  obtain ⟨ch, s, s', pre, post, hacts, hs, hs', hexec⟩ := World.answers_of_mem s₀ acts ht hmem
  refine ⟨pre, ch, req, answer, ⟨post, hacts⟩, ?_, hy⟩
  rw [hs, hs']
  exact apply_of_reply hexec

end

/-- Linearizability. In every run of any number of clients, with requests and replies lost
and with whatever else happens to the buckets, a call that succeeds has taken effect at
one moment of its run: one of its steps turned the state into what the buckets make of its
request, and what it returns is their answer. -/
theorem kv_linearizable (L : FlowLib) (s₀ : Buckets) (acts : List (Act (clients L))) {t : ℕ}
    {th : Thread (clients L)} {res : KvResult L}
    (ht : ((World.init (M := clients L) s₀).run acts).threads[t]? = some th)
    (hres : th.rest.result? = some (.ok res)) :
    ∃ (pre post : List (Act (clients L))) (ch : KvChoice) (req : KvRequest) (answer : req.Answer),
      acts = pre ++ .step t ch :: post ∧
      ((World.init (M := clients L) s₀).run pre).state.apply ch.clock req =
        some (((World.init (M := clients L) s₀).run (pre ++ [.step t ch])).state, answer) ∧
      Yields L th.call req answer res := by
  obtain ⟨pre, ch, req, answer, hm⟩ := exists_moment ht hres
  obtain ⟨post, hacts⟩ := hm.at_step
  exact ⟨pre, post, ch, req, answer, hacts, hm.applied, hm.yields⟩

/-- Values that are their own encoding. -/
def plainLib : FlowLib where
  Value := Bytes
  text := id
  marshal v := .ok v
  unmarshal data := some (some data)
  parseDuration _ := .error (.other "time: invalid duration" none)

def kvSteps (t : ℕ) (ch : KvChoice) : List (Act (clients plainLib)) := List.replicate 4 (.step t ch)

/-- A value is put and read, and then two clients update the revision that was read. -/
def rivalUpdates : List (Act (clients plainLib)) :=
  [.env (.createBucket [98]), .spawn (.put ⟨[98], [107], some [49]⟩)] ++ kvSteps 0 {} ++
    [.spawn (.get ⟨[98], [107]⟩)] ++ kvSteps 1 {} ++
    [.spawn (.update ⟨[98], [107], some [50], 1⟩), .spawn (.update ⟨[98], [107], some [51], 1⟩)] ++
    kvSteps 2 {} ++ kvSteps 3 {}

def noBuckets : World (clients plainLib) := World.init fun _ => none

/-- The get of `rivalUpdates` has taken effect. -/
theorem kv_linearizable_rivalUpdates :
    ∃ th res, (noBuckets.run rivalUpdates).threads[1]? = some th ∧
      th.rest.result? = some (.ok res) ∧
      ∃ (pre post : List (Act (clients plainLib))) (ch : KvChoice) (req : KvRequest)
        (answer : req.Answer), rivalUpdates = pre ++ .step 1 ch :: post ∧
        (noBuckets.run pre).state.apply ch.clock req =
          some ((noBuckets.run (pre ++ [.step 1 ch])).state, answer) ∧
        Yields plainLib th.call req answer res :=
  ⟨_, _, rfl, rfl, kv_linearizable plainLib (fun _ => none) rivalUpdates (t := 1) rfl rfl⟩

end TransportNats.KeyValue
