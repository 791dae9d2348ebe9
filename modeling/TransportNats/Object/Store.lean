import TransportNats.Object.Names
import TransportNats.Library.World

/-!
The object store and the calls that read and write it.

An object has versions: every put and every deletion adds one, with metadata of
its own, and a read by name returns the bytes of the latest. A watcher delivers
the metadata of the versions in the order in which they were written, and may
pass over some. Each request to the store is one atomic step.
-/

namespace TransportNats.Object

open Interleaving Program

/-! ### Data -/

/-- `nats.ObjectInfo`, as far as the transport reads it, and the identifier by
which the store tells versions apart. -/
structure ObjectInfo where
  name : Bytes
  size : ℕ
  chunks : ℕ
  modTime : ℤ
  deleted : Bool
  digest : String
  nuid : ℕ
  deriving DecidableEq

inductive ObjectEventType
  | objectPut | objectDelete
  deriving DecidableEq

/-- `data` is `none` if the event carries no data. -/
structure ObjectEvent where
  bucket : String
  name : Bytes
  type : ObjectEventType
  size : ℕ
  chunks : ℕ
  timestamp : ℤ
  data : Option Bytes := none
  deriving DecidableEq

/-- 8 MiB. -/
def defaultMaxBytes : ℤ := 8 * 1024 * 1024

/-- Two hexadecimal digits. -/
def hexByte (b : UInt8) : String :=
  String.ofList [Nat.digitChar (b.toNat / 16), Nat.digitChar (b.toNat % 16)]

/-- A byte as `%q` writes it; a byte outside ASCII is always escaped here, also
where it belongs to a printable rune. -/
def quoteByte (b : UInt8) : String :=
  if b = 34 then "\\\"" else if b = 92 then "\\\\"
  else if b = 7 then "\\a" else if b = 8 then "\\b" else if b = 9 then "\\t"
  else if b = 10 then "\\n" else if b = 11 then "\\v" else if b = 12 then "\\f"
  else if b = 13 then "\\r"
  else if 32 ≤ b ∧ b < 127 then String.ofList [Char.ofNat b.toNat]
  else "\\x" ++ hexByte b

def quote (s : Bytes) : String := "\"" ++ String.join (s.map quoteByte) ++ "\""

/-! ### Operations -/

/-- The steps by which a call leaves the process. -/
inductive ObjectOp
  | ctxErr
  | ensureConn
  | ensureJetStream
  | objectStore (bucket : String)
  | get (bucket : String) (name : Bytes)
  | copyErr
  | close
  | putBytes (bucket : String) (name data : Bytes)
  | next (bucket : String)
  | execute (ev : ObjectEvent)

/-- `get` opens the object and answers with what can be read from it, `copyErr`
is the error other than `io.EOF` with which reading ends, and `next` receives
from the channel of the watcher: `none` if it is closed, and the nil marker is
`some none`. -/
@[reducible] def ObjectOp.Ret : ObjectOp → Type
  | .ctxErr | .ensureConn | .ensureJetStream | .objectStore _ | .copyErr | .close
  | .execute _ => Option Err
  | .get _ _ => Except Err Bytes
  | .putBytes _ _ _ => Except Err ObjectInfo
  | .next _ => Option (Option ObjectInfo)

abbrev objectSig : Signature := ⟨ObjectOp, ObjectOp.Ret⟩

abbrev Obj := Program objectSig

abbrev ObjectHist := History objectSig

def request (o : ObjectOp) : Obj o.Ret := .perform (S := objectSig) o

/-! ### Reading and writing -/

/-- `errors.Join`, which leaves out a nil error. -/
def joinErr (err : Err) : Option Err → Err
  | some other => .join err other
  | none => err

/-- The limit that a read really has. -/
def readLimit (maxBytes : ℤ) : ℤ := if maxBytes ≤ 0 then defaultMaxBytes else maxBytes

theorem readLimit_pos (maxBytes : ℤ) : 0 < readLimit maxBytes := by
  have hdefault : 0 < defaultMaxBytes := by decide
  unfold readLimit
  split <;> omega

/-- Nothing is cut off what is not found too long. -/
theorem take_readLimit {content : Bytes} {maxBytes : ℤ}
    (h : ¬ readLimit maxBytes < (content.take (readLimit maxBytes + 1).toNat).length) :
    content.take (readLimit maxBytes + 1).toNat = content := by
  have hpos := readLimit_pos maxBytes
  apply List.take_of_length_le
  rw [List.length_take] at h
  omega

def readObjectBytes (bucket : String) (name : Bytes) (maxBytes : ℤ) : Obj (Except Err Bytes) := do
  if readLimit maxBytes = maxInt64 then
    return .error (.app .badRequest "object read limit is too large")
  else
    match ← request (.get bucket name) with
    | .error err => return .error (mapError err)
    | .ok content =>
        let readErr ← request .copyErr
        let closeErr ← request .close
        match readErr with
        | some readErr => return .error (mapError (joinErr readErr closeErr))
        | none =>
            match closeErr with
            | some closeErr => return .error (mapError closeErr)
            | none =>
                -- `io.CopyN` has copied one byte more than allowed, if there are so many
                let buf := content.take (readLimit maxBytes + 1).toNat
                if readLimit maxBytes < buf.length then
                  return .error (.app .badRequest ("object " ++ quote name ++
                    " exceeds limit of " ++ toString (readLimit maxBytes) ++ " bytes"))
                else return .ok buf

/-- The part that `PutObject` and `GetObjectLimited` have in common: the checks
of the request, with `check` between them and the connection, and opening the
bucket. -/
def openBucket (bucket : String) (name : Bytes) (check : Option Err) : Obj (Option Err) := do
  match ← request .ctxErr with
  | some err => return some err
  | none =>
      if bucket = "" ∨ name = [] then
        return some (.app .badRequest "objectstore requires a bucket and object name")
      else
        match check with
        | some err => return some err
        | none =>
            match ← request .ensureConn with
            | some err => return some err
            | none =>
                match ← request .ensureJetStream with
                | some err => return some err
                | none =>
                    match ← request (.objectStore bucket) with
                    | some err => return some (mapError err)
                    | none => return none

def putObject (bucket : String) (name data : Bytes) : Obj (Except Err ObjectInfo) := do
  match ← openBucket bucket name none with
  | some err => return .error err
  | none =>
      match ← request (.putBytes bucket name data) with
      | .error err => return .error (mapError err)
      | .ok info => return .ok info

def getObjectLimited (bucket : String) (name : Bytes) (maxBytes : ℤ) : Obj (Except Err Bytes) := do
  let tooLarge : Option Err :=
    if readLimit maxBytes = maxInt64 then
      some (.app .badRequest "object read limit is too large")
    else none
  match ← openBucket bucket name tooLarge with
  | some err => return .error err
  | none => readObjectBytes bucket name (readLimit maxBytes)

/-! ### The store -/

structure Version where
  info : ObjectInfo
  data : Bytes

/-- The versions of the objects of a bucket, the oldest first, each with its place
as its identifier, and how many of them the watcher has passed. -/
structure Bucket where
  versions : List Version
  numbered : ∀ {i : ℕ} {v : Version}, versions[i]? = some v → v.info.nuid = i
  passed : ℕ

namespace Bucket

def empty : Bucket := ⟨[], by simp, 0⟩

/-- A new version is written. -/
def push (b : Bucket) (info : ObjectInfo) (data : Bytes) : Bucket where
  versions := b.versions ++ [⟨{ info with nuid := b.versions.length }, data⟩]
  numbered {i v} h := by
    rw [List.getElem?_append] at h
    split at h
    · exact b.numbered h
    · rw [List.getElem?_singleton] at h
      split at h
      · cases h
        simp only
        omega
      · cases h
  passed := b.passed

/-- The latest version of an object. -/
def latest (b : Bucket) (name : Bytes) : Option Version :=
  b.versions.reverse.find? fun v => v.info.name = name

/-- What can be read of an object. -/
def content (b : Bucket) (name : Bytes) : Except Err Bytes :=
  match b.latest name with
  | none => .error (.sentinel (.nats .errObjectNotFound))
  | some v =>
      if v.info.deleted then .error (.sentinel (.nats .errObjectNotFound)) else .ok v.data

theorem latest_push (b : Bucket) (info : ObjectInfo) (data : Bytes) :
    (b.push info data).latest info.name = some ⟨{ info with nuid := b.versions.length }, data⟩ := by
  simp [latest, push]

end Bucket

abbrev ObjectState := String → Bucket

/-- What the store adds to the metadata of a new version. -/
structure Stamp where
  chunks : ℕ := 0
  modTime : ℤ := 0
  digest : String := ""

/-- What the schedule decides about one operation: whether it fails, what the
store writes into the metadata, and what the watcher sends. -/
structure ObjectChoice where
  err : Option Err := none
  stamp : Stamp := {}
  marker : Bool := false
  skip : ℕ := 0

namespace ObjectState

def put (s : ObjectState) (bucket : String) (name data : Bytes) (stamp : Stamp) : ObjectState :=
  Function.update s bucket ((s bucket).push
    ⟨name, data.length, stamp.chunks, stamp.modTime, false, stamp.digest, 0⟩ data)

def delete (s : ObjectState) (bucket : String) (name : Bytes) (modTime : ℤ) : ObjectState :=
  Function.update s bucket ((s bucket).push ⟨name, 0, 0, modTime, true, "", 0⟩ [])

/-- The metadata of the next version that the watcher does not skip. -/
def receive (s : ObjectState) (bucket : String) (skip : ℕ) :
    ObjectState × Option (Option ObjectInfo) :=
  match (s bucket).versions[(s bucket).passed + skip]? with
  | some v =>
      (Function.update s bucket { s bucket with passed := (s bucket).passed + skip + 1 },
        some (some v.info))
  | none => (s, none)

end ObjectState

def exec (ch : ObjectChoice) (s : ObjectState) : (o : ObjectOp) → ObjectState × o.Ret
  | .ctxErr | .ensureConn | .ensureJetStream | .objectStore _ | .copyErr | .close
  | .execute _ => (s, ch.err)
  | .get bucket name =>
      match ch.err with
      | some err => (s, .error err)
      | none => (s, (s bucket).content name)
  | .putBytes bucket name data =>
      match ch.err with
      | some err => (s, .error err)
      | none =>
          (s.put bucket name data ch.stamp,
            .ok ⟨name, data.length, ch.stamp.chunks, ch.stamp.modTime, false, ch.stamp.digest,
              (s bucket).versions.length⟩)
  | .next bucket => if ch.marker then (s, some none) else s.receive bucket ch.skip

end TransportNats.Object
