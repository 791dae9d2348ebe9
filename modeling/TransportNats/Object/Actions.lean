import TransportNats.Object.Store
import TransportNats.Library.Base64
import Mathlib.Data.List.DropRight

/-!
The actions `nats.object.put` and `nats.object.get`.

A put decodes its data, compares the number of bytes with the limit and stores
them. A get reads up to the limit and answers with the bytes as they are if they
are UTF-8, and in base64 if not. Both take the same limit from `max_bytes`, with
one exception: `GetObjectLimited` reads one byte more than allowed and therefore
refuses the largest `int64`, which a put accepts.
-/

namespace TransportNats.Object

open Interleaving Program

/-! ### Encodings -/

/-- The runes for which `unicode.IsSpace` holds. -/
def spaces : List Bytes :=
  [[0x09], [0x0A], [0x0B], [0x0C], [0x0D], [0x20], [0xC2, 0x85], [0xC2, 0xA0],
    [0xE1, 0x9A, 0x80], [0xE2, 0x80, 0x80], [0xE2, 0x80, 0x81], [0xE2, 0x80, 0x82],
    [0xE2, 0x80, 0x83], [0xE2, 0x80, 0x84], [0xE2, 0x80, 0x85], [0xE2, 0x80, 0x86],
    [0xE2, 0x80, 0x87], [0xE2, 0x80, 0x88], [0xE2, 0x80, 0x89], [0xE2, 0x80, 0x8A],
    [0xE2, 0x80, 0xA8], [0xE2, 0x80, 0xA9], [0xE2, 0x80, 0xAF], [0xE2, 0x81, 0x9F],
    [0xE3, 0x80, 0x80]]

/-- A string cut into pieces: white space of several bytes, and single bytes. -/
def pieces : Bytes → List Bytes
  | a :: b :: c :: s =>
      if [a, b] ∈ spaces then [a, b] :: pieces (c :: s)
      else if [a, b, c] ∈ spaces then [a, b, c] :: pieces s
      else [a] :: pieces (b :: c :: s)
  | [a, b] => if [a, b] ∈ spaces then [[a, b]] else [[a], [b]]
  | [a] => [[a]]
  | [] => []

/-- `strings.TrimSpace`. -/
def trimSpace (s : Bytes) : Bytes :=
  (((pieces s).dropWhile (· ∈ spaces)).rdropWhile (· ∈ spaces)).flatten

/-- `strings.ToLower`, as far as it can yield one of the names below: no rune
outside ASCII has a letter of them as its lower case. -/
def toLower (s : Bytes) : Bytes := s.map fun b => if 65 ≤ b ∧ b ≤ 90 then b + 32 else b

/-- `utf8.Valid`. -/
def utf8Valid (data : Bytes) : Bool := ByteArray.validateUTF8 ⟨data.toArray⟩

def decodeObjectInput (data encoding : Bytes) : Except Err Bytes :=
  let name := toLower (trimSpace encoding)
  if name = bytesOf "" ∨ name = bytesOf "utf-8" ∨ name = bytesOf "utf8" then .ok data
  else if name = bytesOf "base64" then
    match Base64.decode data with
    | some bytes => .ok bytes
    | none => .error (.other "illegal base64 data" none)
  else
    .error (.other ("unsupported encoding " ++ quote encoding ++ "; use utf-8 or base64") none)

/-! ### Requests -/

structure ObjectPutRequest where
  bucket : String
  name : Bytes
  data : Bytes
  encoding : Bytes := []
  maxBytes : I64 := .zero

/-- The map with which a put answers. -/
structure ObjectPutResponse where
  bucket : String
  name : Bytes
  size : ℕ
  chunks : ℕ
  digest : String
  deriving DecidableEq

structure ObjectGetRequest where
  bucket : String
  name : Bytes
  maxBytes : I64 := .zero

structure ObjectGetResponse where
  bucket : String
  name : Bytes
  data : Bytes
  encoding : Bytes
  size : ℕ
  deriving DecidableEq

/-- 8 MiB. -/
def defaultFlowObjectMaxBytes : ℤ := 8 * 1024 * 1024

def objectLimit (maxBytes : ℤ) : Except Err ℤ :=
  if maxBytes < 0 then .error (.other "negative byte limit" none)
  else if maxBytes = 0 then .ok defaultFlowObjectMaxBytes
  else .ok maxBytes

/-- The checks that the two actions have in common, and the limit. -/
def checkRequest (action bucket : String) (name : Bytes) (maxBytes : I64) : Except Err ℤ :=
  if bucket = "" ∨ name = [] then
    .error (.app .badRequest (action ++ ": bucket and name are required"))
  else
    match objectLimit maxBytes.val with
    | .error err =>
        .error (.appOf .badRequest (action ++ ": max_bytes must be zero or positive") err)
    | .ok limit => .ok limit

/-- The checks of a put, and the bytes that it is to store. -/
def checkPut (req : ObjectPutRequest) : Except Err Bytes :=
  match checkRequest "nats.object.put" req.bucket req.name req.maxBytes with
  | .error err => .error err
  | .ok limit =>
      match decodeObjectInput req.data req.encoding with
      | .error err => .error (.appOf .badRequest "nats.object.put: invalid data or encoding" err)
      | .ok data =>
          if limit < data.length then
            .error (.app .badRequest ("nats.object.put: data is " ++ toString data.length ++
              " bytes; limit is " ++ toString limit))
          else .ok data

def objectPut (req : ObjectPutRequest) : Obj (Except Err ObjectPutResponse) := do
  match checkPut req with
  | .error err => return .error err
  | .ok data =>
      match ← putObject req.bucket req.name data with
      | .error err => return .error err
      | .ok info => return .ok ⟨req.bucket, req.name, info.size, info.chunks, info.digest⟩

/-- The answer to a get. -/
def respond (req : ObjectGetRequest) (data : Bytes) : ObjectGetResponse :=
  if utf8Valid data then ⟨req.bucket, req.name, data, bytesOf "utf-8", data.length⟩
  else ⟨req.bucket, req.name, Base64.encode data, bytesOf "base64", data.length⟩

def objectGet (req : ObjectGetRequest) : Obj (Except Err ObjectGetResponse) := do
  match checkRequest "nats.object.get" req.bucket req.name req.maxBytes with
  | .error err => return .error err
  | .ok limit =>
      match ← getObjectLimited req.bucket req.name limit with
      | .error err => return .error err
      | .ok data => return .ok (respond req data)

/-! ### What the checks let through -/

theorem objectLimit_eq_ok {maxBytes limit : ℤ} (h : objectLimit maxBytes = .ok limit) :
    0 < limit ∧ (limit = maxInt64 ↔ maxBytes = maxInt64) := by
  have hdefault : 0 < defaultFlowObjectMaxBytes ∧ defaultFlowObjectMaxBytes ≠ maxInt64 := by decide
  have hmax : (0 : ℤ) < maxInt64 := by decide
  unfold objectLimit at h
  split_ifs at h with hneg hzero
  · cases h
    refine ⟨hdefault.1, fun heq => absurd heq hdefault.2, fun heq => ?_⟩
    omega
  · cases h
    exact ⟨by omega, Iff.rfl⟩

theorem checkRequest_eq_ok {action bucket : String} {name : Bytes} {maxBytes : I64} {limit : ℤ} :
    checkRequest action bucket name maxBytes = .ok limit ↔
      bucket ≠ "" ∧ name ≠ [] ∧ objectLimit maxBytes.val = .ok limit := by
  unfold checkRequest
  by_cases hempty : bucket = "" ∨ name = []
  · rw [if_pos hempty]
    constructor
    · intro h
      cases h
    · rintro ⟨hbucket, hname, -⟩
      exact absurd hempty (not_or.mpr ⟨hbucket, hname⟩)
  · rw [if_neg hempty]
    rw [not_or] at hempty
    cases objectLimit maxBytes.val with
    | error err => simp
    | ok limit' => simp [hempty.1, hempty.2]

theorem checkPut_eq_ok {req : ObjectPutRequest} {data : Bytes} :
    checkPut req = .ok data ↔ ∃ limit,
      checkRequest "nats.object.put" req.bucket req.name req.maxBytes = .ok limit ∧
      decodeObjectInput req.data req.encoding = .ok data ∧ (data.length : ℤ) ≤ limit := by
  unfold checkPut
  cases checkRequest "nats.object.put" req.bucket req.name req.maxBytes with
  | error err => simp
  | ok limit =>
      cases decodeObjectInput req.data req.encoding with
      | error err => simp
      | ok data' =>
          dsimp only
          split
          · rename_i hlong
            simp only [reduceCtorEq, Except.ok.injEq, exists_eq_left', not_le, false_iff, not_and]
            rintro rfl
            exact hlong
          · rename_i hfits
            simp only [Except.ok.injEq, exists_eq_left', iff_self_and]
            rintro rfl
            omega

/-- What a get answers with is decoded to what it has read. -/
theorem decodeObjectInput_respond (req : ObjectGetRequest) (data : Bytes) :
    decodeObjectInput (respond req data).data (respond req data).encoding = .ok data := by
  have hutf8 : toLower (trimSpace (bytesOf "utf-8")) = bytesOf "utf-8" := by decide +kernel
  have hbase64 : toLower (trimSpace (bytesOf "base64")) = bytesOf "base64" := by decide +kernel
  unfold respond
  split
  · simp [decodeObjectInput, hutf8]
  · have hne : ¬ (bytesOf "base64" = bytesOf "" ∨ bytesOf "base64" = bytesOf "utf-8" ∨
        bytesOf "base64" = bytesOf "utf8") := by decide +kernel
    simp only [decodeObjectInput, hbase64, if_neg hne, if_true, Base64.decode_encode]

theorem size_respond (req : ObjectGetRequest) (data : Bytes) :
    (respond req data).size = data.length := by
  unfold respond
  split <;> rfl

/-! ### Runs without failures -/

/-- The store, if no call fails. -/
def serving (stamp : Stamp) : ObjectState → (o : ObjectOp) → ObjectState × o.Ret :=
  exec { stamp }

section
variable {bucket : String} {name : Bytes} {stamp : Stamp} {s : ObjectState}

theorem alone_openBucket (hbucket : bucket ≠ "") (hname : name ≠ []) (check : Option Err) :
    (openBucket bucket name check).alone (serving stamp) s = (s, check) := by
  have hnamed : ¬ (bucket = "" ∨ name = []) := not_or.mpr ⟨hbucket, hname⟩
  unfold openBucket request
  rw [alone_perform_bind]
  dsimp only [serving, exec]
  rw [if_neg hnamed]
  cases check <;> rfl

theorem alone_putObject (hbucket : bucket ≠ "") (hname : name ≠ []) (data : Bytes) :
    (putObject bucket name data).alone (serving stamp) s =
      (s.put bucket name data stamp,
        .ok ⟨name, data.length, stamp.chunks, stamp.modTime, false, stamp.digest,
          (s bucket).versions.length⟩) := by
  unfold putObject
  rw [alone_bind, alone_openBucket hbucket hname]
  rfl

/-- A put that its checks let through stores the bytes. -/
theorem alone_objectPut {req : ObjectPutRequest} {data : Bytes} (hcheck : checkPut req = .ok data) :
    (objectPut req).alone (serving stamp) s =
      (s.put req.bucket req.name data stamp,
        .ok ⟨req.bucket, req.name, data.length, stamp.chunks, stamp.digest⟩) := by
  obtain ⟨limit, hreq, -⟩ := checkPut_eq_ok.mp hcheck
  obtain ⟨hbucket, hname, -⟩ := checkRequest_eq_ok.mp hreq
  simp only [objectPut, hcheck]
  rw [alone_bind, alone_putObject hbucket hname]
  rfl

theorem exists_of_objectPut {req : ObjectPutRequest} {s' : ObjectState} {resp : ObjectPutResponse}
    (hput : (objectPut req).alone (serving stamp) s = (s', .ok resp)) :
    ∃ data, checkPut req = .ok data ∧ s' = s.put req.bucket req.name data stamp := by
  cases hcheck : checkPut req with
  | error err =>
      simp only [objectPut, hcheck, alone_pure] at hput
      cases hput
  | ok data =>
      rw [alone_objectPut hcheck] at hput
      exact ⟨data, rfl, (congrArg Prod.fst hput).symm⟩

theorem content_put (data : Bytes) :
    (s.put bucket name data stamp bucket).content name = .ok data := by
  have hlatest := (s bucket).latest_push
    ⟨name, data.length, stamp.chunks, stamp.modTime, false, stamp.digest, 0⟩ data
  rw [ObjectState.put, Function.update_self, Bucket.content, hlatest]
  rfl

theorem alone_readObjectBytes {data : Bytes} {limit : ℤ}
    (hcontent : (s bucket).content name = .ok data) (hlimit : limit ≠ maxInt64)
    (hpos : 0 < limit) (hfits : (data.length : ℤ) ≤ limit) :
    (readObjectBytes bucket name limit).alone (serving stamp) s = (s, .ok data) := by
  have hread : readLimit limit = limit := if_neg (by omega)
  have htake : data.take (limit + 1).toNat = data := List.take_of_length_le (by omega)
  unfold readObjectBytes request
  rw [hread, if_neg hlimit, alone_perform_bind]
  simp only [serving, exec, hcontent]
  rw [alone_perform_bind, alone_perform_bind]
  simp only [exec, htake]
  rw [if_neg (by omega)]
  rfl

/-- A get that its checks let through answers with what is stored, except under the
largest limit. -/
theorem alone_objectGet {req : ObjectGetRequest} {data : Bytes} {limit : ℤ}
    (hreq : checkRequest "nats.object.get" req.bucket req.name req.maxBytes = .ok limit)
    (hcontent : (s req.bucket).content req.name = .ok data) (hfits : (data.length : ℤ) ≤ limit) :
    (objectGet req).alone (serving stamp) s =
      (s, if limit = maxInt64 then .error (.app .badRequest "object read limit is too large")
        else .ok (respond req data)) := by
  obtain ⟨hbucket, hname, hobj⟩ := checkRequest_eq_ok.mp hreq
  obtain ⟨hpos, -⟩ := objectLimit_eq_ok hobj
  have hread : readLimit limit = limit := if_neg (by omega)
  simp only [objectGet, hreq]
  rw [alone_bind]
  unfold getObjectLimited
  rw [alone_bind, hread, alone_openBucket hbucket hname]
  by_cases hlimit : limit = maxInt64
  · rw [if_pos hlimit, if_pos hlimit]
    rfl
  · rw [if_neg hlimit, if_neg hlimit]
    dsimp only
    rw [alone_readObjectBytes hcontent hlimit hpos hfits]
    rfl

end

/-! ### Round trip -/

/-- The object of a put can be read under the limit of the put, the size in the
answer is that of what is stored, and putting the answer back under the limit, as
any object, stores the same bytes. -/
def RoundTrip (s : ObjectState) (req : ObjectPutRequest) : Prop :=
  ∃ data got, (s req.bucket).content req.name = .ok data ∧
    (∀ stamp, (objectGet ⟨req.bucket, req.name, req.maxBytes⟩).alone (serving stamp) s =
      (s, .ok got)) ∧
    got.size = data.length ∧
    ∀ bucket name stamp, bucket ≠ "" → name ≠ [] → ∃ s' resp,
      (objectPut ⟨bucket, name, got.data, got.encoding, req.maxBytes⟩).alone (serving stamp) s =
        (s', .ok resp) ∧ (s' bucket).content name = .ok data

/-- What was put comes back, unless the limit is the largest `int64`. -/
theorem object_roundTrip (req : ObjectPutRequest) (stamp : Stamp) (s s' : ObjectState)
    (resp : ObjectPutResponse)
    (hput : (objectPut req).alone (serving stamp) s = (s', .ok resp)) :
    RoundTrip s' req ↔ req.maxBytes.val ≠ maxInt64 := by
  obtain ⟨data, hcheck, rfl⟩ := exists_of_objectPut hput
  obtain ⟨limit, hreq, hdata, hfits⟩ := checkPut_eq_ok.mp hcheck
  obtain ⟨hbucket, hname, hobj⟩ := checkRequest_eq_ok.mp hreq
  have hlimit := (objectLimit_eq_ok hobj).2
  have hcontent : (s.put req.bucket req.name data stamp req.bucket).content req.name = .ok data :=
    content_put data
  let get : ObjectGetRequest := ⟨req.bucket, req.name, req.maxBytes⟩
  have hget : checkRequest "nats.object.get" get.bucket get.name get.maxBytes = .ok limit :=
    checkRequest_eq_ok.mpr ⟨hbucket, hname, hobj⟩
  constructor
  · rintro ⟨_, got, -, hgot, -⟩ hmax
    have hrefused := (alone_objectGet hget hcontent hfits).symm.trans (hgot stamp)
    rw [if_pos (hlimit.mpr hmax)] at hrefused
    cases hrefused
  · intro hmax
    refine ⟨data, respond get data, hcontent, fun stamp' => ?_, size_respond get data, ?_⟩
    · rw [alone_objectGet hget hcontent hfits, if_neg (mt hlimit.mp hmax)]
    · intro bucket name stamp' hbucket' hname'
      have hback : checkPut ⟨bucket, name, (respond get data).data, (respond get data).encoding,
          req.maxBytes⟩ = .ok data :=
        checkPut_eq_ok.mpr ⟨limit, checkRequest_eq_ok.mpr ⟨hbucket', hname', hobj⟩,
          decodeObjectInput_respond get data, hfits⟩
      exact ⟨_, _, alone_objectPut hback, content_put data⟩

/-- One byte that is no UTF-8, in base64. -/
def samplePut (maxBytes : I64) : ObjectPutRequest :=
  ⟨"B", [97], bytesOf "/w==", bytesOf " Base64", maxBytes⟩

theorem object_roundTrip_base64 :
    RoundTrip (ObjectState.put (fun _ => .empty) "B" [97] [255] {}) (samplePut .zero) :=
  (object_roundTrip (samplePut .zero) {} (fun _ => .empty) _ _
    (alone_objectPut (by decide +kernel))).mpr (by decide)

/-- A put with the largest limit is accepted, and the get is refused. -/
theorem largest_limit_refused :
    (objectPut (samplePut .largest)).alone (serving {}) (fun _ => .empty) =
      (ObjectState.put (fun _ => .empty) "B" [97] [255] {}, .ok ⟨"B", [97], 1, 0, ""⟩) ∧
    (objectGet ⟨"B", [97], .largest⟩).alone (serving {})
        (ObjectState.put (fun _ => .empty) "B" [97] [255] {}) =
      (ObjectState.put (fun _ => .empty) "B" [97] [255] {},
        .error (.app .badRequest "object read limit is too large")) := by
  have hget : checkRequest "nats.object.get" "B" [97] .largest = .ok maxInt64 := by
    rw [checkRequest_eq_ok]
    exact ⟨by decide, by decide, rfl⟩
  refine ⟨alone_objectPut (by decide +kernel), ?_⟩
  rw [alone_objectGet hget (content_put [255]) (by decide), if_pos rfl]

end TransportNats.Object
