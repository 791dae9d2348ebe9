import TransportNats.Go
import Mathlib.Algebra.Ring.Nat

/-!
Messages and the hash by which a request is recognised.

`msgHash` hashes the length of the subject, the subject and the data. For short
messages it builds the bytes in a buffer of fixed size, for long ones it streams
them; both hash the same bytes, and these determine the subject and the data.
-/

namespace TransportNats.Idempotency

/-- A received message. A Go string is a byte string whose length is an `int`. -/
structure Msg where
  subject : Bytes
  data : Bytes
  header : List (String × List String)
  subject_length : subject.length < 2 ^ 63

/-- `Header.Get`: the first value of the header, or the empty string. -/
def Msg.headerGet (msg : Msg) (name : String) : String :=
  match msg.header.find? fun kv => kv.1 = name with
  | some (_, value :: _) => value
  | _ => ""

/-! ### The request hash -/

/-- `binary.BigEndian.PutUint64`. -/
def be64 (n : ℕ) : Bytes :=
  [56, 48, 40, 32, 24, 16, 8, 0].map fun shift => UInt8.ofNat (n / 2 ^ shift)

def hexDigit (n : ℕ) : Char :=
  ['0', '1', '2', '3', '4', '5', '6', '7', '8', '9', 'a', 'b', 'c', 'd', 'e', 'f'].getD n '0'

/-- `hex.EncodeToString`. -/
def hexEncode (bytes : Bytes) : String :=
  String.ofList (bytes.flatMap fun b => [hexDigit (b.toNat / 16), hexDigit (b.toNat % 16)])

/-- `copy(buf[off:], src)`. -/
def copyAt (buf : Bytes) (off : ℕ) (src : Bytes) : Bytes :=
  buf.take off ++ src.take (buf.length - off) ++ buf.drop (off + src.length)

def msgHash (sha256 : Bytes → Bytes) (msg : Msg) : String :=
  let subjectLen := be64 msg.subject.length
  let totalLen := subjectLen.length + msg.subject.length + msg.data.length
  if totalLen ≤ 512 then
    let stackBuf := copyAt (List.replicate 512 0) 0 subjectLen
    let stackBuf := copyAt stackBuf subjectLen.length msg.subject
    let stackBuf := copyAt stackBuf (subjectLen.length + msg.subject.length) msg.data
    hexEncode (sha256 (stackBuf.take totalLen))
  else
    -- three writes to one hash
    hexEncode (sha256 (subjectLen ++ msg.subject ++ msg.data))

/-! ### Framing -/

/-- The bytes that are hashed. -/
def frame (msg : Msg) : Bytes := be64 msg.subject.length ++ msg.subject ++ msg.data

/-- Copying over what follows a prefix of the buffer. -/
theorem copyAt_append (a rest src : Bytes) (h : src.length ≤ rest.length) :
    copyAt (a ++ rest) a.length src = a ++ src ++ rest.drop src.length := by
  have hdrop : a.drop (a.length + src.length) = [] := List.drop_eq_nil_of_le (by omega)
  simp [copyAt, List.drop_append, hdrop, List.take_of_length_le h]

/-- Three pieces copied one after the other into a buffer that holds them. -/
theorem take_copyAt_copyAt_copyAt (buf a b c : Bytes)
    (h : a.length + b.length + c.length ≤ buf.length) :
    (copyAt (copyAt (copyAt buf 0 a) a.length b) (a.length + b.length) c).take
      (a.length + b.length + c.length) = a ++ b ++ c := by
  have h₁ := copyAt_append [] buf a (by omega)
  have h₂ := copyAt_append a (buf.drop a.length) b (by rw [List.length_drop]; omega)
  have h₃ := copyAt_append (a ++ b) ((buf.drop a.length).drop b.length) c
    (by rw [List.length_drop, List.length_drop]; omega)
  simp only [List.nil_append, List.length_nil, List.length_append] at h₁ h₂ h₃
  rw [h₁, h₂, h₃, List.take_left' (by simp [Nat.add_assoc])]

/-- Both branches hash the frame. -/
theorem msgHash_eq (sha256 : Bytes → Bytes) (msg : Msg) :
    msgHash sha256 msg = hexEncode (sha256 (frame msg)) := by
  unfold msgHash
  dsimp only
  split
  · rename_i hle
    rw [take_copyAt_copyAt_copyAt _ _ _ _ (by rwa [List.length_replicate]), frame]
  · rfl

/-- One more byte is known. -/
theorem div_eq_of_byte {m n s : ℕ} (hhigh : m / 2 ^ (s + 8) = n / 2 ^ (s + 8))
    (hbyte : m / 2 ^ s % 256 = n / 2 ^ s % 256) : m / 2 ^ s = n / 2 ^ s := by
  have hsplit : ∀ x, x / 2 ^ (s + 8) = x / 2 ^ s / 256 := by
    intro x
    rw [Nat.pow_add, Nat.div_div_eq_div_mul]
  rw [hsplit, hsplit] at hhigh
  omega

theorem be64_injective {m n : ℕ} (hm : m < 2 ^ 64) (hn : n < 2 ^ 64) (h : be64 m = be64 n) :
    m = n := by
  have hbyte : ∀ shift ∈ [56, 48, 40, 32, 24, 16, 8, 0],
      m / 2 ^ shift % 256 = n / 2 ^ shift % 256 := by
    intro shift hs
    have := List.map_inj_left.mp h shift hs
    simpa using congrArg UInt8.toNat this
  -- the bytes are compared from the highest one down
  have h64 : m / 2 ^ 64 = n / 2 ^ 64 := by rw [Nat.div_eq_of_lt hm, Nat.div_eq_of_lt hn]
  have h56 : m / 2 ^ 56 = n / 2 ^ 56 := div_eq_of_byte h64 (hbyte 56 (by decide))
  have h48 : m / 2 ^ 48 = n / 2 ^ 48 := div_eq_of_byte h56 (hbyte 48 (by decide))
  have h40 : m / 2 ^ 40 = n / 2 ^ 40 := div_eq_of_byte h48 (hbyte 40 (by decide))
  have h32 : m / 2 ^ 32 = n / 2 ^ 32 := div_eq_of_byte h40 (hbyte 32 (by decide))
  have h24 : m / 2 ^ 24 = n / 2 ^ 24 := div_eq_of_byte h32 (hbyte 24 (by decide))
  have h16 : m / 2 ^ 16 = n / 2 ^ 16 := div_eq_of_byte h24 (hbyte 16 (by decide))
  have h8 : m / 2 ^ 8 = n / 2 ^ 8 := div_eq_of_byte h16 (hbyte 8 (by decide))
  have h0 : m / 2 ^ 0 = n / 2 ^ 0 := div_eq_of_byte h8 (hbyte 0 (by decide))
  simpa using h0

theorem frame_injective {m n : Msg} (h : frame m = frame n) :
    m.subject = n.subject ∧ m.data = n.data := by
  have hm := m.subject_length
  have hn := n.subject_length
  simp only [frame, List.append_assoc] at h
  obtain ⟨hlen, hrest⟩ := List.append_inj h rfl
  exact List.append_inj hrest (be64_injective (by omega) (by omega) hlen)

theorem hexDigit_injective : ∀ m < 16, ∀ n < 16, hexDigit m = hexDigit n → m = n := by
  decide

theorem hexEncode_injective : Function.Injective hexEncode := by
  intro a b h
  have hl := String.ofList_injective h
  clear h
  induction a generalizing b with
  | nil =>
      cases b with
      | nil => rfl
      | cons y b => simp at hl
  | cons x a ih =>
      cases b with
      | nil => simp at hl
      | cons y b =>
          simp only [List.flatMap_cons, List.cons_append, List.nil_append, List.cons.injEq] at hl
          obtain ⟨hhi, hlo, hrest⟩ := hl
          have hx := x.toNat_lt
          have hy := y.toNat_lt
          have h1 := hexDigit_injective _ (by omega) _ (by omega) hhi
          have h2 := hexDigit_injective _ (by omega) _ (by omega) hlo
          have hxy : x = y := UInt8.toNat_inj.mp (by omega)
          rw [hxy, ih hrest]

/-- Without collisions of the hash function, the request hash determines the
subject and the data of a message. -/
theorem msgHash_injective {sha256 : Bytes → Bytes} (hinj : Function.Injective sha256)
    {m n : Msg} (h : msgHash sha256 m = msgHash sha256 n) :
    m.subject = n.subject ∧ m.data = n.data := by
  rw [msgHash_eq, msgHash_eq] at h
  exact frame_injective (hinj (hexEncode_injective h))

theorem msgHash_ne_empty {sha256 : Bytes → Bytes} (hne : ∀ b, sha256 b ≠ []) (msg : Msg) :
    msgHash sha256 msg ≠ "" := by
  intro h
  rw [msgHash_eq] at h
  exact hne _ (hexEncode_injective h)

/-! ### Streaming -/

/-- Package `crypto/sha256`: the function on a whole byte string, and a hash that
is written to. `sum b` appends the digest of what was written to `b`. -/
structure Sha256 where
  sum256 : Bytes → Bytes
  State : Type
  new : State
  write : State → Bytes → State
  sum : State → Bytes → Bytes
  sum_writes : ∀ (pieces : List Bytes) b,
    sum (pieces.foldl write new) b = b ++ sum256 pieces.flatten

namespace Sha256

/-- Any function can be streamed: by keeping what was written. -/
def keeping (f : Bytes → Bytes) : Sha256 where
  sum256 := f
  State := Bytes
  new := []
  write written piece := written ++ piece
  sum written b := b ++ f written
  sum_writes pieces b := by
    have hkept : ∀ written : Bytes,
        pieces.foldl (fun written piece => written ++ piece) written =
          written ++ pieces.flatten := by
      induction pieces with
      | nil => simp
      | cons piece pieces ih => simp [ih]
    rw [hkept, List.nil_append]

variable (H : Sha256) (msg : Msg)

/-- The branch of `msgHash` for short messages. -/
def hashBuffered : String :=
  let subjectLen := be64 msg.subject.length
  let totalLen := subjectLen.length + msg.subject.length + msg.data.length
  let stackBuf := copyAt (List.replicate 512 0) 0 subjectLen
  let stackBuf := copyAt stackBuf subjectLen.length msg.subject
  let stackBuf := copyAt stackBuf (subjectLen.length + msg.subject.length) msg.data
  hexEncode (H.sum256 (stackBuf.take totalLen))

/-- The branch of `msgHash` for long messages. -/
def hashStreamed : String :=
  let h := H.new
  let h := H.write h (be64 msg.subject.length)
  let h := H.write h msg.subject
  let h := H.write h msg.data
  let sumBuf := List.replicate 32 0
  hexEncode (H.sum h (sumBuf.take 0))

/-- `msgHash` with the hash it writes to. -/
def msgHash : String :=
  if (be64 msg.subject.length).length + msg.subject.length + msg.data.length ≤ 512 then
    H.hashBuffered msg
  else H.hashStreamed msg

theorem length_frame :
    (frame msg).length =
      (be64 msg.subject.length).length + msg.subject.length + msg.data.length := by
  simp [frame, Nat.add_assoc]

theorem hashBuffered_eq (h : (frame msg).length ≤ 512) :
    H.hashBuffered msg = hexEncode (H.sum256 (frame msg)) := by
  rw [length_frame] at h
  unfold hashBuffered
  dsimp only
  rw [take_copyAt_copyAt_copyAt _ _ _ _ (by rwa [List.length_replicate]), frame]

theorem hashStreamed_eq : H.hashStreamed msg = hexEncode (H.sum256 (frame msg)) := by
  have hsum := H.sum_writes [be64 msg.subject.length, msg.subject, msg.data] []
  simp only [List.foldl_cons, List.foldl_nil, List.nil_append, List.flatten_cons,
    List.flatten_nil, List.append_nil, ← List.append_assoc] at hsum
  simp only [hashStreamed, List.take_zero, hsum, frame]

/-- Streaming changes nothing: this is the request hash used everywhere else. -/
theorem msgHash_eq_msgHash : H.msgHash msg = Idempotency.msgHash H.sum256 msg := by
  rw [msgHash_eq, msgHash, ← length_frame]
  split
  · exact H.hashBuffered_eq msg ‹_›
  · exact H.hashStreamed_eq msg

end Sha256

/-- Each branch hashes the length of the subject in eight bytes, the subject and
the data wherever it is taken, and these bytes determine both. -/
theorem msgHash_framed (H : Sha256) (msg : Msg) :
    (be64 msg.subject.length).length = 8 ∧
      ((frame msg).length ≤ 512 →
        H.hashBuffered msg =
          hexEncode (H.sum256 (be64 msg.subject.length ++ msg.subject ++ msg.data))) ∧
      H.hashStreamed msg =
        hexEncode (H.sum256 (be64 msg.subject.length ++ msg.subject ++ msg.data)) ∧
      H.msgHash msg =
        hexEncode (H.sum256 (be64 msg.subject.length ++ msg.subject ++ msg.data)) ∧
      ∀ msg' : Msg, frame msg = frame msg' →
        msg.subject = msg'.subject ∧ msg.data = msg'.data := by
  refine ⟨rfl, H.hashBuffered_eq msg, H.hashStreamed_eq msg, ?_, fun msg' => frame_injective⟩
  rw [H.msgHash_eq_msgHash, msgHash_eq, frame]

/-- The subject `ab` with the data `c`. -/
def shortMsg : Msg := ⟨[97, 98], [99], [], by decide⟩

theorem msgHash_framed_shortMsg :
    (frame shortMsg).length ≤ 512 ∧
      (Sha256.keeping id).hashBuffered shortMsg =
        hexEncode ([0, 0, 0, 0, 0, 0, 0, 2] ++ [97, 98] ++ [99]) := by
  have hshort : (frame shortMsg).length ≤ 512 := by decide
  exact ⟨hshort, (msgHash_framed (Sha256.keeping id) shortMsg).2.1 hshort⟩

end TransportNats.Idempotency
