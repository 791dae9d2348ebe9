import TransportNats.Idempotency.Takeover

/-!
What stands under an entry key.

`marshalKVEntry` wraps an entry together with the instant at which it expires,
zero standing for never, and `decodeKVEntry` reads the wrapper back. Written at
one time and read at a later one, an entry is found until its time to live has
passed, for every `int64` and without wrapping around.

`decodeKVEntry` also reads a bare entry, the format before the wrapper, and takes
every object without the key `entry` for one. The decoder of a Go struct skips
unknown keys and leaves alone what the text does not mention, so `null`, the
empty object and most unrelated objects read as an entry with every field zero.
A key under which such a text stands is taken for completed.
-/

namespace TransportNats.Idempotency

open Interleaving VersionedStore Program

/-! ### The codec -/

theorem saturate_of_mem {d : ℤ} (hlo : minInt64 ≤ d) (hhi : d ≤ maxInt64) : saturate d = d := by
  rw [saturate, min_eq_left hhi, max_eq_right hlo]

section
variable {now : I64} {ttl : ℤ}

theorem saturate_remaining (hnow : 0 ≤ now.val) :
    saturate (maxInt64 - now.val) = maxInt64 - now.val := by
  have hhi := now.hi
  have hmin : minInt64 ≤ 0 := by decide
  apply saturate_of_mem <;> omega

/-- A positive time to live that ends after the last instant is refused. -/
theorem idempotencyExpiry_of_overflow (httl : 0 < ttl) (hmax : maxInt64 < now.val + ttl) :
    ∃ err, idempotencyExpiry now ttl = .error err := by
  have hlate : saturate (maxInt64 - now.val) < ttl := by
    have hhi := now.hi
    have hmin : minInt64 ≤ 0 := by decide
    have hle : saturate (maxInt64 - now.val) ≤ maxInt64 - now.val := saturate_le (by omega)
    omega
  unfold idempotencyExpiry
  rw [dif_neg (by omega), dif_pos hlate]
  exact ⟨_, rfl⟩

/-- Any other time to live gives the exact end, or zero if there is none. -/
theorem idempotencyExpiry_of_fits (hnow : 0 ≤ now.val)
    (hfits : ¬ (0 < ttl ∧ maxInt64 < now.val + ttl)) :
    ∃ expiresAt, idempotencyExpiry now ttl = .ok expiresAt ∧
      expiresAt.val = if ttl ≤ 0 then 0 else now.val + ttl := by
  unfold idempotencyExpiry
  by_cases httl : ttl ≤ 0
  · rw [dif_pos httl, if_pos httl]
    exact ⟨_, rfl, rfl⟩
  · have hroom : ¬ saturate (maxInt64 - now.val) < ttl := by
      rw [saturate_remaining hnow]
      omega
    rw [dif_neg httl, dif_neg hroom, if_neg httl]
    exact ⟨_, rfl, rfl⟩

end

/-- What `marshalKVEntry` writes at the instant `now`. -/
def writtenEntry (K : Kernel) (now : I64) (entry : IdempotencyEntry) (ttl : ℤ) :
    Except Err Data :=
  match idempotencyExpiry now ttl with
  | .error err => .error err
  | .ok expiresAt =>
      (K.marshalEntry entry).map fun j => .json (.obj [("entry", j), ("exp", .int expiresAt.val)])

theorem alone_marshalKVEntry (K : Kernel) (entry : IdempotencyEntry) (ttl : ℤ) (ch : KvChoice)
    (s : KvState) :
    (marshalKVEntry K entry ttl).alone (exec ch) s = (s, writtenEntry K s.clock entry ttl) := by
  unfold marshalKVEntry timeNow writtenEntry
  rw [alone_perform_bind]
  simp only [exec]
  cases idempotencyExpiry s.clock ttl with
  | error err => rfl
  | ok expiresAt => cases K.marshalEntry entry <;> rfl

/-- An entry that is written with a time to live that does not overflow is found
again at a later time exactly until it has run out; the instant that is stored
with it is the exact end, and is zero only for an entry without an end. -/
theorem entry_codec (K : Kernel) (e : IdempotencyEntry) (d : I64) (s₀ s₁ : KvState)
    (ch₀ ch₁ : KvChoice) (hepoch : 0 ≤ s₀.clock.val)
    (hjson : ∃ j, K.marshalEntry e = .ok j) :
    (0 < d.val ∧ maxInt64 < s₀.clock.val + d.val →
      ∃ err, ((marshalKVEntry K e d.val).alone (exec ch₀) s₀).2 = .error err) ∧
    (¬ (0 < d.val ∧ maxInt64 < s₀.clock.val + d.val) →
      ∃ data expiresAt, ((marshalKVEntry K e d.val).alone (exec ch₀) s₀).2 = .ok data ∧
        decodeEntryPayload K data = .ok (.wrapped e expiresAt) ∧
        (d.val ≤ 0 → expiresAt.val = 0) ∧
        (0 < d.val → expiresAt.val = s₀.clock.val + d.val ∧ expiresAt.val ≠ 0) ∧
        ((decodeKVEntry K data).alone (exec ch₁) s₁).2 =
          .ok (if d.val ≤ 0 ∨ s₁.clock.val < s₀.clock.val + d.val then some e else none)) := by
  rw [alone_marshalKVEntry]
  unfold writtenEntry
  refine ⟨fun ⟨hpos, hmax⟩ => ?_, fun hfits => ?_⟩
  · obtain ⟨err, herr⟩ := idempotencyExpiry_of_overflow hpos hmax
    exact ⟨err, by rw [herr]⟩
  · obtain ⟨expiresAt, hexp, hval⟩ := idempotencyExpiry_of_fits hepoch hfits
    obtain ⟨j, hj⟩ := hjson
    have hdecode := decodeEntryPayload_marshal expiresAt hj
    have hnever : d.val ≤ 0 → expiresAt.val = 0 := fun hd => by rw [hval, if_pos hd]
    -- a positive end is never the zero that stands for no end
    have hend : 0 < d.val → expiresAt.val = s₀.clock.val + d.val ∧ expiresAt.val ≠ 0 := by
      intro hd
      rw [hval, if_neg (by omega)]
      omega
    refine ⟨_, expiresAt, by rw [hexp, hj]; rfl, hdecode, hnever, hend, ?_⟩
    rw [alone_decodeKVEntry]
    simp only [currentEntry]
    rw [hdecode]
    dsimp only
    by_cases hd : d.val ≤ 0
    · rw [if_pos (hnever hd), if_pos (.inl hd)]
    · obtain ⟨hsum, hne⟩ := hend (by omega)
      rw [if_neg hne, hsum]
      by_cases hpast : s₀.clock.val + d.val ≤ s₁.clock.val
      · rw [if_pos hpast, if_neg (by omega)]
      · rw [if_neg hpast, if_pos (by omega)]

/-- A state of an empty bucket at the instant `now`. -/
def KvState.emptyAt (now : I64) : KvState := { KvState.fresh with clock := now }

/-- The last instant that an `int64` can hold. -/
def lastInstant : I64 := .largest

/-- An entry that is written at the first instant and lives to the last one is found in
between; written one instant later it would expire after the last instant, and is refused. -/
theorem entry_codec_last_instant :
    (∃ data expiresAt, ((marshalKVEntry .plain .zero lastInstant.val).alone (exec {})
        (KvState.emptyAt .zero)).2 = .ok data ∧
      decodeEntryPayload .plain data = .ok (.wrapped .zero expiresAt) ∧
      (lastInstant.val ≤ 0 → expiresAt.val = 0) ∧
      (0 < lastInstant.val → expiresAt.val = (KvState.emptyAt .zero).clock.val + lastInstant.val ∧
        expiresAt.val ≠ 0) ∧
      ((decodeKVEntry .plain data).alone (exec {}) (KvState.emptyAt .one)).2 =
        .ok (if lastInstant.val ≤ 0 ∨ (KvState.emptyAt .one).clock.val <
          (KvState.emptyAt .zero).clock.val + lastInstant.val then some .zero else none)) ∧
    ∃ err, ((marshalKVEntry .plain .zero lastInstant.val).alone (exec {})
      (KvState.emptyAt .one)).2 = .error err :=
  ⟨(entry_codec .plain .zero lastInstant (KvState.emptyAt .zero) (KvState.emptyAt .one) {} {}
      (by decide) ⟨_, rfl⟩).2 (by decide),
    (entry_codec .plain .zero lastInstant (KvState.emptyAt .one) (KvState.emptyAt lastInstant) {} {}
      (by decide) ⟨_, rfl⟩).1 (by decide)⟩

/-! ### Texts that are no entry -/

/-- Some call of `marshalKVEntry` has produced the text. -/
def Written (K : Kernel) (data : Data) : Prop :=
  ∃ now entry ttl, writtenEntry K now entry ttl = .ok data

/-- The text is a bare entry, as it was stored before there was a wrapper. -/
def Legacy (K : Kernel) (data : Data) : Prop :=
  ∃ entry j, K.marshalEntry entry = .ok j ∧ data = .json j

/-- The text cannot be read: it is not JSON, or neither an object nor `null`; or
it is an object with the key `entry` that does not decode to a wrapper with an
entry in it; or it is another object, or `null`, that does not decode to a bare
entry. -/
def Unreadable (K : Kernel) : Data → Prop
  | .malformed _ => True
  | .json .null => ∀ entry, K.unmarshalEntry .zero .null ≠ .ok entry
  | .json (.obj fields) =>
      if fields.any fun kv => kv.1 = "entry" then
        ∀ stored, Json.setFields (KVEntryPayload.fields K) ⟨none, .zero⟩ fields = .ok stored →
          stored.entry = none
      else ∀ entry, K.unmarshalEntry .zero (.obj fields) ≠ .ok entry
  | .json _ => True

section
variable {K : Kernel} {s : KvState} {key requestHash token : String} {leaseTTL : ℤ}

/-- The decoder of a bare entry rejects what it cannot read. -/
theorem decodeEntryPayload_legacy {j : Json} {fields : List (String × Json)}
    (hmap : Json.unmarshalMap j = .ok fields)
    (hkey : (fields.any fun kv => kv.1 = "entry") = false) :
    (∃ err, decodeEntryPayload K (.json j) = .error err) ↔
      ∀ entry, K.unmarshalEntry .zero j ≠ .ok entry := by
  simp only [decodeEntryPayload, hmap, hkey, Bool.false_eq_true, if_false]
  cases K.unmarshalEntry .zero j <;> simp

theorem unreadable_iff (data : Data) :
    Unreadable K data ↔ ∃ err, decodeEntryPayload K data = .error err := by
  cases data with
  | malformed bytes => simp [Unreadable, decodeEntryPayload]
  | json j =>
      cases j with
      | null => exact (decodeEntryPayload_legacy rfl rfl).symm
      | obj fields =>
          cases hkey : fields.any fun kv => kv.1 = "entry" with
          | false =>
              simp only [Unreadable, hkey, Bool.false_eq_true, if_false]
              exact (decodeEntryPayload_legacy rfl hkey).symm
          | true =>
              simp only [Unreadable, decodeEntryPayload, Json.unmarshalMap, hkey, if_true,
                Json.unmarshalStruct]
              cases Json.setFields (KVEntryPayload.fields K) ⟨none, .zero⟩ fields with
              | error err => simp
              | ok stored => cases hentry : stored.entry <;> simp [hentry]
      | _ => simp [Unreadable, decodeEntryPayload, Json.unmarshalMap]

/-- An uninterrupted call of `Get`. -/
def getAlone (K : Kernel) (s : KvState) (key : String) : IdempotencyEntry × Bool :=
  ((get K key).alone (exec (calm "")) s).2

theorem getAlone_eq :
    getAlone K s key =
      match standingEntry K s key with
      | .error _ => (.zero, true)
      | .ok (some entry) => (entry, true)
      | .ok none => (.zero, false) := by
  unfold getAlone get
  rw [alone_bind, alone_loadEntry]
  rcases standingEntry K s key with err | _ | entry <;> rfl

/-- An entry that stands decides `Claim`, and so does one that cannot be read. -/
theorem claimAlone_error_iff (hne : standingEntry K s key ≠ .ok none) :
    (∃ err, claimAlone K token s key requestHash leaseTTL = .error err) ↔
      ∃ err, standingEntry K s key = .error err := by
  have hload : (loadEntry K key).alone (exec (calm token)) s = (s, standingEntry K s key) :=
    alone_loadEntry token
  unfold claimAlone claim ctxErr
  rw [alone_perform_bind]
  simp only [exec, calm] at hload ⊢
  by_cases hkey : key = ""
  · simp [hkey, standingEntry]
  · rw [if_neg hkey, alone_bind, hload]
    cases hstanding : standingEntry K s key with
    | error err => simp
    | ok found =>
        cases found with
        | none => exact absurd hstanding hne
        | some entry =>
            dsimp only
            split <;> simp

/-- The clock decides whether a readable entry still stands, not whether it is
readable. -/
theorem currentEntry_error_iff (now : I64) (data : Data) :
    (∃ err, currentEntry K now data = .error err) ↔
      ∃ err, decodeEntryPayload K data = .error err := by
  unfold currentEntry
  cases decodeEntryPayload K data with
  | error err => simp
  | ok decoded =>
      cases decoded with
      | legacy entry => simp
      | wrapped entry expiresAt =>
          dsimp only
          split_ifs <;> simp

end

/-- `Claim` returns an error, and `Get` reports that there is an entry. -/
def FailsClosed (K : Kernel) (token : String) (s : KvState) (key requestHash : String)
    (leaseTTL : ℤ) : Prop :=
  (∃ err, claimAlone K token s key requestHash leaseTTL = .error err) ∧
    (getAlone K s key).2 = true

/-- Whatever text stands under the entry key, the coordinator fails closed
exactly if the text cannot be read. -/
theorem failsClosed_iff (K : Kernel) (token : String) (s : KvState) (key requestHash : String)
    (leaseTTL : ℤ) (data : Data) (r : ℕ) (hkey : key ≠ "")
    (hdata : s.kv.read (entryPrefix ++ key) = some (data, r)) :
    FailsClosed K token s key requestHash leaseTTL ↔ Unreadable K data := by
  have hstanding : standingEntry K s key = currentEntry K s.clock data := by
    simp only [standingEntry, if_neg hkey, hdata]
  have hread : Unreadable K data ↔ ∃ err, standingEntry K s key = .error err := by
    rw [unreadable_iff, hstanding, currentEntry_error_iff]
  rw [hread, FailsClosed, getAlone_eq]
  by_cases hnone : standingEntry K s key = .ok none
  · -- an entry that has expired is reported as missing
    simp [hnone]
  · rw [claimAlone_error_iff hnone]
    cases hs : standingEntry K s key with
    | error err => simp
    | ok found =>
        cases found with
        | none => exact absurd hs hnone
        | some entry => simp

/-- A bucket in which the text stands under the entry key of `k`. -/
def KvState.holding (data : Data) : KvState :=
  { KvState.fresh with kv := Store.empty.write (entryPrefix ++ "k") (some data) }

/-- A text that is cut off after its first byte. -/
theorem failsClosed_truncated :
    FailsClosed .plain "t" (.holding (.malformed [0x7b])) "k" "h" 10 :=
  (failsClosed_iff .plain "t" (.holding (.malformed [0x7b])) "k" "h" 10 (.malformed [0x7b]) 1
    (by decide) rfl).mpr trivial

/-! ### A Kernel that decodes as `encoding/json` does -/

def unmarshalInteger (old : ℤ) : Json → Except Err ℤ
  | .null => .ok old
  | .int i => .ok i
  | _ => .error Json.unmarshalErr

def unmarshalByte : Json → Except Err UInt8
  | .int i => if 0 ≤ i ∧ i < 256 then .ok (UInt8.ofNat i.toNat) else .error Json.unmarshalErr
  | _ => .error Json.unmarshalErr

def unmarshalByteList : List Json → Except Err Bytes
  | [] => .ok []
  | elem :: elems =>
      match unmarshalByte elem, unmarshalByteList elems with
      | .ok b, .ok bytes => .ok (b :: bytes)
      | .error err, _ | _, .error err => .error err

def unmarshalBytes : Json → Except Err Bytes
  | .null => .ok []
  | .arr elems => unmarshalByteList elems
  | _ => .error Json.unmarshalErr

def IdempotencyEntry.fields : List (Json.Field IdempotencyEntry) :=
  [⟨"status", fun e v => (unmarshalInteger e.status v).map fun x => { e with status := x }⟩,
   ⟨"body", fun e v => (unmarshalBytes v).map fun x => { e with body := x }⟩,
   ⟨"stored_at", fun e v =>
      (unmarshalInteger e.storedAt v).map fun x => { e with storedAt := x }⟩,
   ⟨"request_hash", fun e v =>
      (Json.unmarshalString e.requestHash v).map fun x => { e with requestHash := x }⟩]

theorem unmarshalByteList_map (bytes : Bytes) :
    unmarshalByteList (bytes.map fun b => .int b.toNat) = .ok bytes := by
  induction bytes with
  | nil => rfl
  | cons b bytes ih =>
      have hb : (0 : ℤ) ≤ b.toNat ∧ (b.toNat : ℤ) < 256 := by
        have := b.toNat_lt
        omega
      simp [unmarshalByteList, unmarshalByte, ih, hb]

/-- The entry is a struct: its fields are found by their names, unknown keys are
skipped, and `null` leaves it as it is. -/
def Kernel.struct : Kernel where
  defaultIdempotencyLeaseTTL := 30
  marshalEntry := Kernel.plain.marshalEntry
  unmarshalEntry := Json.unmarshalStruct IdempotencyEntry.fields
  unmarshal_marshal {e j} h := by
    cases h
    simp [Json.unmarshalStruct, Json.setFields, Json.findField, IdempotencyEntry.fields,
      unmarshalInteger, unmarshalBytes, unmarshalByteList_map, Json.unmarshalString, Except.map]
  marshal_ne_null := Kernel.plain.marshal_ne_null

/-- The empty object, which no coordinator has written, is taken for the outcome
of a completed request. -/
theorem emptyObject_completes :
    ¬ Written .struct (.json (.obj [])) ∧ ¬ Legacy .struct (.json (.obj [])) ∧
      (KvState.holding (.json (.obj []))).kv.read (entryPrefix ++ "k") =
        some (.json (.obj []), 1) ∧
      claimAlone .struct "t" (.holding (.json (.obj []))) "k" "h" 10 =
        .ok { state := .completed, entry := .zero } ∧
      ¬ FailsClosed .struct "t" (.holding (.json (.obj []))) "k" "h" 10 := by
  refine ⟨?_, ?_, rfl, rfl, ?_⟩
  · rintro ⟨now, entry, ttl, h⟩
    unfold writtenEntry at h
    split at h <;> cases h
  · rintro ⟨entry, j, hj, h⟩
    cases h
    cases hj
  · rintro ⟨⟨err, h⟩, -⟩
    cases h

end TransportNats.Idempotency
