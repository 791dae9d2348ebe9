import TransportNats.Errors
import Mathlib.Algebra.Order.Group.Int

/-!
The parts of Go and of its standard library that stored records depend on:
`int64` values, saturating time arithmetic, and `encoding/json`.

A stored byte string matters to the program only through what
`encoding/json` reads in it, so it is represented by its syntax tree, or kept
as it is when it is not a JSON text. An integer literal is a tree of its own
because only such a literal decodes into an `int64`.
-/

namespace TransportNats

abbrev Bytes := List UInt8

/-- The bytes of a Go string. -/
def bytesOf (s : String) : Bytes := s.toUTF8.data.toList

/-! ### Fixed-width integers -/

def minInt64 : ℤ := -2 ^ 63

def maxInt64 : ℤ := 2 ^ 63 - 1

/-- A Go `int64`. -/
structure I64 where
  val : ℤ
  lo : minInt64 ≤ val
  hi : val ≤ maxInt64
  deriving DecidableEq

namespace I64

def zero : I64 := ⟨0, by decide, by decide⟩

def one : I64 := ⟨1, by decide, by decide⟩

def largest : I64 := ⟨maxInt64, by decide, le_refl maxInt64⟩

/-- The `int64` of an integer that fits. -/
def ofInt? (i : ℤ) : Option I64 :=
  if h : minInt64 ≤ i ∧ i ≤ maxInt64 then some ⟨i, h.1, h.2⟩ else none

@[simp] theorem ofInt?_val (x : I64) : ofInt? x.val = some x := by
  simp [ofInt?, x.lo, x.hi]

/-- A later instant, at most the last one an `int64` can hold. -/
def advance (x : I64) (d : ℕ) : I64 :=
  ⟨min (x.val + d) maxInt64,
    le_min (x.lo.trans (Int.le_add_of_nonneg_right (Int.natCast_nonneg d))) (by decide),
    min_le_right _ _⟩

theorem le_advance (x : I64) (d : ℕ) : x.val ≤ (x.advance d).val :=
  le_min (Int.le_add_of_nonneg_right (Int.natCast_nonneg d)) x.hi

end I64

/-- The `Duration` nearest to a difference of times. -/
def saturate (d : ℤ) : ℤ := max minInt64 (min d maxInt64)

theorem saturate_le {d : ℤ} (hd : minInt64 ≤ d) : saturate d ≤ d :=
  max_le hd (min_le_left _ _)

/-! ### JSON -/

inductive Json
  | null
  | bool (b : Bool)
  | int (i : ℤ)
  | real (literal : String)
  | str (s : String)
  | arr (elems : List Json)
  | obj (fields : List (String × Json))

/-- The contents of a stored value. -/
inductive Data
  | json (j : Json)
  | malformed (bytes : Bytes)

namespace Json

/-- What every failed `json.Unmarshal` of this model returns. -/
def unmarshalErr : Err := .other "json: cannot unmarshal" none

def unmarshalString (old : String) : Json → Except Err String
  | .null => .ok old
  | .str s => .ok s
  | _ => .error unmarshalErr

def unmarshalInt64 (old : I64) : Json → Except Err I64
  | .null => .ok old
  | .int i =>
      match I64.ofInt? i with
      | some x => .ok x
      | none => .error unmarshalErr
  | _ => .error unmarshalErr

/-- The representative of a rune under the simple case folding, as far as it
decides equality with an ASCII field name. -/
def foldRune (c : Char) : Char :=
  if c = 'K' then 'K' else if c = 'ſ' then 'S' else c.toUpper

def foldName (s : String) : List Char := s.toList.map foldRune

/-- A field of a Go struct: its JSON name and how a value is decoded into it. -/
structure Field (T : Type) where
  name : String
  set : T → Json → Except Err T

/-- The field a key names: the one with exactly that name, else the first one
with that name up to case. -/
def findField {T : Type} (fields : List (Field T)) (key : String) : Option (Field T) :=
  match fields.find? fun f => f.name = key with
  | some f => some f
  | none => fields.find? fun f => foldName f.name = foldName key

/-- Decode an object into a struct, key by key; unknown keys are skipped. -/
def setFields {T : Type} (fields : List (Field T)) (t : T) : List (String × Json) → Except Err T
  | [] => .ok t
  | (key, value) :: rest =>
      match findField fields key with
      | none => setFields fields t rest
      | some f =>
          match f.set t value with
          | .error err => .error err
          | .ok t' => setFields fields t' rest

def unmarshalStruct {T : Type} (fields : List (Field T)) (t : T) : Json → Except Err T
  | .null => .ok t
  | .obj kvs => setFields fields t kvs
  | _ => .error unmarshalErr

/-- Decode into a `map[string]json.RawMessage`, as its list of entries. -/
def unmarshalMap : Json → Except Err (List (String × Json))
  | .null => .ok []
  | .obj kvs => .ok kvs
  | _ => .error unmarshalErr

end Json

end TransportNats
