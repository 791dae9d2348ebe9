import Mathlib.Data.List.Basic

/-!
The standard base64 encoding, with padding.

Three bytes become four characters of the alphabet, and a last group of one or
two bytes is padded. Decoding ignores line breaks wherever they stand. The bits
that the padding leaves over are not looked at, so different texts can decode to
the same bytes; what was encoded is decoded to itself.
-/

namespace Base64

def pad : UInt8 := 61

/-- The character of a value below 64. -/
def code (v : ℕ) : UInt8 :=
  if v < 26 then UInt8.ofNat (65 + v)
  else if v < 52 then UInt8.ofNat (97 + (v - 26))
  else if v < 62 then UInt8.ofNat (48 + (v - 52))
  else if v = 62 then 43
  else 47

/-- The value of a character of the alphabet. -/
def value? (c : UInt8) : Option ℕ :=
  if 65 ≤ c ∧ c ≤ 90 then some (c.toNat - 65)
  else if 97 ≤ c ∧ c ≤ 122 then some (c.toNat - 97 + 26)
  else if 48 ≤ c ∧ c ≤ 57 then some (c.toNat - 48 + 52)
  else if c = 43 then some 62
  else if c = 47 then some 63
  else none

def encode : List UInt8 → List UInt8
  | [] => []
  | [a] => [code (a.toNat / 4), code (a.toNat % 4 * 16), pad, pad]
  | [a, b] =>
      [code (a.toNat / 4), code (a.toNat % 4 * 16 + b.toNat / 16), code (b.toNat % 16 * 4), pad]
  | a :: b :: c :: rest =>
      code (a.toNat / 4) :: code (a.toNat % 4 * 16 + b.toNat / 16) ::
        code (b.toNat % 16 * 4 + c.toNat / 64) :: code (c.toNat % 64) :: encode rest

/-- The bytes of groups of four characters, of which only the last one may be
padded. -/
def decodeGroups : List UInt8 → Option (List UInt8)
  | [] => some []
  | a :: b :: c :: d :: rest => do
      let x ← value? a
      let y ← value? b
      if d = pad then
        if rest ≠ [] then none
        else if c = pad then return [UInt8.ofNat (x * 4 + y / 16)]
        else
          let z ← value? c
          return [UInt8.ofNat (x * 4 + y / 16), UInt8.ofNat (y % 16 * 16 + z / 4)]
      else
        let z ← value? c
        let w ← value? d
        let bytes ← decodeGroups rest
        return UInt8.ofNat (x * 4 + y / 16) :: UInt8.ofNat (y % 16 * 16 + z / 4) ::
          UInt8.ofNat (z % 4 * 64 + w) :: bytes
  | _ => none

def isBreak (c : UInt8) : Bool := c = 10 || c = 13

def decode (text : List UInt8) : Option (List UInt8) :=
  decodeGroups (text.filter fun c => !isBreak c)

theorem value?_code {v : ℕ} (h : v < 64) : value? (code v) = some v := by
  revert v
  decide

theorem code_ne_pad {v : ℕ} (h : v < 64) : code v ≠ pad := by
  revert v
  decide

theorem isBreak_code {v : ℕ} (h : v < 64) : isBreak (code v) = false := by
  revert v
  decide

/-! ### Round trip -/

theorem ofNat_eq {a : UInt8} {n : ℕ} (h : n = a.toNat) : UInt8.ofNat n = a := by
  rw [h]
  exact UInt8.ofNat_toNat

theorem not_isBreak_encode (bytes : List UInt8) : ∀ c ∈ encode bytes, isBreak c = false := by
  have hpad : isBreak pad = false := by decide
  fun_induction encode bytes with
  | case1 => simp
  | case2 a =>
      have ha := a.toNat_lt
      simp (disch := omega) [isBreak_code, hpad]
  | case3 a b =>
      have ha := a.toNat_lt
      have hb := b.toNat_lt
      simp (disch := omega) [isBreak_code, hpad]
  | case4 a b c rest ih =>
      have ha := a.toNat_lt
      have hb := b.toNat_lt
      have hc := c.toNat_lt
      simp (disch := omega) only [List.forall_mem_cons, isBreak_code, true_and]
      exact ih

theorem decodeGroups_encode (bytes : List UInt8) : decodeGroups (encode bytes) = some bytes := by
  fun_induction encode bytes with
  | case1 => rfl
  | case2 a =>
      have ha := a.toNat_lt
      have h₁ : UInt8.ofNat (a.toNat / 4 * 4 + a.toNat % 4 * 16 / 16) = a := ofNat_eq (by omega)
      simp (disch := omega) only [decodeGroups, value?_code, Option.bind_eq_bind,
        Option.bind_some, if_true, ne_eq, not_true_eq_false, if_false, h₁]
      rfl
  | case3 a b =>
      have ha := a.toNat_lt
      have hb := b.toNat_lt
      have h₁ : UInt8.ofNat (a.toNat / 4 * 4 + (a.toNat % 4 * 16 + b.toNat / 16) / 16) = a :=
        ofNat_eq (by omega)
      have h₂ : UInt8.ofNat ((a.toNat % 4 * 16 + b.toNat / 16) % 16 * 16 +
          b.toNat % 16 * 4 / 4) = b := ofNat_eq (by omega)
      simp (disch := omega) only [decodeGroups, value?_code, code_ne_pad, Option.bind_eq_bind,
        Option.bind_some, if_true, ne_eq, not_true_eq_false, if_false, h₁, h₂]
      rfl
  | case4 a b c rest ih =>
      have ha := a.toNat_lt
      have hb := b.toNat_lt
      have hc := c.toNat_lt
      have h₁ : UInt8.ofNat (a.toNat / 4 * 4 + (a.toNat % 4 * 16 + b.toNat / 16) / 16) = a :=
        ofNat_eq (by omega)
      have h₂ : UInt8.ofNat ((a.toNat % 4 * 16 + b.toNat / 16) % 16 * 16 +
          (b.toNat % 16 * 4 + c.toNat / 64) / 4) = b := ofNat_eq (by omega)
      have h₃ : UInt8.ofNat ((b.toNat % 16 * 4 + c.toNat / 64) % 4 * 64 + c.toNat % 64) = c :=
        ofNat_eq (by omega)
      simp (disch := omega) only [decodeGroups, value?_code, code_ne_pad, Option.bind_eq_bind,
        Option.bind_some, if_false, ih, h₁, h₂, h₃]
      rfl

theorem decode_encode (bytes : List UInt8) : decode (encode bytes) = some bytes := by
  have hfilter : (encode bytes).filter (fun c => !isBreak c) = encode bytes := by
    apply List.filter_eq_self.mpr
    intro c hc
    rw [not_isBreak_encode bytes c hc]
    rfl
  rw [decode, hfilter, decodeGroups_encode]

end Base64
