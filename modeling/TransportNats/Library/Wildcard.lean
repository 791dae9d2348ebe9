import Mathlib.Logic.Nontrivial.Basic
import Mathlib.Data.List.Basic

/-!
Patterns over sequences of tokens.

A pattern names a token or leaves it open, piece by piece, and may end in a
tail that stands for one token or more. One pattern includes another if it
matches all that the other matches. Over a type with two tokens this is a
property of the pieces alone, which `included_iff` states: pieces are compared
one by one, and only a tail includes a tail.
-/

namespace Wildcard

/-- One place of a pattern: a given token, or any token. -/
inductive Piece (τ : Type)
  | lit (t : τ)
  | one
  deriving DecidableEq

/-- A non-empty sequence of pieces, the last of which may be a tail. -/
inductive Pattern (τ : Type)
  | last (p : Piece τ)
  | tail
  | cons (p : Piece τ) (rest : Pattern τ)
  deriving DecidableEq

variable {τ : Type}

namespace Piece

def Accepts : Piece τ → τ → Prop
  | .lit t, u => t = u
  | .one, _ => True

/-- The piece accepts every token the other one accepts. -/
def Covers : Piece τ → Piece τ → Prop
  | .one, _ => True
  | .lit t, .lit u => t = u
  | .lit _, .one => False

/-- Some token is accepted, whatever the piece. -/
theorem exists_accepts [Nonempty τ] (p : Piece τ) : ∃ t, p.Accepts t := by
  cases p with
  | lit t => exact ⟨t, rfl⟩
  | one => exact ⟨Classical.arbitrary τ, trivial⟩

theorem Covers.accepts {p q : Piece τ} (h : p.Covers q) {t : τ} (ht : q.Accepts t) :
    p.Accepts t := by
  cases p with
  | one => trivial
  | lit u =>
      cases q with
      | one => exact h.elim
      | lit v => exact Eq.trans h ht

/-- A token that an open place accepts and a given one does not needs a second
token. -/
theorem covers_of_accepts [Nontrivial τ] {p q : Piece τ}
    (h : ∀ t, q.Accepts t → p.Accepts t) : p.Covers q := by
  cases p with
  | one => trivial
  | lit u =>
      cases q with
      | lit v => exact h v rfl
      | one =>
          obtain ⟨t, ht⟩ := exists_ne u
          exact ht (h t trivial).symm

end Piece

namespace Pattern

def Matches : Pattern τ → List τ → Prop
  | .last p, [t] => p.Accepts t
  | .tail, _ :: _ => True
  | .cons p rest, t :: ts => p.Accepts t ∧ rest.Matches ts
  | _, _ => False

@[simp] theorem not_matches_nil (p : Pattern τ) : ¬ p.Matches [] := by
  cases p <;> exact id

@[simp] theorem matches_tail (t : τ) (ts : List τ) : (tail : Pattern τ).Matches (t :: ts) :=
  trivial

@[simp] theorem matches_cons (p : Piece τ) (rest : Pattern τ) (t : τ) (ts : List τ) :
    (cons p rest).Matches (t :: ts) ↔ p.Accepts t ∧ rest.Matches ts := Iff.rfl

@[simp] theorem matches_last (p : Piece τ) (t : τ) : (last p).Matches [t] ↔ p.Accepts t := Iff.rfl

@[simp] theorem not_matches_last (p : Piece τ) (t u : τ) (ts : List τ) :
    ¬ (last p).Matches (t :: u :: ts) := id

/-- Every pattern matches something. -/
theorem exists_matches [Nonempty τ] (p : Pattern τ) : ∃ t ts, p.Matches (t :: ts) := by
  induction p with
  | last p =>
      obtain ⟨t, ht⟩ := p.exists_accepts
      exact ⟨t, [], ht⟩
  | tail => exact ⟨Classical.arbitrary τ, [], trivial⟩
  | cons p rest ih =>
      obtain ⟨t, ht⟩ := p.exists_accepts
      obtain ⟨u, us, hus⟩ := ih
      exact ⟨t, u :: us, ht, hus⟩

/-- Piece by piece, with a tail in the first pattern for whatever is left of
the second. -/
def Included : Pattern τ → Pattern τ → Prop
  | .tail, _ => True
  | .last p, .last q => p.Covers q
  | .cons p rest, .cons q rest' => p.Covers q ∧ rest.Included rest'
  | _, _ => False

theorem Included.refl (p : Pattern τ) : p.Included p := by
  induction p with
  | last p => cases p <;> simp [Included, Piece.Covers]
  | tail => trivial
  | cons p rest ih => exact ⟨by cases p <;> simp [Piece.Covers], ih⟩

theorem Included.matches {p s : Pattern τ} (h : p.Included s) {ts : List τ}
    (hs : s.Matches ts) : p.Matches ts := by
  induction p generalizing s ts with
  | tail =>
      cases ts with
      | nil => exact absurd hs (not_matches_nil s)
      | cons t ts => trivial
  | last p =>
      cases s with
      | last q =>
          match ts, hs with
          | [t], hs => exact Piece.Covers.accepts h hs
      | tail | cons => exact h.elim
  | cons p rest ih =>
      cases s with
      | cons q rest' =>
          match ts, hs with
          | t :: ts, hs => exact ⟨h.1.accepts hs.1, ih h.2 hs.2⟩
      | tail | last => exact h.elim

/-- What matches both first pieces leaves the inclusion of the rest. -/
theorem included_rest [Nonempty τ] {p q : Piece τ} {rest rest' : Pattern τ}
    (h : ∀ ts, (cons q rest').Matches ts → (cons p rest).Matches ts) :
    ∀ ts, rest'.Matches ts → rest.Matches ts := by
  intro ts hts
  obtain ⟨t, ht⟩ := q.exists_accepts
  exact (h (t :: ts) ⟨ht, hts⟩).2

/-- Inclusion of what is matched is inclusion of the pieces. -/
theorem included_iff [Nontrivial τ] (p s : Pattern τ) :
    (∀ ts, s.Matches ts → p.Matches ts) ↔ p.Included s := by
  refine ⟨fun h => ?_, fun h ts => h.matches⟩
  induction p generalizing s with
  | tail => trivial
  | last p =>
      cases s with
      | last q => exact Piece.covers_of_accepts fun t ht => h [t] ht
      | tail =>
          -- a tail also matches two tokens
          obtain ⟨t, ht⟩ := p.exists_accepts
          exact h [t, t] trivial
      | cons q rest' =>
          obtain ⟨t, ht⟩ := q.exists_accepts
          obtain ⟨u, us, hus⟩ := rest'.exists_matches
          exact h (t :: u :: us) ⟨ht, hus⟩
  | cons p rest ih =>
      cases s with
      | cons q rest' =>
          refine ⟨Piece.covers_of_accepts fun t ht => ?_, ih rest' (included_rest h)⟩
          obtain ⟨u, us, hus⟩ := rest'.exists_matches
          exact (h (t :: u :: us) ⟨ht, hus⟩).1
      | last q =>
          -- one token is too few for two pieces
          obtain ⟨t, ht⟩ := q.exists_accepts
          exact absurd (h [t] ht).2 (not_matches_nil rest)
      | tail =>
          obtain ⟨t, ht⟩ := p.exists_accepts
          exact absurd (h [t] trivial).2 (not_matches_nil rest)

end Pattern

end Wildcard
