import TransportNats.Go
import TransportNats.Library.Loop
import TransportNats.Library.Wildcard

/-!
Subjects and subject patterns.

On the wire a pattern is a byte string whose tokens are separated by dots; a
lone star stands for any token, and a lone greater-than sign at the end for one
token or more. `Pattern Literal` is its syntax, so that only well-formed
patterns are patterns, and `render` writes it down.

`subjectPatternCovers` walks two such byte strings by index, token by token. It
takes a star in the first pattern to cover any token of the second, also the
final greater-than sign, which stands for more than a star does.
-/

namespace TransportNats.Stream

open Wildcard

/-! ### The walk over two strings -/

def dot : UInt8 := 46

/-- The token `*`. -/
def starToken : Bytes := [42]

/-- The token `>`. -/
def tailToken : Bytes := [62]

/-- Where the scan for the next dot stops. -/
def tokenEnd (s : Bytes) (start : ℕ) : ℕ :=
  start + ((s.drop start).takeWhile fun b => b ≠ dot).length

/-- `s[start:stop]`. -/
def slice (s : Bytes) (start stop : ℕ) : Bytes := (s.drop start).take (stop - start)

/-- One round of the loop of `subjectPatternCovers`, from `patternStart` and `subjectStart`. -/
def coversStep (pattern subject : Bytes) : ℕ × ℕ → (ℕ × ℕ) ⊕ Bool
  | (patternStart, subjectStart) =>
      let patternEnd := tokenEnd pattern patternStart
      let subjectEnd := tokenEnd subject subjectStart
      let patternToken := slice pattern patternStart patternEnd
      if patternToken = tailToken then .inr (decide (subjectStart < subject.length))
      else if subject.length ≤ subjectStart ∨
          (patternToken ≠ starToken ∧ patternToken ≠ slice subject subjectStart subjectEnd) then
        .inr false
      else if patternEnd = pattern.length ∨ subjectEnd = subject.length then
        .inr (decide (patternEnd = pattern.length ∧ subjectEnd = subject.length))
      else .inl (patternEnd + 1, subjectEnd + 1)

/-- The loop. Every round moves past a dot of the pattern, which bounds the number of
rounds. -/
def coversFrom (pattern subject : Bytes) (rounds patternStart subjectStart : ℕ) : Bool :=
  (Loop.run (coversStep pattern subject) rounds (patternStart, subjectStart)).getD false

def subjectPatternCovers (pattern subject : Bytes) : Bool :=
  if pattern = subject then true else coversFrom pattern subject (pattern.length + 1) 0 0

theorem tokenEnd_le {s : Bytes} {start : ℕ} (h : start ≤ s.length) :
    tokenEnd s start ≤ s.length := by
  have hle := (List.takeWhile_prefix (l := s.drop start) fun b => decide (b ≠ dot)).length_le
  rw [List.length_drop] at hle
  unfold tokenEnd
  omega

/-- The loop returns, whatever the two strings are. -/
theorem exists_run_coversStep (pattern subject : Bytes) :
    ∃ b, Loop.run (coversStep pattern subject) (pattern.length + 1) (0, 0) = some b := by
  refine Loop.exists_run (I := fun s : ℕ × ℕ => s.1 ≤ pattern.length)
    (m := fun s : ℕ × ℕ => pattern.length - s.1) ?_ (Nat.zero_le _)
    (Nat.lt_succ_of_le (Nat.sub_le _ _))
  rintro ⟨i, j⟩ s' hi h
  have hstop := tokenEnd_le hi
  have hstart : i ≤ tokenEnd pattern i := Nat.le_add_right _ _
  simp only [coversStep] at h
  split_ifs at h with htail hno hend
  cases h
  have hmore : tokenEnd pattern i ≠ pattern.length := fun heq => hend (.inl heq)
  constructor <;> simp only at hi hstop hstart ⊢ <;> omega

/-! ### The syntax of patterns -/

/-- A token that stands for itself. -/
structure Literal where
  bytes : Bytes
  ne_nil : bytes ≠ []
  dot_free : dot ∉ bytes
  ne_star : bytes ≠ starToken
  ne_tail : bytes ≠ tailToken
  deriving DecidableEq

instance : Nontrivial Literal :=
  ⟨⟨[97], by decide, by decide, by decide, by decide⟩,
    ⟨[98], by decide, by decide, by decide, by decide⟩, by decide⟩

/-- The token of a piece. -/
def token : Piece Literal → Bytes
  | .lit t => t.bytes
  | .one => starToken

def render : Pattern Literal → Bytes
  | .last p => token p
  | .tail => tailToken
  | .cons p rest => token p ++ dot :: render rest

/-- The first token of a pattern. -/
def head : Pattern Literal → Bytes
  | .last p | .cons p _ => token p
  | .tail => tailToken

/-- What a pattern writes behind its first token. -/
def after : Pattern Literal → Bytes
  | .last _ | .tail => []
  | .cons _ rest => dot :: render rest

theorem render_eq (P : Pattern Literal) : render P = head P ++ after P := by
  cases P <;> simp [render, head, after]

theorem token_ne_nil (p : Piece Literal) : token p ≠ [] := by
  cases p with
  | lit t => exact t.ne_nil
  | one => decide

theorem dot_notMem_token (p : Piece Literal) : dot ∉ token p := by
  cases p with
  | lit t => exact t.dot_free
  | one => decide

theorem token_ne_tail (p : Piece Literal) : token p ≠ tailToken := by
  cases p with
  | lit t => exact t.ne_tail
  | one => decide

theorem head_ne_nil (P : Pattern Literal) : head P ≠ [] := by
  cases P with
  | last p | cons p => exact token_ne_nil p
  | tail => decide

theorem dot_notMem_head (P : Pattern Literal) : dot ∉ head P := by
  cases P with
  | last p | cons p => exact dot_notMem_token p
  | tail => decide

/-- The first token is what stands before the first dot. -/
theorem takeWhile_render (P : Pattern Literal) :
    (render P).takeWhile (fun b => b ≠ dot) = head P := by
  have hhead : ∀ b ∈ head P, decide (b ≠ dot) = true := by
    intro b hb
    exact decide_eq_true fun h => dot_notMem_head P (h ▸ hb)
  rw [render_eq, List.takeWhile_append_of_pos hhead]
  cases P <;> simp [after]

theorem token_injective : Function.Injective token := by
  intro p q h
  cases p with
  | lit t =>
      cases q with
      | lit u =>
          obtain ⟨_, _, _, _, _⟩ := t
          obtain ⟨_, _, _, _, _⟩ := u
          cases h
          rfl
      | one => exact absurd h t.ne_star
  | one =>
      cases q with
      | lit u => exact absurd h.symm u.ne_star
      | one => rfl

theorem head_eq_of_render {P Q : Pattern Literal} (h : render P = render Q) :
    head P = head Q ∧ after P = after Q := by
  have hhead : head P = head Q := by rw [← takeWhile_render, h, takeWhile_render]
  rw [render_eq P, render_eq Q, hhead] at h
  exact ⟨hhead, List.append_cancel_left h⟩

theorem render_injective : Function.Injective render := by
  intro P Q h
  induction P generalizing Q with
  | last p =>
      obtain ⟨hhead, hafter⟩ := head_eq_of_render h
      cases Q with
      | last q => rw [token_injective hhead]
      | tail => exact absurd hhead (token_ne_tail p)
      | cons q rest => cases hafter
  | tail =>
      obtain ⟨hhead, hafter⟩ := head_eq_of_render h
      cases Q with
      | last q => exact absurd hhead.symm (token_ne_tail q)
      | tail => rfl
      | cons q rest => cases hafter
  | cons p rest ih =>
      obtain ⟨hhead, hafter⟩ := head_eq_of_render h
      cases Q with
      | last q => cases hafter
      | tail => cases hafter
      | cons q rest' => rw [token_injective hhead, ih (List.cons.inj hafter).2]

/-- Every sequence of non-empty tokens without dots, with `>` only at the end,
is a pattern. -/
theorem exists_render {ts : List Bytes} {t : Bytes}
    (hne : ∀ u ∈ ts ++ [t], u ≠ [] ∧ dot ∉ u) (htail : tailToken ∉ ts) :
    ∃ P, render P = ts.foldr (fun u s => u ++ dot :: s) t := by
  have hpiece : ∀ u : Bytes, u ≠ [] ∧ dot ∉ u → u ≠ tailToken → ∃ p, token p = u := by
    intro u hu hut
    by_cases hstar : u = starToken
    · exact ⟨.one, hstar.symm⟩
    · exact ⟨.lit ⟨u, hu.1, hu.2, hstar, hut⟩, rfl⟩
  induction ts with
  | nil =>
      by_cases ht : t = tailToken
      · exact ⟨.tail, ht.symm⟩
      · obtain ⟨p, hp⟩ := hpiece t (hne t (by simp)) ht
        exact ⟨.last p, hp⟩
  | cons u us ih =>
      obtain ⟨p, hp⟩ := hpiece u (hne u (by simp)) fun h => htail (by simp [h])
      obtain ⟨P, hP⟩ := ih (fun v hv => hne v (List.mem_cons_of_mem _ hv))
        fun h => htail (List.mem_cons_of_mem _ h)
      exact ⟨.cons p P, by rw [render, hp, hP, List.foldr_cons]⟩

/-! ### What the walk decides -/

section
variable {s : Bytes} {start : ℕ} {P : Pattern Literal}

theorem tokenEnd_render (h : s.drop start = render P) :
    tokenEnd s start = start + (head P).length := by
  rw [tokenEnd, h, takeWhile_render]

theorem slice_render (h : s.drop start = render P) :
    slice s start (tokenEnd s start) = head P := by
  rw [slice, tokenEnd_render h, h, render_eq, Nat.add_sub_cancel_left, List.take_left]

theorem length_render (h : s.drop start = render P) :
    s.length = start + (head P).length + (after P).length ∧ start < s.length := by
  have hlen := congrArg List.length h
  rw [List.length_drop, render_eq, List.length_append] at hlen
  have hpos := List.length_pos_of_ne_nil (head_ne_nil P)
  omega

/-- The scan reaches the end of the string at the last piece only. -/
theorem tokenEnd_eq_length (h : s.drop start = render P) :
    tokenEnd s start = s.length ↔ after P = [] := by
  rw [tokenEnd_render h, (length_render h).1, ← List.length_eq_zero_iff]
  omega

theorem drop_tokenEnd {p : Piece Literal} {rest : Pattern Literal}
    (h : s.drop start = render (.cons p rest)) :
    s.drop (tokenEnd s start + 1) = render rest := by
  rw [tokenEnd_render h, Nat.add_assoc, ← List.drop_drop, h, render]
  simp [head, ← List.drop_drop]

end

/-- The one case in which the walk is wrong: a final star of the first pattern
stands where the second one has its tail. -/
def StarMeetsTail : Pattern Literal → Pattern Literal → Prop
  | .last .one, .tail => True
  | .cons p rest, .cons q rest' => p.Covers q ∧ StarMeetsTail rest rest'
  | _, _ => False

/-- The comparison of tokens, where both have a piece. -/
theorem token_covers (p q : Piece Literal) :
    (token p = starToken ∨ token p = token q) ↔ p.Covers q := by
  cases p with
  | one => exact ⟨fun _ => trivial, fun _ => .inl rfl⟩
  | lit t =>
      have ht : token (.lit t) ≠ starToken := t.ne_star
      simp only [ht, false_or]
      cases q with
      | lit u =>
          refine ⟨fun h => ?_, fun h => congrArg Literal.bytes h⟩
          exact Piece.lit.inj (token_injective h)
      | one => exact ⟨fun h => ht h, fun h => h.elim⟩

/-- The comparison of a token with the tail of the second pattern. -/
theorem token_tail (p : Piece Literal) :
    (token p = starToken ∨ token p = tailToken) ↔ p = .one := by
  cases p with
  | one => exact ⟨fun _ => rfl, fun _ => .inl rfl⟩
  | lit t =>
      refine ⟨fun h => ?_, fun h => by cases h⟩
      rcases h with h | h
      · exact absurd h t.ne_star
      · exact absurd h t.ne_tail

theorem coversFrom_round (pattern subject : Bytes) (rounds i j : ℕ) :
    coversFrom pattern subject (rounds + 1) i j =
      (coversStep pattern subject (i, j)).elim
        (fun s => coversFrom pattern subject rounds s.1 s.2) id := by
  rw [coversFrom, Loop.run]
  cases coversStep pattern subject (i, j) <;> rfl

/-- One round of the loop, in terms of the patterns that are left. -/
theorem coversFrom_succ {pattern subject : Bytes} {i j : ℕ} {P S : Pattern Literal}
    (hp : pattern.drop i = render P) (hs : subject.drop j = render S) (rounds : ℕ) :
    coversFrom pattern subject (rounds + 1) i j = true ↔
      head P = tailToken ∨ (head P = starToken ∨ head P = head S) ∧
        ((after P = [] ∧ after S = []) ∨ (after P ≠ [] ∧ after S ≠ [] ∧
          coversFrom pattern subject rounds (tokenEnd pattern i + 1)
            (tokenEnd subject j + 1) = true)) := by
  have hlt := (length_render hs).2
  rw [coversFrom_round]
  simp only [coversStep, slice_render hp, slice_render hs, tokenEnd_eq_length hp,
    tokenEnd_eq_length hs, not_le.mpr hlt, false_or, hlt, decide_true,
    apply_ite (Sum.elim _ _), Sum.elim_inl, Sum.elim_inr, id]
  by_cases htail : head P = tailToken
  · simp [htail]
  · grind

/-- The number of pieces. -/
def pieces : Pattern Literal → ℕ
  | .last _ | .tail => 1
  | .cons _ rest => pieces rest + 1

theorem pieces_le_length (P : Pattern Literal) : pieces P ≤ (render P).length := by
  induction P with
  | last p => exact List.length_pos_of_ne_nil (token_ne_nil p)
  | tail => decide
  | cons p rest ih =>
      simp only [pieces, render, List.length_append, List.length_cons]
      omega

theorem coversFrom_iff {pattern subject : Bytes} {rounds i j : ℕ} {P S : Pattern Literal}
    (hp : pattern.drop i = render P) (hs : subject.drop j = render S) (hr : pieces P ≤ rounds) :
    coversFrom pattern subject rounds i j = true ↔ P.Included S ∨ StarMeetsTail P S := by
  induction P generalizing S rounds i j with
  | tail =>
      obtain ⟨rounds, rfl⟩ := Nat.exists_eq_add_of_le' hr
      rw [pieces, coversFrom_succ hp hs]
      exact ⟨fun _ => .inl trivial, fun _ => .inl rfl⟩
  | last p =>
      obtain ⟨rounds, rfl⟩ := Nat.exists_eq_add_of_le' hr
      rw [pieces, coversFrom_succ hp hs]
      simp only [head, after, token_ne_tail, ne_eq, not_true_eq_false, false_and, or_false,
        false_or, true_and]
      cases S with
      | last q => simp [token_covers, Pattern.Included, StarMeetsTail]
      | tail => cases p <;> simp [token_tail, Pattern.Included, StarMeetsTail]
      | cons q rest' => simp [Pattern.Included, StarMeetsTail]
  | cons p rest ih =>
      obtain ⟨rounds, rfl⟩ := Nat.exists_eq_add_of_le' (Nat.le_of_add_left_le hr)
      rw [coversFrom_succ hp hs]
      simp only [head, after, token_ne_tail, reduceCtorEq, false_and, false_or, ne_eq,
        not_false_eq_true, true_and]
      cases S with
      | last q => simp [Pattern.Included, StarMeetsTail]
      | tail => simp [Pattern.Included, StarMeetsTail]
      | cons q rest' =>
          have hrest := ih (drop_tokenEnd hp) (drop_tokenEnd hs) (Nat.le_of_add_le_add_right hr)
          simp [hrest, token_covers, Pattern.Included, StarMeetsTail, and_or_left]

theorem subjectPatternCovers_iff (P S : Pattern Literal) :
    subjectPatternCovers (render P) (render S) = true ↔ P.Included S ∨ StarMeetsTail P S := by
  unfold subjectPatternCovers
  split
  · rename_i heq
    rw [render_injective heq]
    exact ⟨fun _ => .inl (.refl S), fun _ => rfl⟩
  · exact coversFrom_iff List.drop_zero List.drop_zero
      (Nat.le_succ_of_le (pieces_le_length P))

theorem not_included_of_starMeetsTail {P S : Pattern Literal} (h : StarMeetsTail P S) :
    ¬ P.Included S := by
  induction P generalizing S with
  | tail => exact h.elim
  | last p =>
      cases S with
      | tail => exact id
      | last | cons => cases p <;> exact h.elim
  | cons p rest ih =>
      cases S with
      | cons q rest' => exact fun hi => ih h.2 hi.2
      | last | tail => exact h.elim

/-- `subjectPatternCovers` decides whether every literal subject that the second
pattern matches is matched by the first one, exactly when no final star of the
first pattern meets the tail of the second one behind covered pieces. -/
theorem subjectPatternCovers_decides (P S : Pattern Literal) :
    (subjectPatternCovers (render P) (render S) = true ↔
      ∀ subject, S.Matches subject → P.Matches subject) ↔ ¬ StarMeetsTail P S := by
  rw [subjectPatternCovers_iff, Pattern.included_iff]
  refine ⟨fun h hstar => ?_, fun h => ?_⟩
  · exact not_included_of_starMeetsTail hstar (h.mp (.inr hstar))
  · exact ⟨fun hor => hor.resolve_right h, .inl⟩

/-- The token `a`. -/
def sampleToken : Literal := ⟨[97], by decide, by decide, by decide, by decide⟩

/-- `a.*` is taken to cover `a.>`, which also matches `a.a.a`. -/
theorem star_covers_tail :
    render (.cons (.lit sampleToken) (.last .one)) = [97, 46, 42] ∧
      render (.cons (.lit sampleToken) .tail) = [97, 46, 62] ∧
      subjectPatternCovers [97, 46, 42] [97, 46, 62] = true ∧
      Pattern.Matches (.cons (.lit sampleToken) .tail) [sampleToken, sampleToken, sampleToken] ∧
      ¬ Pattern.Matches (.cons (.lit sampleToken) (.last .one))
        [sampleToken, sampleToken, sampleToken] :=
  ⟨by decide, by decide, by decide, ⟨rfl, trivial⟩, fun h => h.2⟩

end TransportNats.Stream
