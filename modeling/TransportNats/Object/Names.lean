import TransportNats.Stream.Subject

/-!
Names of objects and the patterns that select them.

`objectNameMatches` walks a name and a pattern by index, one token of each in a
round. An index at the end of a string says that nothing is left, also when the
string has just gone past its last dot, behind which one more token stands, an
empty one. So a name that ends in a dot is matched as if it did not. Where no
token is empty the walk is the matching of NATS, and it agrees with the walk of
`subjectPatternCovers`, whatever wildcards the two strings hold.
-/

namespace TransportNats.Object

open TransportNats.Stream

/-! ### The loop -/

/-- Where the walk goes on behind a token that stops at `stop`. -/
def nextIdx (s : Bytes) (stop : ℕ) : ℕ := if stop < s.length then stop + 1 else s.length

/-- One round of the loop of `objectNameMatches`, from `nIdx` and `pIdx`. -/
def nameStep (name pattern : Bytes) : ℕ × ℕ → (ℕ × ℕ) ⊕ Bool
  | (nIdx, pIdx) =>
      if pIdx < pattern.length then
        let pEnd := tokenEnd pattern pIdx
        let pToken := slice pattern pIdx pEnd
        if pToken = tailToken then .inr (decide (nIdx < name.length))
        else if name.length ≤ nIdx then .inr false
        else
          let nEnd := tokenEnd name nIdx
          let nToken := slice name nIdx nEnd
          if pToken ≠ starToken ∧ pToken ≠ nToken then .inr false
          else .inl (nextIdx name nEnd, nextIdx pattern pEnd)
      else .inr (decide (nIdx = name.length ∧ pIdx = pattern.length))

/-- Every round moves on in the pattern, which bounds their number. -/
def objectNameMatches (name pattern : Bytes) : Bool :=
  if pattern = [] ∨ pattern = tailToken then true
  else (Loop.run (nameStep name pattern) (pattern.length + 1) (0, 0)).getD false

/-! ### Tokens -/

/-- `strings.Split(s, ".")`. -/
def tokens (s : Bytes) : List Bytes := s.splitOn dot

theorem tokens_ne_nil (s : Bytes) : tokens s ≠ [] := List.splitOn_ne_nil _ _

theorem slice_tokenEnd (s : Bytes) (i : ℕ) :
    slice s i (tokenEnd s i) = (s.drop i).takeWhile fun b => b ≠ dot := by
  rw [slice, tokenEnd, Nat.add_sub_cancel_left]
  exact (List.prefix_iff_eq_take.mp (List.takeWhile_prefix _)).symm

/-- A string is one token, or a token and a dot and what follows. -/
theorem takeWhile_dot (s : Bytes) :
    dot ∉ (s.takeWhile fun b => b ≠ dot) ∧
      (s.takeWhile (fun b => b ≠ dot) = s ∨
        ∃ rest, s = s.takeWhile (fun b => b ≠ dot) ++ dot :: rest) := by
  induction s with
  | nil => simp
  | cons b s ih =>
      by_cases hb : b = dot
      · subst hb
        exact ⟨by simp, .inr ⟨s, by simp⟩⟩
      · rw [List.takeWhile_cons_of_pos (by simpa using hb)]
        refine ⟨by simpa [Ne.symm hb] using ih.1, ?_⟩
        rcases ih.2 with hall | ⟨rest, hrest⟩
        · exact .inl (congrArg (b :: ·) hall)
        · exact .inr ⟨rest, congrArg (b :: ·) hrest⟩

/-- The same for what is left of a string from an index on. -/
theorem tokens_drop {s : Bytes} {i : ℕ} (hi : i ≤ s.length) :
    (tokenEnd s i = s.length ∧ tokens (s.drop i) = [slice s i (tokenEnd s i)]) ∨
      (tokenEnd s i < s.length ∧ tokens (s.drop i) =
        slice s i (tokenEnd s i) :: tokens (s.drop (tokenEnd s i + 1))) := by
  have hlen : (s.drop i).length = s.length - i := List.length_drop
  have hend : tokenEnd s i = i + ((s.drop i).takeWhile fun b => b ≠ dot).length := rfl
  have hcases := takeWhile_dot (s.drop i)
  rw [slice_tokenEnd]
  generalize (s.drop i).takeWhile (fun b => decide (b ≠ dot)) = t at hend hcases ⊢
  obtain ⟨hfree, rfl | ⟨rest, hrest⟩⟩ := hcases
  · exact .inl ⟨by omega, List.splitOn_eq_singleton hfree⟩
  · rw [hrest, List.length_append, List.length_cons] at hlen
    have hdrop : s.drop (tokenEnd s i + 1) = rest := by
      rw [hend, Nat.add_assoc, ← List.drop_drop, hrest]
      simp
    refine .inr ⟨by omega, ?_⟩
    rw [hdrop, tokens, hrest]
    exact List.splitOn_append_cons_self_of_not_mem hfree rest

theorem exists_tokens_drop {s : Bytes} {i : ℕ} (hi : i ≤ s.length) :
    ∃ ts, tokens (s.drop i) = slice s i (tokenEnd s i) :: ts ∧
      (ts = [] ↔ tokenEnd s i = s.length) ∧
      (tokenEnd s i < s.length → ts = tokens (s.drop (tokenEnd s i + 1))) := by
  rcases tokens_drop hi with ⟨hend, htokens⟩ | ⟨hend, htokens⟩
  · exact ⟨[], htokens, ⟨fun _ => hend, fun _ => rfl⟩, fun h => absurd hend h.ne⟩
  · exact ⟨_, htokens, ⟨fun h => absurd h (tokens_ne_nil _), fun h => absurd h hend.ne⟩,
      fun _ => rfl⟩

/-! ### What the loop sees -/

/-- The tokens without an empty one at the end. -/
def seen (ts : List Bytes) : List Bytes := if ts.getLast? = some [] then ts.dropLast else ts

theorem seen_cons (t : Bytes) {ts : List Bytes} (h : ts ≠ []) : seen (t :: ts) = t :: seen ts := by
  obtain ⟨u, us, rfl⟩ := List.exists_cons_of_ne_nil h
  simp only [seen, List.getLast?_cons_cons, List.dropLast_cons_cons]
  split <;> rfl

theorem seen_eq_self {ts : List Bytes} (h : [] ∉ ts) : seen ts = ts :=
  if_neg fun hlast => h (List.mem_of_getLast? hlast)

/-- The tokens that the loop still sees from an index on. -/
def left (s : Bytes) (i : ℕ) : List Bytes := seen (tokens (s.drop i))

section
variable {s : Bytes} {i : ℕ}

theorem lt_nextIdx (hi : i < s.length) :
    i < nextIdx s (tokenEnd s i) ∧ nextIdx s (tokenEnd s i) ≤ s.length := by
  have hle : i ≤ tokenEnd s i := Nat.le_add_right _ _
  unfold nextIdx
  split <;> omega

@[simp] theorem left_length (s : Bytes) : left s s.length = [] := by
  rw [left, List.drop_length]
  rfl

theorem left_of_lt (hi : i < s.length) :
    left s i = slice s i (tokenEnd s i) :: left s (nextIdx s (tokenEnd s i)) := by
  rcases tokens_drop hi.le with ⟨hend, htokens⟩ | ⟨hend, htokens⟩
  · -- the last token is not empty: it begins before the end of the string
    have hne : slice s i (tokenEnd s i) ≠ [] := by
      rw [hend, slice, ← List.length_pos_iff_ne_nil, List.length_take, List.length_drop]
      omega
    rw [nextIdx, if_neg (by omega), left_length, left, htokens]
    exact if_neg (by simpa using hne)
  · rw [nextIdx, if_pos hend, left, htokens, seen_cons _ (tokens_ne_nil _)]
    rfl

theorem isEmpty_left (hi : i ≤ s.length) : (left s i).isEmpty = decide (i = s.length) := by
  rcases hi.lt_or_eq with hlt | rfl
  · rw [left_of_lt hlt, decide_eq_false hlt.ne]
    rfl
  · simp

end

/-- The walk over the tokens of a pattern and of a name. -/
def matchTokens : List Bytes → List Bytes → Bool
  | [], ns => ns.isEmpty
  | p :: ps, ns =>
      if p = tailToken then !ns.isEmpty
      else
        match ns with
        | [] => false
        | n :: ns => decide (p = starToken ∨ p = n) && matchTokens ps ns

section
variable {p n : Bytes} {ps ns : List Bytes}

theorem matchTokens_tail (ps ns : List Bytes) :
    matchTokens (tailToken :: ps) ns = !ns.isEmpty := by
  cases ns <;> simp [matchTokens]

theorem matchTokens_nil_right (h : ps ≠ []) : matchTokens ps [] = false := by
  cases ps with
  | nil => exact absurd rfl h
  | cons p ps => simp [matchTokens]

theorem matchTokens_cons (hp : p ≠ tailToken) :
    matchTokens (p :: ps) (n :: ns) = (decide (p = starToken ∨ p = n) && matchTokens ps ns) := by
  rw [matchTokens, if_neg hp]

theorem matchTokens_of_fits (hp : p ≠ tailToken) (h : ¬ (p ≠ starToken ∧ p ≠ n)) :
    matchTokens (p :: ps) (n :: ns) = matchTokens ps ns := by
  have hfits : p = starToken ∨ p = n := by
    by_contra hne
    exact h (not_or.mp hne)
  rw [matchTokens_cons hp, decide_eq_true hfits, Bool.true_and]

theorem matchTokens_of_misfit (hp : p ≠ tailToken) (h : p ≠ starToken ∧ p ≠ n) :
    matchTokens (p :: ps) (n :: ns) = false := by
  rw [matchTokens_cons hp, decide_eq_false (not_or.mpr h), Bool.false_and]

theorem matchTokens_self (ts : List Bytes) : matchTokens ts ts = true := by
  induction ts with
  | nil => rfl
  | cons t ts ih =>
      by_cases ht : t = tailToken
      · rw [ht, matchTokens_tail]
        rfl
      · rw [matchTokens_cons ht, ih]
        simp

end

/-- The loop returns, and what it returns is decided by the tokens that it sees. -/
theorem run_nameStep (name pattern : Bytes) :
    Loop.run (nameStep name pattern) (pattern.length + 1) (0, 0) =
      some (matchTokens (seen (tokens pattern)) (seen (tokens name))) := by
  refine Loop.run_eq (I := fun s : ℕ × ℕ => s.1 ≤ name.length ∧ s.2 ≤ pattern.length)
    (m := fun s : ℕ × ℕ => pattern.length - s.2)
    (V := fun s : ℕ × ℕ => matchTokens (left pattern s.2) (left name s.1)) ?_ ?_
    ⟨Nat.zero_le _, Nat.zero_le _⟩ (Nat.lt_succ_of_le (Nat.sub_le _ _))
  · rintro ⟨nIdx, pIdx⟩ s' - h
    simp only [nameStep] at h
    split_ifs at h with hp htail hn htoken
    cases h
    have hn := Nat.lt_of_not_le hn
    have hnext := lt_nextIdx hp
    refine ⟨⟨(lt_nextIdx hn).2, hnext.2⟩, by simp only; omega, ?_⟩
    rw [left_of_lt hp, left_of_lt hn, matchTokens_of_fits htail htoken]
  · rintro ⟨nIdx, pIdx⟩ b ⟨hnle, hple⟩ h
    simp only [nameStep] at h
    split_ifs at h with hp htail hn htoken <;> cases h
    · -- the tail needs one more token
      rw [left_of_lt hp, htail, matchTokens_tail, isEmpty_left hnle, ← decide_not]
      exact decide_eq_decide.mpr (by simp only; omega)
    · rw [left_of_lt hp, Nat.le_antisymm hnle hn, left_length, matchTokens_nil_right (by simp)]
    · rw [left_of_lt hp, left_of_lt (Nat.lt_of_not_le hn), matchTokens_of_misfit htail htoken]
    · obtain rfl : pIdx = pattern.length := Nat.le_antisymm hple (Nat.le_of_not_lt hp)
      rw [left_length, matchTokens, isEmpty_left hnle]
      simp

/-- `objectNameMatches` in terms of tokens. The shortcut for a lone `>` is what
the walk would say of any name that has a token to be seen. -/
theorem objectNameMatches_eq {name pattern : Bytes} (hname : name ≠ []) (hpattern : pattern ≠ []) :
    objectNameMatches name pattern = matchTokens (seen (tokens pattern)) (seen (tokens name)) := by
  unfold objectNameMatches
  by_cases htail : pattern = tailToken
  · have hseen : seen (tokens name) ≠ [] := by
      have hleft := isEmpty_left (Nat.zero_le name.length)
      rw [decide_eq_false (fun h => hname (List.length_eq_zero_iff.mp h.symm))] at hleft
      exact fun h => Bool.false_ne_true (hleft.symm.trans (List.isEmpty_iff.mpr h))
    have hlone : seen (tokens tailToken) = [tailToken] := rfl
    rw [if_pos (.inr htail), htail, hlone, matchTokens_tail]
    simpa using hseen
  · rw [if_neg (not_or.mpr ⟨hpattern, htail⟩), run_nameStep]
    rfl

/-! ### The two matchers -/

/-- No token of the string is empty: it is not empty itself, and has no leading,
trailing or doubled dot. -/
def Dotted (s : Bytes) : Prop := [] ∉ tokens s

instance (s : Bytes) : Decidable (Dotted s) := inferInstanceAs (Decidable ([] ∉ tokens s))

theorem Dotted.ne_nil {s : Bytes} (h : Dotted s) : s ≠ [] := by
  rintro rfl
  exact h (by simp [tokens])

/-- On a subject without empty tokens the walk of `subjectPatternCovers` is the one over
tokens. -/
theorem run_coversStep (pattern : Bytes) {subject : Bytes} (hsubject : Dotted subject) :
    Loop.run (coversStep pattern subject) (pattern.length + 1) (0, 0) =
      some (matchTokens (tokens pattern) (tokens subject)) := by
  have hinit : [] ∉ tokens (subject.drop 0) := hsubject
  refine Loop.run_eq (I := fun s : ℕ × ℕ => s.1 ≤ pattern.length ∧ s.2 ≤ subject.length ∧
      [] ∉ tokens (subject.drop s.2))
    (m := fun s : ℕ × ℕ => pattern.length - s.1)
    (V := fun s : ℕ × ℕ =>
      matchTokens (tokens (pattern.drop s.1)) (tokens (subject.drop s.2))) ?_ ?_
    ⟨Nat.zero_le _, Nat.zero_le _, hinit⟩ (Nat.lt_succ_of_le (Nat.sub_le _ _))
  · rintro ⟨i, j⟩ s' ⟨hi, hj, hdotted⟩ h
    obtain ⟨ps, hps, -, hmore⟩ := exists_tokens_drop hi
    obtain ⟨ss, hss, -, hmore'⟩ := exists_tokens_drop hj
    simp only [coversStep] at h
    split_ifs at h with htail hno hend
    cases h
    obtain ⟨hp, hs⟩ := not_or.mp hend
    have hp : tokenEnd pattern i < pattern.length := lt_of_le_of_ne (tokenEnd_le hi) hp
    have hs : tokenEnd subject j < subject.length := lt_of_le_of_ne (tokenEnd_le hj) hs
    have hle : i ≤ tokenEnd pattern i := Nat.le_add_right _ _
    rw [hss, hmore' hs] at hdotted
    refine ⟨⟨hp, hs, fun h => hdotted (List.mem_cons_of_mem _ h)⟩, by simp only; omega, ?_⟩
    rw [hps, hss, matchTokens_of_fits htail (fun h => hno (.inr h)), hmore hp, hmore' hs]
  · rintro ⟨i, j⟩ b ⟨hi, hj, hdotted⟩ h
    obtain ⟨ps, hps, hlast, -⟩ := exists_tokens_drop hi
    obtain ⟨ss, hss, hlast', -⟩ := exists_tokens_drop hj
    have hlt : j < subject.length := by
      refine lt_of_le_of_ne hj fun h => hdotted ?_
      rw [h, List.drop_length]
      exact List.mem_singleton_self _
    simp only [coversStep] at h
    rw [hps, hss]
    split_ifs at h with htail hno hend <;> cases h
    · rw [htail, matchTokens_tail, decide_eq_true hlt]
      rfl
    · exact (matchTokens_of_misfit htail (hno.resolve_left (by omega))).symm
    · rw [matchTokens_of_fits htail fun h => hno (.inr h)]
      simp only [← hlast, ← hlast'] at hend ⊢
      -- one of the two has come to its last token
      rcases hend with rfl | rfl
      · cases ss <;> simp [matchTokens]
      · cases ps with
        | nil => rfl
        | cons p ps =>
            rw [matchTokens_nil_right (by simp)]
            simp

/-- On strings without empty tokens, wildcards or not, the two walks return and
agree. -/
theorem matchers_agree (p s : Bytes) (hp : Dotted p) (hs : Dotted s) :
    objectNameMatches s p = subjectPatternCovers p s ∧
      (∃ b, Loop.run (nameStep s p) (p.length + 1) (0, 0) = some b) ∧
      Loop.run (coversStep p s) (p.length + 1) (0, 0) =
        some (coversFrom p s (p.length + 1) 0 0) := by
  have hcovers := run_coversStep p hs
  have hfrom : coversFrom p s (p.length + 1) 0 0 = matchTokens (tokens p) (tokens s) := by
    rw [coversFrom, hcovers]
    rfl
  refine ⟨?_, ⟨_, run_nameStep s p⟩, by rw [hcovers, hfrom]⟩
  rw [objectNameMatches_eq hs.ne_nil hp.ne_nil, seen_eq_self hp, seen_eq_self hs,
    subjectPatternCovers, hfrom]
  split
  · rename_i heq
    rw [heq, matchTokens_self]
  · rfl

/-- The pattern `*.>` and the subject `>.a.*`, in which the tail does not stand
at the end. -/
theorem matchers_agree_wildcards :
    objectNameMatches [62, 46, 97, 46, 42] [42, 46, 62] = true ∧
      subjectPatternCovers [42, 46, 62] [62, 46, 97, 46, 42] = true := by
  have hagree := (matchers_agree [42, 46, 62] [62, 46, 97, 46, 42]
    (by decide) (by decide)).1
  exact ⟨by decide, hagree ▸ by decide⟩

/-! ### The matching of NATS -/

/-- The tokens of a pattern match those of a name one by one; a star matches any
token, a final tail one or more. -/
inductive TokensMatch : List Bytes → List Bytes → Prop
  | done : TokensMatch [] []
  | token {p n : Bytes} {ps ns : List Bytes} (h : p = starToken ∨ p = n)
      (rest : TokensMatch ps ns) : TokensMatch (p :: ps) (n :: ns)
  | tail (n : Bytes) (ns : List Bytes) : TokensMatch [tailToken] (n :: ns)

/-- Non-empty tokens, and the tail only as the last one. -/
structure PatternOk (pattern : Bytes) : Prop where
  dotted : Dotted pattern
  tail_last : tailToken ∉ (tokens pattern).dropLast

section
variable {p n : Bytes} {ps ns : List Bytes}

/-- Behind a tail nothing stands. -/
theorem eq_nil_of_tail (h : tailToken ∉ (tailToken :: ps).dropLast) : ps = [] := by
  cases ps with
  | nil => rfl
  | cons p ps => simp at h

theorem notMem_dropLast (h : tailToken ∉ (p :: ps).dropLast) : tailToken ∉ ps.dropLast := by
  cases ps with
  | nil => simp
  | cons q ps => exact fun hmem => h (List.mem_cons_of_mem _ hmem)

theorem matchTokens_iff (h : tailToken ∉ ps.dropLast) :
    matchTokens ps ns = true ↔ TokensMatch ps ns := by
  induction ps generalizing ns with
  | nil =>
      cases ns with
      | nil => exact iff_of_true rfl .done
      | cons n ns => exact iff_of_false Bool.false_ne_true (by rintro ⟨⟩)
  | cons p ps ih =>
      cases ns with
      | nil =>
          rw [matchTokens_nil_right (by simp)]
          exact iff_of_false Bool.false_ne_true (by rintro ⟨⟩)
      | cons n ns =>
          by_cases hp : p = tailToken
          · subst hp
            obtain rfl := eq_nil_of_tail h
            exact ⟨fun _ => .tail n ns, fun _ => by rw [matchTokens_tail]; rfl⟩
          · rw [matchTokens_cons hp, Bool.and_eq_true, decide_eq_true_iff,
              ih (notMem_dropLast h)]
            refine ⟨fun h => .token h.1 h.2, fun h => ?_⟩
            cases h with
            | token h rest => exact ⟨h, rest⟩
            | tail => exact absurd rfl hp

end

/-- The tokens of a pattern match those of a name one by one, but for one
wildcard that the pattern may have left at its end. -/
def FitsStem : List Bytes → List Bytes → Prop
  | ps, [] => ps = [] ∨ ps = [starToken] ∨ ps = [tailToken]
  | p :: ps, n :: ns => p ≠ tailToken ∧ (p = starToken ∨ p = n) ∧ FitsStem ps ns
  | [], _ :: _ => False

/-- One more empty token changes the answer exactly where the pattern fits what
stands before it. -/
theorem matchTokens_concat_ne {ps ns : List Bytes} (hne : [] ∉ ps)
    (htail : tailToken ∉ ps.dropLast) :
    matchTokens ps ns ≠ matchTokens ps (ns ++ [[]]) ↔ FitsStem ps ns := by
  induction ps generalizing ns with
  | nil => cases ns <;> simp [matchTokens, FitsStem]
  | cons p ps ih =>
      have hp : p ≠ [] := fun h => hne (h ▸ List.mem_cons_self)
      have hps : [] ∉ ps := fun h => hne (List.mem_cons_of_mem _ h)
      by_cases hpt : p = tailToken
      · -- the tail wants one token, be it empty
        subst hpt
        obtain rfl := eq_nil_of_tail htail
        rw [matchTokens_tail, matchTokens_tail]
        cases ns <;> simp [FitsStem]
      · cases ns with
        | nil =>
            rw [matchTokens_nil_right (by simp), List.nil_append, matchTokens_cons hpt]
            by_cases hps : ps = []
            · simp [hps, hp, hpt, FitsStem, matchTokens]
            · simp [hps, FitsStem, matchTokens_nil_right hps]
        | cons n ns =>
            rw [List.cons_append, matchTokens_cons hpt, matchTokens_cons hpt]
            by_cases hpn : p = starToken ∨ p = n
            · simpa [FitsStem, hpn, hpt] using ih hps (notMem_dropLast htail)
            · simp [FitsStem, hpn]

/-- The name ends in a dot, and the pattern fits what stands before that dot. -/
def HidesToken (name pattern : Bytes) : Prop :=
  ∃ stem, name = stem ++ [dot] ∧ FitsStem (tokens pattern) (tokens stem)

theorem tokens_concat_dot (stem : Bytes) : tokens (stem ++ [dot]) = tokens stem ++ [[]] :=
  List.splitOn_append_cons_self ..

theorem seen_concat (ts : List Bytes) : seen (ts ++ [[]]) = ts := by
  simp [seen]

/-- The last token of a string is empty only behind a dot. -/
theorem exists_stem {s : Bytes} (hs : s ≠ []) (h : (tokens s).getLast? = some []) :
    ∃ stem, s = stem ++ [dot] := by
  induction hlen : s.length using Nat.strong_induction_on generalizing s with
  | _ len ih =>
      obtain ⟨hfree, hall | ⟨rest, hrest⟩⟩ := takeWhile_dot s
      · rw [hall] at hfree
        rw [tokens, List.splitOn_eq_singleton hfree] at h
        exact absurd (Option.some.inj h) hs
      · generalize s.takeWhile (fun b => decide (b ≠ dot)) = t at hfree hrest
        subst hrest
        by_cases hnil : rest = []
        · exact ⟨t, by rw [hnil]⟩
        · have htokens : tokens (t ++ dot :: rest) = t :: tokens rest :=
            List.splitOn_append_cons_self_of_not_mem hfree rest
          have hlast : (tokens rest).getLast? = some [] := by
            rwa [htokens, List.getLast?_cons_of_ne_nil (tokens_ne_nil rest)] at h
          obtain ⟨stem, rfl⟩ := ih rest.length (by simp at hlen; omega) hnil hlast rfl
          exact ⟨t ++ dot :: stem, by simp⟩

/-- `objectNameMatches` is the matching of NATS, token by token, exactly where no
token of the name is hidden behind a final dot. -/
theorem objectNameMatches_decides (name pattern : Bytes) (hname : name ≠ [])
    (hpattern : PatternOk pattern) :
    (objectNameMatches name pattern = true ↔ TokensMatch (tokens pattern) (tokens name)) ↔
      ¬ HidesToken name pattern := by
  rw [objectNameMatches_eq hname hpattern.dotted.ne_nil, seen_eq_self hpattern.dotted,
    ← matchTokens_iff hpattern.tail_last]
  by_cases hlast : (tokens name).getLast? = some []
  · obtain ⟨stem, rfl⟩ := exists_stem hname hlast
    have hconcat : matchTokens (tokens pattern) (tokens stem) ≠
        matchTokens (tokens pattern) (tokens stem ++ [[]]) ↔
          FitsStem (tokens pattern) (tokens stem) :=
      matchTokens_concat_ne hpattern.dotted hpattern.tail_last
    have hhides : HidesToken (stem ++ [dot]) pattern ↔ FitsStem (tokens pattern) (tokens stem) := by
      refine ⟨?_, fun h => ⟨stem, rfl, h⟩⟩
      rintro ⟨stem', heq, h⟩
      rwa [List.append_cancel_right heq]
    rw [tokens_concat_dot, seen_concat, ← Bool.eq_iff_iff, hhides, ← hconcat, ne_eq, not_not]
  · rw [seen, if_neg hlast]
    refine iff_of_true Iff.rfl ?_
    rintro ⟨stem, rfl, -⟩
    exact hlast (by rw [tokens_concat_dot, List.getLast?_concat])

/-- The name `a.b` and the pattern `a.>`. -/
theorem objectNameMatches_decides_tail :
    objectNameMatches [97, 46, 98] [97, 46, 62] = true ∧
      TokensMatch (tokens [97, 46, 62]) (tokens [97, 46, 98]) := by
  have hmatches : objectNameMatches [97, 46, 98] [97, 46, 62] = true := by decide
  have hdecides := objectNameMatches_decides [97, 46, 98] [97, 46, 62] (by simp)
    ⟨by decide, by decide⟩
  refine ⟨hmatches, (hdecides.mpr ?_).mp hmatches⟩
  rintro ⟨stem, h, -⟩
  have hlast := congrArg List.getLast? h
  rw [List.getLast?_concat] at hlast
  exact absurd hlast (by decide)

/-- The name `a.` has a second token, an empty one, and is still matched by `a`. -/
theorem trailingDot_matches :
    objectNameMatches [97, 46] [97] = true ∧ tokens [97] = [[97]] ∧ tokens [97, 46] = [[97], []] ∧
      ¬ TokensMatch [[97]] [[97], []] := by
  refine ⟨by decide, by decide, by decide, ?_⟩
  rintro (_ | ⟨_, ⟨⟩⟩)

end TransportNats.Object
