import TransportNats.Idempotency.Entry

/-!
Only the owner of a claim changes the ledger.

A call of `Complete`, `RenewClaim` or `Release` that nobody interferes with is a
run of its program on its own: between its operations time passes, requests may
fail or lose their reply, its context may be cancelled, but no other client
writes. `Complete` makes three writes and `RenewClaim` one. Before the first of
them both have read the claim record and found their token in it, and have then
read an instant of the clock before its end; `Complete` has besides read the
clock for the end of its entry. `Release` only needs the token. All this is
visible in the history of the call, and as long as it has written nothing the
history tells what the store was at the start.
-/

namespace TransportNats.Idempotency

open Interleaving VersionedStore Program

/-! ### Calls on their own -/

/-- A client's view of a run in which it is alone: the shared state, and what it
has done. -/
structure Solo where
  state : KvState
  log : Hist

/-- How each operation fares, given what was done before, and how much time
passes before it. -/
abbrev Schedule := Hist → KvChoice × ℕ

def soloExec (σ : Schedule) (x : Solo) (o : KvOp) : Solo × o.Ret :=
  let s := { x.state with clock := x.state.clock.advance (σ x.log).2 }
  (⟨(exec (σ x.log).1 s o).1, ⟨o, (exec (σ x.log).1 s o).2⟩ :: x.log⟩,
    (exec (σ x.log).1 s o).2)

/-- A call that starts in the state `s` and is not interfered with. -/
def solo {α : Type} (σ : Schedule) (s : KvState) (p : Kv α) : Solo × α :=
  p.alone (soloExec σ) ⟨s, []⟩

theorem log_soloExec (σ : Schedule) (x : Solo) (o : KvOp) :
    (soloExec σ x o).1.log = ⟨o, (soloExec σ x o).2⟩ :: x.log := rfl

/-- Every successful read in the history is of the store of `s`. -/
def Truthful (s : KvState) (h : Hist) : Prop :=
  ∀ key item, (⟨.get key, .ok item⟩ : Answered kvSig) ∈ h →
    s.kv.read key = some (item.value, item.revision)

/-- Nothing has been written yet. -/
structure Untouched (s : KvState) (x : Solo) : Prop where
  kv : x.state.kv = s.kv
  truthful : Truthful s x.log

section
variable {s : KvState} {x : Solo} {o : KvOp}

theorem exec_kv_of_quiet (ho : o.quiet) (ch : KvChoice) (s : KvState) :
    (exec ch s o).1.kv = s.kv := by
  cases exec_effect ch s o with
  | silent hkv => exact hkv
  | wrote key v happ => cases happ <;> exact ho.elim

theorem read_of_answerGet {fault : Fault} {key : String} {item : KvItem}
    (h : answerGet s fault key = .ok item) : s.kv.read key = some (item.value, item.revision) :=
  Store.read_of_cells (cells_of_answerGet h)

theorem untouched_soloExec (σ : Schedule) (hx : Untouched s x) (ho : o.quiet) :
    Untouched s (soloExec σ x o).1 where
  kv := (exec_kv_of_quiet ho _ _).trans hx.kv
  truthful key item hmem := by
    rcases List.mem_cons.mp hmem with heq | hmem
    · obtain ⟨rfl, hr⟩ := Answered.mk.inj heq
      have hread := read_of_answerGet (eq_of_heq hr).symm
      rwa [← hx.kv]
    · exact hx.truthful key item hmem

end

/-! ### Writes that need evidence -/

/-- An operation that writes is performed only after a history with `E`. -/
def WritesAfter (E : Hist → Prop) (h : Hist) (o : KvOp) : Prop := ¬ o.quiet → E h

theorem permits_writesAfter (E : Hist → Prop) : Permits (WritesAfter E) :=
  fun _ _ ho hnot => absurd ho hnot

/-- A call that writes only with evidence has left the store alone, or has found
the evidence in the store as it was at the start. -/
theorem solo_writesAfter {α : Type} {E : Hist → Prop} {Q : Hist → α → Prop} {p : Kv α}
    (hp : Guarded (S := kvSig) (WritesAfter E) Q [] p) (σ : Schedule) (s : KvState) :
    (Untouched s (solo σ s p).1 ∨
      ∃ h, h <:+ (solo σ s p).1.log ∧ E h ∧ Truthful s h) ∧
    Q (solo σ s p).1.log (solo σ s p).2 := by
  refine Guarded.alone
    (I := fun x => Untouched s x ∨ ∃ h, h <:+ x.log ∧ E h ∧ Truthful s h)
    (log_soloExec σ) ?_ hp (.inl ⟨rfl, by simp [Truthful]⟩)
  rintro x o (hx | ⟨h, hsuf, hE, htruth⟩) ho
  · by_cases hquiet : o.quiet
    · exact .inl (untouched_soloExec σ hx hquiet)
    · exact .inr ⟨x.log, List.suffix_cons _ _, ho hquiet, hx.truthful⟩
  · exact .inr ⟨h, hsuf.trans (List.suffix_cons _ _), hE, htruth⟩

/-! ### The evidence -/

/-- An instant that the clock has shown after the claim record was read. -/
def ClockAfterClaim (key : String) (h : Hist) (now : I64) : Prop :=
  ∃ h₁, ⟨.now, now⟩ :: h₁ <:+ h ∧ ∃ r, (⟨.get (claimPrefix ++ key), r⟩ : Answered kvSig) ∈ h₁

/-- An instant that the clock has shown before the claim record was read. -/
def ClockBeforeClaim (key : String) (h : Hist) (now : I64) : Prop :=
  ∃ h₁, ⟨.now, now⟩ :: h₁ <:+ h ∧ ∀ r, (⟨.get (claimPrefix ++ key), r⟩ : Answered kvSig) ∉ h₁

/-- The client has read its token in the claim record, and then the clock before
the record's end. -/
def SawLive (key token : String) (h : Hist) : Prop :=
  ∃ p now h₁, ⟨.now, now⟩ :: h₁ <:+ h ∧ (∃ r, SawClaim key r p h₁) ∧ p.token = token ∧
    now.val < p.expiresAt.val

/-- Before that, it has read the clock at a time from which `ttl` does not
overflow. -/
def SawRoom (key : String) (ttl : ℤ) (h : Hist) : Prop :=
  ∃ now, ClockBeforeClaim key h now ∧ ¬ (0 < ttl ∧ maxInt64 < now.val + ttl)

section
variable {K : Kernel} {key token : String} {h h' : Hist} {ttl leaseTTL : ℤ}

theorem SawLive.mono (hl : SawLive key token h) (hsuf : h <:+ h') : SawLive key token h' := by
  obtain ⟨p, now, h₁, hnow, hp⟩ := hl
  exact ⟨p, now, h₁, hnow.trans hsuf, hp⟩

theorem SawRoom.mono (hr : SawRoom key ttl h) (hsuf : h <:+ h') : SawRoom key ttl h' := by
  obtain ⟨now, ⟨h₁, hnow, hno⟩, hfits⟩ := hr
  exact ⟨now, ⟨h₁, hnow.trans hsuf, hno⟩, hfits⟩

theorem Extending.sawLive {data : Data} {r : ℕ} (hx : Extending key token h h' data r) :
    h <:+ h' ∧ SawLive key token h' := by
  obtain ⟨value, p, now, expiresAt, hp, htoken, hlive, -, rfl⟩ := hx
  exact ⟨List.suffix_append _ h, p, now, _, List.suffix_cons _ _,
    ⟨r, value, List.mem_cons_self, hp⟩, htoken, hlive⟩

/-- `extendClaim` writes, and succeeds, only for a live claim of the token. -/
theorem guarded_extendClaim_live {E : Hist → Prop}
    (hE : ∀ {h'}, h <:+ h' → SawLive key token h' → E h') :
    Guarded (S := kvSig) (WritesAfter E)
      (fun h' r => ∀ revision, r = .ok revision → SawLive key token h')
      h (extendClaim key token leaseTTL) := by
  refine (guarded_extendClaim_update (permits_writesAfter E) fun hx _ => ?_).mono
    (fun _ _ => id) ?_
  · exact hE hx.sawLive.1 hx.sawLive.2
  · intro h' a hok revision ha
    obtain ⟨h₁, data, r, hx, rfl⟩ := hok revision ha
    exact hx.sawLive.2.mono (List.suffix_cons _ _)

/-- `marshalKVEntry` succeeds only if the time to live does not overflow. -/
theorem guarded_marshalKVEntry_room {E : Hist → Prop} (key : String) (entry : IdempotencyEntry)
    (hno : ∀ r, (⟨.get (claimPrefix ++ key), r⟩ : Answered kvSig) ∉ h) :
    Guarded (S := kvSig) (WritesAfter E) (fun h' r => ∀ data, r = .ok data → SawRoom key ttl h')
      h (marshalKVEntry K entry ttl) := by
  unfold marshalKVEntry timeNow
  rw [guarded_perform_bind]
  refine ⟨permits_writesAfter E _ _ trivial, fun now => ?_⟩
  cases hexpiry : idempotencyExpiry now ttl with
  | error err => simp
  | ok expiresAt =>
      cases K.marshalEntry entry with
      | error err => simp
      | ok j =>
          refine fun _ _ => ⟨now, ⟨h, List.suffix_refl _, hno⟩, fun hover => ?_⟩
          obtain ⟨err, herr⟩ := idempotencyExpiry_of_overflow hover.1 hover.2
          cases hexpiry.symm.trans herr

/-- `Complete` writes, and succeeds, only for a live claim of the token and with
room for the entry's time to live. -/
theorem guarded_complete_live (entry : IdempotencyEntry) :
    Guarded (S := kvSig) (WritesAfter fun h => SawLive key token h ∧ SawRoom key ttl h)
      (fun h r => r = none → SawLive key token h ∧ SawRoom key ttl h) []
      (complete K key token entry ttl) := by
  have hG := permits_writesAfter fun h => SawLive key token h ∧ SawRoom key ttl h
  unfold complete extendClaimForCompletion ctxErr kvPut kvDelete
  rw [guarded_perform_bind]
  refine ⟨hG _ _ trivial, fun a => ?_⟩
  cases a with
  | some err => simp
  | none =>
      dsimp only
      split_ifs with hempty
      · simp
      refine (guarded_marshalKVEntry_room key entry (by simp)).bind ?_
      rintro h₁ (err | data) hroom
      · simp
      refine (guarded_extendClaim_live
        fun hsuf hlive => ⟨hlive, (hroom data rfl).mono hsuf⟩).returns.bind ?_
      rintro h₂ (err | revision) ⟨hlive, hk, rfl, -⟩
      · simp
      -- from here on the evidence is there
      have hsaw : ∀ {h'}, hk ++ h₁ <:+ h' → SawLive key token h' ∧ SawRoom key ttl h' :=
        fun hsuf => ⟨(hlive revision rfl).mono hsuf,
          (hroom data rfl).mono ((List.suffix_append hk h₁).trans hsuf)⟩
      dsimp only
      rw [guarded_perform_bind]
      refine ⟨hG _ _ trivial, fun a => ?_⟩
      cases a with
      | some err => simp
      | none =>
          dsimp only
          rw [guarded_perform_bind]
          refine ⟨fun _ => hsaw (List.suffix_cons _ _), fun a => ?_⟩
          cases a with
          | error err => exact (guarded_mapKVFailure hG err).bind fun _ _ _ => by simp
          | ok r =>
              dsimp only
              rw [guarded_perform_bind]
              refine ⟨hG _ _ trivial, fun a => ?_⟩
              cases a with
              | some err => simp
              | none =>
                  dsimp only
                  rw [guarded_perform_bind]
                  refine ⟨fun _ => hsaw (List.suffix_append [_, _, _] _), fun a => ?_⟩
                  cases a with
                  | some err => exact (guarded_mapKVFailure hG err).bind fun _ _ _ => by simp
                  | none => exact fun _ => hsaw (List.suffix_append [_, _, _, _] _)

theorem guarded_renewClaim_live :
    Guarded (S := kvSig) (WritesAfter (SawLive key token))
      (fun h r => r = none → SawLive key token h) [] (renewClaim K key token leaseTTL) := by
  have hG := permits_writesAfter (SawLive key token)
  unfold renewClaim ctxErr
  rw [guarded_perform_bind]
  refine ⟨hG _ _ trivial, fun a => ?_⟩
  cases a with
  | some err => simp
  | none =>
      dsimp only
      split
      · simp
      refine (guarded_extendClaim_live fun _ hlive => hlive).bind ?_
      rintro h (err | revision) hlive
      · simp
      · exact fun _ => hlive revision rfl

end

/-! ### The result -/

/-- The record is absent or undecodable, carries another token, or has ended at
the clock read that follows the reading of the record. -/
def NotOwned (s : KvState) (key token : String) (h : Hist) : Prop :=
  ∀ p, s.claimRecord key = some p → p.token = token →
    ∀ now, ClockAfterClaim key h now → p.expiresAt.val ≤ now.val

/-- At the clock read that comes before the reading of the record, the time to
live of the entry overflows. -/
def Overflows (key : String) (ttl : ℤ) (h : Hist) : Prop :=
  ∀ now, ClockBeforeClaim key h now → 0 < ttl ∧ maxInt64 < now.val + ttl

section
variable {s : KvState} {key token : String} {h h' : Hist} {ttl : ℤ}

theorem claimRecord_of_sawClaim {p : KVClaimPayload} {r : ℕ} (hs : SawClaim key r p h)
    (htruth : Truthful s h) : s.claimRecord key = some p := by
  obtain ⟨value, hget, hp⟩ := hs
  simp [KvState.claimRecord, htruth _ _ hget, hp, Except.toOption]

/-- Evidence that was found in the store as it was contradicts `NotOwned`. -/
theorem NotOwned.not_live (hno : NotOwned s key token h') (hlive : SawLive key token h)
    (hsuf : h <:+ h') (htruth : Truthful s h) : False := by
  obtain ⟨p, now, h₁, hnow, ⟨r, hclaim⟩, htoken, hlt⟩ := hlive
  have hrec := claimRecord_of_sawClaim hclaim fun k item hmem =>
    htruth k item (hnow.subset (List.mem_cons_of_mem _ hmem))
  obtain ⟨value, hget, -⟩ := hclaim
  have hle := hno p hrec htoken now ⟨h₁, hnow.trans hsuf, _, hget⟩
  omega

theorem Overflows.not_room (hover : Overflows key ttl h') (hroom : SawRoom key ttl h)
    (hsuf : h <:+ h') : False := by
  obtain ⟨now, hbefore, hfits⟩ := hroom.mono hsuf
  exact hfits (hover now hbefore)

/-- The history of a call that has found evidence, or has written nothing. -/
theorem evidence_of_result {α : Type} {E : Hist → Prop} {x : Solo} {r : α} {ok : α → Prop}
    (hx : Untouched s x ∨ ∃ h, h <:+ x.log ∧ E h ∧ Truthful s h) (hr : ok r → E x.log) :
    (∃ h, h <:+ x.log ∧ E h ∧ Truthful s h) ∨ x.state.kv = s.kv ∧ ¬ ok r := by
  rcases hx with hx | hx
  · by_cases hok : ok r
    · exact .inl ⟨x.log, List.suffix_refl _, hr hok, hx.truthful⟩
    · exact .inr ⟨hx.kv, hok⟩
  · exact .inl hx

/-- What `Release` does to the store, given what it has read of the claim. -/
structure ReleaseState (s : KvState) (key token : String) (x : Solo) : Prop where
  truthful : ∀ item, (⟨.get (claimPrefix ++ key), .ok item⟩ : Answered kvSig) ∈ x.log →
    s.kv.read (claimPrefix ++ key) = some (item.value, item.revision)
  kv : x.state.kv = s.kv ∨
    (∃ p, s.claimRecord key = some p ∧ p.token = token) ∧
      x.state.kv = s.kv.write (claimPrefix ++ key) none

theorem releaseState_soloExec (σ : Schedule) {x : Solo} {o : KvOp}
    (hx : ReleaseState s key token x) (ho : releaseGuard key token x.log o) :
    ReleaseState s key token (soloExec σ x o).1 := by
  refine ⟨fun item hmem => ?_, ?_⟩
  · rcases List.mem_cons.mp hmem with heq | hmem
    · obtain ⟨rfl, hr⟩ := Answered.mk.inj heq
      have hread := read_of_answerGet (eq_of_heq hr).symm
      rcases hx.kv with hkv | ⟨-, hkv⟩
      · rwa [← hkv]
      · -- the record that has been deleted is not read again
        simp [hkv] at hread
    · exact hx.truthful item hmem
  · cases exec_effect (σ x.log).1
      { x.state with clock := x.state.clock.advance (σ x.log).2 } o with
    | silent hkv => exact hx.kv.imp hkv.trans (And.imp_right hkv.trans)
    | wrote k v happ hkv =>
        cases happ with
        | put => exact ho.elim
        | create => exact ho.elim
        | update => exact ho.elim
        | @delete k r hrev =>
            obtain ⟨rfl, p, ⟨value, hget, hp⟩, htoken⟩ := ho
            have hread := hx.truthful _ hget
            have hcarries : s.claimRecord key = some p := by
              simp [KvState.claimRecord, hread, hp, Except.toOption]
            rcases hx.kv with hsame | ⟨-, hsame⟩
            · refine .inr ⟨⟨p, hcarries, htoken⟩, ?_⟩
              rw [← hsame]
              exact hkv
            · -- the revision that was read is older than the deletion
              have hold := (s.kv.le_seq _ _ (Store.cells_of_read hread)).2
              have hnew : x.state.kv.revision (claimPrefix ++ key) = s.kv.seq + 1 := by
                rw [hsame, Store.revision_write_self]
              have : x.state.kv.revision (claimPrefix ++ key) = r := hrev
              simp only at hold
              omega

end

/-- On its own, a call of `Complete` or `RenewClaim` for a claim that its token
does not own returns an error and leaves the whole store as it was, and so does
`Complete` for a time to live that overflows. `Release` changes the store only
if the claim record carries its token, and then only deletes that record. -/
theorem nonOwner_unchanged (K : Kernel) (σ : Schedule) (s : KvState) (key token : String)
    (entry : IdempotencyEntry) (ttl leaseTTL : ℤ) :
    (NotOwned s key token (solo σ s (complete K key token entry ttl)).1.log ∨
        Overflows key ttl (solo σ s (complete K key token entry ttl)).1.log →
      (solo σ s (complete K key token entry ttl)).2 ≠ none ∧
        (solo σ s (complete K key token entry ttl)).1.state.kv = s.kv) ∧
    (NotOwned s key token (solo σ s (renewClaim K key token leaseTTL)).1.log →
      (solo σ s (renewClaim K key token leaseTTL)).2 ≠ none ∧
        (solo σ s (renewClaim K key token leaseTTL)).1.state.kv = s.kv) ∧
    ((solo σ s (release key token)).1.state.kv = s.kv ∨
      (∃ p, s.claimRecord key = some p ∧ p.token = token) ∧
        (solo σ s (release key token)).1.state.kv =
          s.kv.write (claimPrefix ++ key) none) := by
  refine ⟨fun hno => ?_, fun hno => ?_, ?_⟩
  · have hcomplete : Guarded (S := kvSig) _ _ [] (complete K key token entry ttl) :=
      guarded_complete_live entry
    obtain ⟨hx, hr⟩ := solo_writesAfter hcomplete σ s
    rcases evidence_of_result hx hr with ⟨h, hsuf, ⟨hlive, hroom⟩, htruth⟩ | ⟨hkv, herr⟩
    · rcases hno with hno | hover
      · exact (hno.not_live hlive hsuf htruth).elim
      · exact (hover.not_room hroom hsuf).elim
    · exact ⟨herr, hkv⟩
  · have hrenew : Guarded (S := kvSig) _ _ [] (renewClaim K key token leaseTTL) :=
      guarded_renewClaim_live
    obtain ⟨hx, hr⟩ := solo_writesAfter hrenew σ s
    rcases evidence_of_result hx hr with ⟨h, hsuf, hlive, htruth⟩ | ⟨hkv, herr⟩
    · exact (hno.not_live hlive hsuf htruth).elim
    · exact ⟨herr, hkv⟩
  · exact (Guarded.alone (I := ReleaseState s key token) (log_soloExec σ)
      (fun x o hx ho => releaseState_soloExec σ hx ho) guarded_release ⟨by simp, .inl rfl⟩).1.kv

/-- Nothing fails, and no time passes. -/
def calmly : Schedule := fun _ => (calm "", 0)

/-- The holder that crashed comes back after its lease has ended. -/
theorem nonOwner_unchanged_crashed :
    ((solo calmly (crashed "h") (complete .plain "k" "t0" .zero 10)).2 ≠ none ∧
      (solo calmly (crashed "h") (complete .plain "k" "t0" .zero 10)).1.state.kv =
        (crashed "h").kv) ∧
    (solo calmly (crashed "h") (complete .plain "k" "t0" .zero 10)).2 =
      some (.app .conflict "idempotency claim has expired") := by
  refine ⟨(nonOwner_unchanged .plain calmly (crashed "h") "k" "t0" .zero 10 10).1 (.inl ?_), rfl⟩
  rintro p hp - now ⟨h₁, hsuf, -⟩
  obtain rfl : (⟨"t0", "h", .one⟩ : KVClaimPayload) = p := Option.some.inj hp
  have hlog : (solo calmly (crashed "h") (complete .plain "k" "t0" .zero 10)).1.log =
      [⟨.now, .one⟩, ⟨.get "claim.k", .ok ⟨marshalClaim ⟨"t0", "h", .one⟩, 1⟩⟩, ⟨.now, .one⟩,
        ⟨.ctxErr, none⟩] := rfl
  have hmem := hsuf.subset List.mem_cons_self
  rw [hlog] at hmem
  obtain rfl : now = .one := by simpa using hmem
  exact le_rfl

end TransportNats.Idempotency
