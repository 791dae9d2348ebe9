import TransportNats.Idempotency.Lease

/-!
A `Claim` and the record it has written itself.

`Claim` answers that a request is in progress when it finds a live record in
its way, and does not compare the record's token with its own. If its `Create`
was applied and only the reply was lost, the record in its way is its own: the
caller is told to wait for a holder that does not exist.

As long as a write that is applied is also reported, or ends the call with an
error, this cannot happen. A token is drawn by one call only, and nobody writes
it before that call does.
-/

namespace TransportNats.Idempotency

open Interleaving VersionedStore Program

/-! ### Answers that settle a call -/

def KvOp.isCreate : KvOp → Bool
  | .create _ _ => true
  | _ => false

/-- With this answer after the history `h` a `Claim` has got its reservation or returns an
error. It may still say that the request is in progress after any failure of its first
`Create`, after a second one that found a record, and after an `Update` that met another
revision or no record. -/
def settles (h : Hist) : Answered kvSig → Bool
  | ⟨.create _ _, .error err⟩ => h.any (·.op.isCreate) && !err.is (.nats .errKeyExists)
  | ⟨.update _ _ _, .error err⟩ => !(err.is (.nats .errKeyRevisionMismatch) || isKeyMissing err)
  | ⟨.create _ _, .ok _⟩ | ⟨.update _ _ _, .ok _⟩ => true
  | _ => false

/-- No answer has settled the call. -/
def Unsettled (h : Hist) : Prop := ∀ x h', x :: h' <:+ h → settles h' x = false

/-- A client that returns that the request is in progress had no such answer. -/
def InProgressUnsettled (h : Hist) (r : Except Err IdempotencyClaim) : Prop :=
  ∀ c, r = .ok c → c.state = .inProgress → Unsettled h

/-- Nothing was written. -/
def Quiet (h : Hist) : Prop := ∀ x ∈ h, x.op.quiet

section
variable {K : Kernel} {key claimKey requestHash token : String} {data : Data} {now : I64} {h : Hist}

theorem Unsettled.cons {x : Answered kvSig} (hn : Unsettled h) (hx : settles h x = false) :
    Unsettled (x :: h) := by
  intro y h' hsuf
  rcases List.suffix_cons_iff.mp hsuf with heq | hsuf
  · cases heq
    exact hx
  · exact hn y h' hsuf

theorem settles_of_quiet {o : KvOp} (ho : o.quiet) (a : o.Ret) : settles h ⟨o, a⟩ = false := by
  cases o with
  | ctxErr | now | newToken | get => rfl
  | put | create | update | delete => exact ho.elim

theorem Unsettled.quiet {o : KvOp} (hn : Unsettled h) (ho : o.quiet) (a : o.Ret) :
    Unsettled (⟨o, a⟩ :: h) :=
  hn.cons (settles_of_quiet ho a)

theorem Quiet.cons {o : KvOp} (hq : Quiet h) (ho : o.quiet) (a : o.Ret) : Quiet (⟨o, a⟩ :: h) := by
  intro x hx
  rcases List.mem_cons.mp hx with rfl | hx
  · exact ho
  · exact hq x hx

theorem Quiet.unsettled (hq : Quiet h) : Unsettled h := by
  intro x h' hsuf
  exact settles_of_quiet (hq x (hsuf.subset List.mem_cons_self)) x.ret

/-- After a quiet history a `Create` is the first one. -/
theorem Quiet.create_error (hq : Quiet h) (key : String) (data : Data) (err : Err) :
    Unsettled (⟨.create key data, .error err⟩ :: h) := by
  have hfirst : h.any (·.op.isCreate) = false := by
    refine List.any_eq_false.mpr fun x hx hc => ?_
    have hx := hq x hx
    cases hop : x.op with
    | create key data =>
        rw [hop] at hx
        exact hx
    | _ =>
        rw [hop] at hc
        cases hc
  refine hq.unsettled.cons ?_
  rw [settles, hfirst]
  rfl

theorem Unsettled.create_exists (hn : Unsettled h) (key : String) (data : Data) {err : Err}
    (he : err.is (.nats .errKeyExists) = true) :
    Unsettled (⟨.create key data, .error err⟩ :: h) := by
  refine hn.cons ?_
  rw [settles, he, Bool.not_true, Bool.and_false]

theorem Unsettled.update_mismatch (hn : Unsettled h) (key : String) (data : Data) (revision : ℕ)
    {err : Err} (he : err.is (.nats .errKeyRevisionMismatch) = true) :
    Unsettled (⟨.update key data revision, .error err⟩ :: h) := by
  refine hn.cons ?_
  rw [settles, he, Bool.true_or, Bool.not_true]

theorem Unsettled.update_missing (hn : Unsettled h) (key : String) (data : Data) (revision : ℕ)
    {err : Err} (he : isKeyMissing err = true) :
    Unsettled (⟨.update key data revision, .error err⟩ :: h) := by
  refine hn.cons ?_
  rw [settles, he, Bool.or_true, Bool.not_true]

theorem guarded_failure_unsettled (err : Err) :
    Guarded (S := kvSig) (fun _ _ => True) InProgressUnsettled h
      (do return .error (← mapKVFailure err)) :=
  (guarded_true _).bind fun _ _ _ => nofun

theorem guarded_retryCreateClaim_unsettled (hn : Unsettled h) :
    Guarded (S := kvSig) (fun _ _ => True) InProgressUnsettled h
      (retryCreateClaim claimKey token data) := by
  unfold retryCreateClaim kvCreate
  rw [guarded_perform_bind]
  refine ⟨trivial, fun r => ?_⟩
  cases r with
  | ok r =>
      intro c hc hst
      cases hc
      cases hst
  | error err =>
      dsimp only
      split
      · rename_i hexists
        exact fun _ _ _ => hn.create_exists _ _ hexists
      · exact guarded_failure_unsettled err

theorem guarded_replaceExpiredClaim_unsettled (hn : Unsettled h) (revision : ℕ) :
    Guarded (S := kvSig) (fun _ _ => True) InProgressUnsettled h
      (replaceExpiredClaim claimKey token data revision) := by
  unfold replaceExpiredClaim kvUpdate ctxErr
  rw [guarded_perform_bind]
  refine ⟨trivial, fun r => ?_⟩
  cases r with
  | ok r =>
      intro c hc hst
      cases hc
      cases hst
  | error err =>
      dsimp only
      split
      · rename_i hmismatch
        exact fun _ _ _ => hn.update_mismatch _ _ _ hmismatch
      · split
        · rename_i hmissing
          rw [guarded_perform_bind]
          refine ⟨trivial, fun r => ?_⟩
          cases r with
          | some err => exact nofun
          | none =>
              exact guarded_retryCreateClaim_unsettled
                ((hn.update_missing _ _ _ hmissing).quiet (o := .ctxErr) trivial none)
        · exact guarded_failure_unsettled err

theorem guarded_resolveExistingClaim_unsettled (hn : Unsettled h) (existing : KvItem) :
    Guarded (S := kvSig) (fun _ _ => True) InProgressUnsettled h
      (resolveExistingClaim claimKey requestHash token now data existing) := by
  unfold resolveExistingClaim
  split
  · exact nofun
  · split
    · exact nofun
    · split
      · exact fun _ _ _ => hn
      · split
        · exact fun _ _ _ => hn
        · exact guarded_replaceExpiredClaim_unsettled hn _

theorem guarded_createClaim_unsettled (hq : Quiet h) :
    Guarded (S := kvSig) (fun _ _ => True) InProgressUnsettled h
      (createClaim claimKey requestHash token now data) := by
  unfold createClaim kvCreate kvGet ctxErr
  rw [guarded_perform_bind]
  refine ⟨trivial, fun r => ?_⟩
  cases r with
  | ok r =>
      intro c hc hst
      cases hc
      cases hst
  | error createErr =>
      dsimp only
      rw [guarded_perform_bind]
      refine ⟨trivial, fun r => ?_⟩
      cases r with
      | some err => exact nofun
      | none =>
          dsimp only
          rw [guarded_perform_bind]
          refine ⟨trivial, fun r => ?_⟩
          have hn' : Unsettled (⟨.get claimKey, r⟩ :: ⟨.ctxErr, none⟩ ::
              ⟨.create claimKey data, .error createErr⟩ :: h) :=
            ((hq.create_error claimKey data createErr).quiet (o := .ctxErr) trivial none).quiet
              (o := .get claimKey) trivial r
          cases r with
          | error getErr =>
              dsimp only
              split
              · split
                · exact guarded_retryCreateClaim_unsettled hn'
                · exact guarded_failure_unsettled createErr
              · exact guarded_failure_unsettled getErr
          | ok existing => exact guarded_resolveExistingClaim_unsettled hn' existing

theorem guarded_claim_unsettled (leaseTTL : ℤ) :
    Guarded (S := kvSig) (fun _ _ => True) InProgressUnsettled []
      (claim K key requestHash leaseTTL) := by
  have hnil : Quiet [] := fun x hx => by cases hx
  unfold claim ctxErr timeNow newKVClaimToken
  rw [guarded_perform_bind]
  refine ⟨trivial, fun r => ?_⟩
  cases r with
  | some err => exact nofun
  | none =>
      dsimp only
      split
      · exact nofun
      · -- reading the entry takes operations that write nothing
        have hload := (guarded_loadEntry K key (G := fun _ o => o.quiet) fun _ _ ho => ho).keeping
          (hnil.cons (o := .ctxErr) trivial none) fun h o r hq ho => hq.cons ho r
        refine (hload.mono (fun _ _ _ => trivial) fun _ _ hq => hq).bind ?_
        rintro h' (err | (_ | entry)) ⟨-, hq⟩
        · exact nofun
        · dsimp only
          rw [guarded_perform_bind]
          refine ⟨trivial, fun now => ?_⟩
          split
          · exact nofun
          · rw [guarded_perform_bind]
            refine ⟨trivial, fun r => ?_⟩
            cases r with
            | error err => exact nofun
            | ok token =>
                dsimp only
                rw [guarded_perform_bind]
                refine ⟨trivial, fun r => ?_⟩
                cases r with
                | some err => exact nofun
                | none =>
                    exact guarded_createClaim_unsettled
                      (((hq.cons (o := .now) trivial now).cons (o := .newToken) trivial _).cons
                        (o := .ctxErr) trivial none)
        · dsimp only
          split
          · exact fun _ _ _ => hq.unsettled
          · exact fun _ _ _ => hq.unsettled

end

/-- What calls return is `InProgressUnsettled`, in every run. -/
def telling (K : Kernel) : Contract (coordinator K) where
  guard _ _ _ := True
  post c h r :=
    match c, r with
    | .claim _ _ _, .claim r => InProgressUnsettled h r
    | _, _ => True
  sound _ _ := True
  program c := by
    cases c with
    | claim key requestHash leaseTTL =>
        exact (guarded_claim_unsettled leaseTTL).bind fun _ _ hr => hr
    | complete | release | renewClaim =>
        exact (guarded_true _).mono (fun _ _ _ => trivial) fun _ r _ => by cases r <;> trivial
  answer _ _ _ := trivial
  stable _ _ _ := trivial

/-! ### Who has written a token -/

section
variable {K : Kernel}

/-- The thread has drawn `token`. -/
def Drew (th : Thread (coordinator K)) (token : String) : Prop :=
  ⟨.newToken, .ok token⟩ ∈ th.hist

/-- The token of a record that has just been written with an own token is that one. -/
theorem OwnToken.drew {s s' : KvState} {key token token' : String} {data : Data} {h : Hist}
    (hown : OwnToken token' data h) (hkv : s'.kv = s.kv.write (claimPrefix ++ key) (some data))
    (hc : Carries s' key token) : ⟨.newToken, .ok token⟩ ∈ h := by
  obtain ⟨hdrew, p, rfl, hp⟩ := hown
  obtain ⟨q, hq, rfl⟩ := carries_iff.mp hc
  obtain rfl := Option.some.inj (hq.symm.trans (claimRecord_of_write hkv))
  exact hp ▸ hdrew

/-- A record that carries a token after an action carried it before, or was
written just now by a `Claim` that has drawn the token. -/
theorem carries_act {w : World (coordinator K)} (hw : (protocol K).Ok w)
    {a : Act (coordinator K)} {key token : String} (hc : Carries (w.act a).state key token) :
    Carries w.state key token ∨
      ∃ t ch key' requestHash leaseTTL h o, ∃ k : o.Ret → Kv KvResult, ∃ k' v,
        a = .step t ch ∧
        w.threads[t]? = some ⟨.claim key' requestHash leaseTTL, h, .call o k⟩ ∧
        ⟨.newToken, .ok token⟩ ∈ h ∧ Applies w.state.kv o k' v ∧
        (w.act a).state.kv = w.state.kv.write k' v := by
  rcases act_kv hw a with hkv | ⟨t, ch, c, h, o, k, k', v, ha, ht, hg, hx, happ, hkv⟩
  · exact .inl (hc.congr (by rw [hkv]))
  · by_cases hkey : claimPrefix ++ key = k'
    · subst hkey
      obtain ⟨q, hq, hqt⟩ := carries_iff.mp hc
      cases claimWrite hg hx happ with
      | created =>
          obtain ⟨-, -, token', hown⟩ := hg
          exact .inr ⟨t, ch, _, _, _, h, _, k, _, _, ha, ht, hown.drew hkv hc, happ, hkv⟩
      | replaced =>
          obtain ⟨-, -, ⟨token', hown⟩, -⟩ := hg
          exact .inr ⟨t, ch, _, _, _, h, _, k, _, _, ha, ht, hown.drew hkv hc, happ, hkv⟩
      | completing was =>
          obtain rfl := Option.some.inj (hq.symm.trans (claimRecord_of_write hkv))
          exact .inl (carries_iff.mpr ⟨_, was, hqt⟩)
      | renewed was =>
          obtain rfl := Option.some.inj (hq.symm.trans (claimRecord_of_write hkv))
          exact .inl (carries_iff.mpr ⟨_, was, hqt⟩)
      | completed => cases hq.symm.trans (claimRecord_of_delete hkv)
      | released => cases hq.symm.trans (claimRecord_of_delete hkv)
    · exact .inl (hc.congr (by rw [hkv, Store.cells_write_ne _ _ hkey]))

/-- The operation is applied, and its answer may have a `Claim` say that somebody else's
request is in progress. -/
def misleads (ch : KvChoice) (s : KvState) (h : Hist) (o : KvOp) : Bool :=
  (exec ch s o).1.kv.seq != s.kv.seq && !settles h ⟨o, (exec ch s o).2⟩

/-- The action is such an operation of a `Claim`. -/
def misleadsClaim (w : World (coordinator K)) : Act (coordinator K) → Bool
  | .step t ch =>
      match w.threads[t]? with
      | some ⟨.claim _ _ _, h, .call o _⟩ => misleads ch w.state h o
      | _ => false
  | _ => false

/-- A write of a `Claim` that is applied is reported, or ends the call with an error. -/
def ClaimsReported (w : World (coordinator K)) (a : Act (coordinator K)) : Prop :=
  misleadsClaim w a = false

instance (w : World (coordinator K)) (a : Act (coordinator K)) :
    Decidable (ClaimsReported w a) := inferInstanceAs (Decidable (_ = _))

theorem ClaimsReported.step {w : World (coordinator K)} {t : ℕ} {ch : KvChoice}
    {key requestHash : String} {leaseTTL : ℤ} {h : Hist} {o : KvOp} {k : o.Ret → Kv KvResult}
    (hrep : ClaimsReported w (.step t ch))
    (ht : w.threads[t]? = some ⟨.claim key requestHash leaseTTL, h, .call o k⟩) :
    misleads ch w.state h o = false := by
  simpa only [ClaimsReported, misleadsClaim, ht] using hrep

/-- A write that is applied and does not mislead settles the call. -/
theorem not_unsettled_of_applied {ch : KvChoice} {s : KvState} {o : KvOp} {k : String}
    {v : Option Data} {h : Hist} (hkv : (exec ch s o).1.kv = s.kv.write k v)
    (hrep : misleads ch s h o = false) : ¬ Unsettled (⟨o, (exec ch s o).2⟩ :: h) := by
  intro hn
  have hseq : ((exec ch s o).1.kv.seq != s.kv.seq) = true := by
    rw [hkv]
    exact bne_iff_ne.mpr (Nat.succ_ne_self _)
  rw [misleads, hseq, hn _ _ (List.suffix_refl _)] at hrep
  cases hrep

/-! ### Drawn tokens -/

theorem issued_exec (ch : KvChoice) (s : KvState) (o : KvOp) :
    s.issued ⊆ (exec ch s o).1.issued := by
  have hcommit : ∀ attempt, (commit s ch.fault attempt).1.issued = s.issued := by
    intro attempt
    cases ch.fault <;> cases attempt <;> rfl
  cases o with
  | ctxErr | now | get => exact List.Subset.refl _
  | newToken =>
      simp only [exec]
      split
      · exact List.subset_cons_self _ _
      · exact List.Subset.refl _
  | put | create | update | delete =>
      simp only [exec, hcommit]
      exact List.Subset.refl _

theorem issued_moves {w w' : World (coordinator K)} {a : Act (coordinator K)}
    (hm : World.Moves w a w') : w.state.issued ⊆ w'.state.issued := by
  cases hm with
  | idle => exact List.Subset.refl _
  | enter h =>
      cases h
      exact List.Subset.refl _
  | perform => exact issued_exec _ _ _
  | env d => exact List.Subset.refl _

/-- The random source does not repeat itself. -/
theorem fresh_of_drawn {ch : KvChoice} {s : KvState} {token : String}
    (h : (exec ch s .newToken).2 = .ok token) :
    token ∉ s.issued ∧ token ∈ (exec ch s .newToken).1.issued := by
  simp only [exec] at h ⊢
  split at h
  · rename_i hc
    cases h
    rw [if_pos hc]
    exact ⟨hc.2, List.mem_cons_self⟩
  · cases h

/-- A token that a thread has drawn was drawn before, or is drawn just now and
has not been seen before. -/
theorem drew_moves {w w' : World (coordinator K)} {a : Act (coordinator K)}
    (hm : World.Moves w a w') {t : ℕ} {th' : Thread (coordinator K)} {token : String}
    (ht' : w'.threads[t]? = some th') (hd : Drew th' token) :
    (∃ th, w.threads[t]? = some th ∧ Drew th token ∧ th.Later th') ∨
      token ∉ w.state.issued ∧ token ∈ w'.state.issued ∧ ∃ ch, a = .step t ch := by
  cases hm with
  | idle => exact .inl ⟨th', ht', hd, .refl th'⟩
  | enter h =>
      rcases World.getElem?_enter ht' with ht | ⟨-, rfl⟩
      · exact .inl ⟨th', ht, hd, .refl th'⟩
      · simp [Drew, Thread.start] at hd
  | @perform u ch c h o k hu =>
      rw [World.getElem?_perform hu] at ht'
      split at ht'
      · rename_i htu
        subst htu
        obtain rfl := Option.some.inj ht'
        rcases List.mem_cons.mp hd with heq | hd
        · cases o with
          | newToken =>
              have hans : (exec ch w.state .newToken).2 = .ok token := by
                simpa using heq.symm
              obtain ⟨hnew, hin⟩ := fresh_of_drawn hans
              exact .inr ⟨hnew, hin, ch, rfl⟩
          | _ => cases heq
        · exact .inl ⟨_, hu, hd, rfl, List.suffix_cons _ _, by simp⟩
      · exact .inl ⟨th', ht', hd, .refl th'⟩
  | env d => exact .inl ⟨th', ht', hd, .refl th'⟩

/-- Every token in the bucket has been drawn from the random source. -/
def Known (s : KvState) : Prop := ∀ key token, Carries s key token → token ∈ s.issued

/-- A drawn token belongs to one thread, and stands nowhere until an answer has settled
that thread. -/
structure OwnTokens (w : World (coordinator K)) : Prop where
  ok : (protocol K).Ok w
  told : (telling K).Ok w
  known : Known w.state
  drawn : ∀ (t : ℕ) (th : Thread (coordinator K)), w.threads[t]? = some th →
    ∀ token, Drew th token → token ∈ w.state.issued
  unique : ∀ (t u : ℕ) (th th' : Thread (coordinator K)), w.threads[t]? = some th →
    w.threads[u]? = some th' → ∀ token, Drew th token → Drew th' token → t = u
  unwritten : ∀ (t : ℕ) (th : Thread (coordinator K)), w.threads[t]? = some th →
    Unsettled th.hist → ∀ token, Drew th token → ∀ key, ¬ Carries w.state key token

theorem ownTokens_init {s : KvState} (hs : Known s) :
    OwnTokens (World.init s : World (coordinator K)) where
  ok := (protocol K).ok_init s
  told := (telling K).ok_init s
  known := hs
  drawn _ _ ht := by simp [World.init] at ht
  unique _ _ _ _ ht := by simp [World.init] at ht
  unwritten _ _ ht := by simp [World.init] at ht

theorem Unsettled.suffix {h h' : Hist} (hn : Unsettled h') (hs : h <:+ h') : Unsettled h :=
  fun x h₀ hsuf => hn x h₀ (hsuf.trans hs)

theorem OwnTokens.drawn_act {w : World (coordinator K)} (hw : OwnTokens w)
    (a : Act (coordinator K)) (t : ℕ) (th : Thread (coordinator K))
    (ht : (w.act a).threads[t]? = some th) (token : String) (hd : Drew th token) :
    token ∈ (w.act a).state.issued := by
  have hm := World.moves_act w a
  rcases drew_moves hm ht hd with ⟨th₀, ht₀, hd₀, -⟩ | ⟨-, hin, -⟩
  · exact issued_moves hm (hw.drawn t th₀ ht₀ token hd₀)
  · exact hin

theorem OwnTokens.known_act {w : World (coordinator K)} (hw : OwnTokens w)
    (a : Act (coordinator K)) : Known (w.act a).state := by
  intro key token hc
  have hm := World.moves_act w a
  rcases carries_act hw.ok hc with hc | ⟨t, _, _, _, _, h, o, k, _, _, -, ht, hd, -⟩
  · exact issued_moves hm (hw.known key token hc)
  · exact issued_moves hm (hw.drawn t _ ht token hd)

theorem OwnTokens.unique_act {w : World (coordinator K)} (hw : OwnTokens w)
    (a : Act (coordinator K)) (t u : ℕ) (th th' : Thread (coordinator K))
    (ht : (w.act a).threads[t]? = some th) (hu : (w.act a).threads[u]? = some th')
    (token : String) (hd : Drew th token) (hd' : Drew th' token) : t = u := by
  have hm := World.moves_act w a
  rcases drew_moves hm ht hd with ⟨th₀, ht₀, hd₀, -⟩ | ⟨hnew, -, ch, ha⟩ <;>
    rcases drew_moves hm hu hd' with ⟨th₁, hu₁, hd₁, -⟩ | ⟨hnew', -, ch', ha'⟩
  · exact hw.unique t u th₀ th₁ ht₀ hu₁ token hd₀ hd₁
  · exact absurd (hw.drawn t th₀ ht₀ token hd₀) hnew'
  · exact absurd (hw.drawn u th₁ hu₁ token hd₁) hnew
  · rw [ha] at ha'
    cases ha'
    rfl

theorem OwnTokens.unwritten_act {w : World (coordinator K)} (hw : OwnTokens w)
    {a : Act (coordinator K)} (hrep : ClaimsReported w a) (t : ℕ) (th : Thread (coordinator K))
    (ht : (w.act a).threads[t]? = some th) (hn : Unsettled th.hist) (token : String)
    (hd : Drew th token) (key : String) : ¬ Carries (w.act a).state key token := by
  intro hc
  have hm := World.moves_act w a
  rcases drew_moves hm ht hd with ⟨th₀, ht₀, hd₀, hlater⟩ | ⟨hnew, -⟩
  · rcases carries_act hw.ok hc with
      hc | ⟨u, ch, key', requestHash, leaseTTL, h, o, k, k', v, rfl, hu, hdu, happ, hkv⟩
    · exact hw.unwritten t th₀ ht₀ (hn.suffix hlater.hist) token hd₀ key hc
    · -- the writer is the thread itself, and the answer settles it
      obtain rfl := hw.unique t u _ _ ht₀ hu token hd₀ hdu
      rw [World.getElem?_act_step ch hu] at ht
      obtain rfl := Option.some.inj ht
      rw [World.act_step ch hu] at hkv
      exact not_unsettled_of_applied hkv (hrep.step hu) hn
  · rcases carries_act hw.ok hc with hc | ⟨u, _, _, _, _, _, _, _, _, _, -, hu, hdu, -⟩
    · exact hnew (hw.known key token hc)
    · exact hnew (hw.drawn u _ hu token hdu)

theorem ownTokens_moves {w w' : World (coordinator K)} {a : Act (coordinator K)}
    (hm : World.Moves w a w') (hrep : ClaimsReported w a) (hw : OwnTokens w) : OwnTokens w' := by
  have hok := (protocol K).ok_moves hm hw.ok
  have htold := (telling K).ok_moves hm hw.told
  rcases hm.eq_or_eq_act with rfl | rfl
  · exact hw
  · exact ⟨hok, htold, hw.known_act a, hw.drawn_act a, hw.unique_act a, hw.unwritten_act hrep⟩

/-- The live claim record of `key` carries `token`. -/
def LiveWith (s : KvState) (key token : String) : Prop :=
  ∃ p, s.claimRecord key = some p ∧ s.clock.val < p.expiresAt.val ∧ p.token = token

/-- A `Claim` that has returned in progress with a nil error is not blocked by the
token it has drawn itself. -/
def NeverOwnClaim (w : World (coordinator K)) : Prop :=
  ∀ (t : ℕ) (th : Thread (coordinator K)) key requestHash leaseTTL c token,
    w.threads[t]? = some th → th.call = .claim key requestHash leaseTTL →
    th.rest.result? = some (.claim (.ok c)) → c.state = .inProgress → Drew th token →
    ¬ LiveWith w.state key token

end

/-- `Claim` does not mistake its own reservation for someone else's, in every run
from a bucket whose tokens the random source knows, as long as no `Claim` is misled
about a write. -/
theorem neverOwnClaim_of_reported (K : Kernel) (s : KvState) (hs : Known s)
    (acts : List (Act (coordinator K)))
    (hrep : World.Always ClaimsReported (World.init s) acts) :
    NeverOwnClaim ((World.init s).run acts) := by
  intro t th key requestHash leaseTTL c token ht hcall hres hst hdrew hlive
  obtain ⟨p, hp, -, hpt⟩ := hlive
  have hw := World.run_invariant_of_always ownTokens_moves (ownTokens_init hs) hrep
  have hpost := hw.told.post ht hres
  rw [hcall] at hpost
  have hn : Unsettled th.hist := hpost c rfl hst
  exact hw.unwritten t th ht hn token hdrew key (carries_iff.mpr ⟨p, hp, hpt⟩)

/-- The second of two claims meets the record of the first. -/
def metAnother : List (Act (coordinator .plain)) :=
  .spawn (.claim "k" "h" 10) :: steps 0 7 "t0" ++ .spawn (.claim "k" "h" 10) :: steps 1 9 "t1"

theorem neverOwnClaim_met_another :
    NeverOwnClaim ((World.init KvState.fresh).run metAnother) ∧
      ∃ th, ((World.init KvState.fresh).run metAnother).threads[1]? = some th ∧
        th.rest.result? = some (.claim (.ok { state := .inProgress })) :=
  ⟨neverOwnClaim_of_reported .plain .fresh (fun _ _ h => by cases h) metAnother
    (by decide +kernel), _, rfl, rfl⟩

/-- A request that ends without a reply from the bucket. -/
def noReply : Outage := ⟨.other "nats: timeout" none, rfl⟩

/-- The `Create` of the only claim is applied and its reply is lost; the `Get` that
follows returns the record. -/
def lostReply : List (Act (coordinator .plain)) :=
  .spawn (.claim "k" "h" 10) :: steps 0 6 "t0" ++ .step 0 { fault := .lost noReply } :: steps 0 2 ""

theorem own_claim_in_progress : ¬ NeverOwnClaim ((World.init KvState.fresh).run lostReply) := by
  intro h
  refine h 0 _ "k" "h" 10 { state := .inProgress } "t0" rfl rfl rfl rfl ?_ ⟨_, rfl, by decide, rfl⟩
  exact List.Mem.tail _ (.tail _ (.tail _ (.tail _ (.head _))))

end TransportNats.Idempotency
