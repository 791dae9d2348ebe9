import TransportNats.Idempotency.Protocol

/-!
Who may touch a claim record, and for how long a grant lasts.

`ClaimWrite` lists every way in which a call can write the claim record of a
key. A grant therefore lasts until its own token deletes the record or a
`Claim` replaces it after it has expired.
-/

namespace TransportNats.Idempotency

open Interleaving VersionedStore

theorem claimPrefix_inj {a b : String} (h : claimPrefix ++ a = claimPrefix ++ b) : a = b := by
  have hl := congrArg String.toList h
  exact String.toList_inj.mp (by simpa [claimPrefix] using hl)

theorem entryPrefix_inj {a b : String} (h : entryPrefix ++ a = entryPrefix ++ b) : a = b := by
  have hl := congrArg String.toList h
  exact String.toList_inj.mp (by simpa [entryPrefix] using hl)

theorem claimPrefix_ne_entryPrefix (a b : String) : claimPrefix ++ a ≠ entryPrefix ++ b := by
  intro h
  have := congrArg String.toList h
  simp [claimPrefix, entryPrefix] at this

/-! ### Claim records -/

/-- The claim record of a key, if there is one that decodes. -/
def KvState.claimRecord (s : KvState) (key : String) : Option KVClaimPayload :=
  match s.kv.read (claimPrefix ++ key) with
  | some (value, _) => (unmarshalClaim value).toOption
  | none => none

/-- The claim record of `key` carries `token`. -/
def Carries (s : KvState) (key token : String) : Prop :=
  (s.claimRecord key).map (·.token) = some token

instance (s : KvState) (key token : String) : Decidable (Carries s key token) :=
  inferInstanceAs (Decidable (_ = _))

section
variable {s : KvState} {key token : String} {p : KVClaimPayload} {r : ℕ} {h : Hist}

theorem claimRecord_of_cells {value : Data}
    (hc : s.kv.cells (claimPrefix ++ key) = some ⟨some value, r⟩)
    (hv : unmarshalClaim value = .ok p) : s.claimRecord key = some p := by
  simp [KvState.claimRecord, Store.read_of_cells hc, hv, Except.toOption]

theorem carries_iff : Carries s key token ↔ ∃ p, s.claimRecord key = some p ∧ p.token = token := by
  simp [Carries, Option.map_eq_some_iff]

theorem Carries.read_ne_none (hc : Carries s key token) :
    s.kv.read (claimPrefix ++ key) ≠ none := by
  intro hn
  simp [Carries, KvState.claimRecord, hn] at hc

/-- A record still at the revision at which it was read is what was read. -/
theorem SawClaim.claimRecord (hs : SawClaim key r p h) (hx : ∀ x ∈ h, Sound s x)
    (hr : s.kv.revision (claimPrefix ++ key) = r) : s.claimRecord key = some p := by
  obtain ⟨value, hmem, hv⟩ := hs
  exact claimRecord_of_cells (((hx _ hmem).got rfl).cells hr) hv

theorem Extended.claimRecord (hs : Extended key token r h) (hx : ∀ x ∈ h, Sound s x)
    (hr : s.kv.revision (claimPrefix ++ key) = r) :
    ∃ p, s.claimRecord key = some p ∧ p.token = token := by
  obtain ⟨p, r₀, hmem, ht⟩ := hs
  have hrec := ((hx _ hmem).wrote (.update _ _ _ _)).1
  exact ⟨p, claimRecord_of_cells (hrec.cells hr) (unmarshalClaim_marshalClaim p), ht⟩

end

/-! ### Every write of a claim record -/

/-- The ways in which a call may write the claim record of `key`: with `o`,
after the history `h`, leaving `v`. -/
inductive ClaimWrite (K : Kernel) (s : KvState) (key : String) :
    KvCall → Hist → KvOp → Option Data → Prop
  | created {requestHash leaseTTL h p} (empty : s.kv.read (claimPrefix ++ key) = none)
      (noEntry : SawNoEntry K key h) :
      ClaimWrite K s key (.claim key requestHash leaseTTL) h
        (.create (claimPrefix ++ key) (marshalClaim p)) (some (marshalClaim p))
  | replaced {requestHash leaseTTL h p p' r} (was : s.claimRecord key = some p)
      (expired : p.expiresAt.val ≤ s.clock.val) (noEntry : SawNoEntry K key h)
      (current : s.kv.revision (claimPrefix ++ key) = r) :
      ClaimWrite K s key (.claim key requestHash leaseTTL) h
        (.update (claimPrefix ++ key) (marshalClaim p') r) (some (marshalClaim p'))
  | completing {token entry ttl h p expiresAt r} (was : s.claimRecord key = some p)
      (own : p.token = token) (noPut : NoPut h) :
      ClaimWrite K s key (.complete key token entry ttl) h
        (.update (claimPrefix ++ key) (marshalClaim { p with expiresAt := expiresAt }) r)
        (some (marshalClaim { p with expiresAt := expiresAt }))
  | renewed {token leaseTTL h p expiresAt r} (was : s.claimRecord key = some p)
      (own : p.token = token) :
      ClaimWrite K s key (.renewClaim key token leaseTTL) h
        (.update (claimPrefix ++ key) (marshalClaim { p with expiresAt := expiresAt }) r)
        (some (marshalClaim { p with expiresAt := expiresAt }))
  | completed {token entry ttl h p r} (was : s.claimRecord key = some p) (own : p.token = token)
      (extended : Extended key token r h)
      (current : s.kv.revision (claimPrefix ++ key) = r) :
      ClaimWrite K s key (.complete key token entry ttl) h (.delete (claimPrefix ++ key) r) none
  | released {token h p r} (was : s.claimRecord key = some p) (own : p.token = token)
      (current : s.kv.revision (claimPrefix ++ key) = r) :
      ClaimWrite K s key (.release key token) h (.delete (claimPrefix ++ key) r) none

theorem claimWrite {K : Kernel} {s : KvState} {key : String} {c : KvCall} {h : Hist} {o : KvOp}
    {v : Option Data} (hg : c.guard K h o) (hx : ∀ x ∈ h, Sound s x)
    (happ : Applies s.kv o (claimPrefix ++ key) v) : ClaimWrite K s key c h o v := by
  cases c with
  | claim key' requestHash leaseTTL =>
      cases happ with
      | put => exact hg.elim
      | create data hread =>
          obtain ⟨hk, hno, token, -, p, rfl, -⟩ := hg
          obtain rfl := claimPrefix_inj hk
          exact .created hread hno
      | update data hrev =>
          obtain ⟨hk, hno, ⟨token, -, p', rfl, -⟩, p, now, hsaw, hnow, hle⟩ := hg
          obtain rfl := claimPrefix_inj hk
          exact .replaced (hsaw.claimRecord hx hrev)
            (Int.le_trans hle ((hx _ hnow).now rfl)) hno hrev
      | delete => exact hg.elim
  | complete key' token entry ttl =>
      cases happ with
      | put => exact absurd hg.1 (claimPrefix_ne_entryPrefix _ _)
      | create => exact hg.elim
      | update data hrev =>
          obtain ⟨hk, ⟨p, expiresAt, hsaw, ht, rfl⟩, hput⟩ := hg
          obtain rfl := claimPrefix_inj hk
          exact .completing (hsaw.claimRecord hx hrev) ht hput
      | delete hrev =>
          obtain ⟨hk, hext, -⟩ := hg
          obtain rfl := claimPrefix_inj hk
          obtain ⟨p, hp, ht⟩ := hext.claimRecord hx hrev
          exact .completed hp ht hext hrev
  | release key' token =>
      cases happ with
      | put | create | update => exact hg.elim
      | delete hrev =>
          obtain ⟨hk, p, hsaw, ht⟩ := hg
          obtain rfl := claimPrefix_inj hk
          exact .released (hsaw.claimRecord hx hrev) ht hrev
  | renewClaim key' token leaseTTL =>
      cases happ with
      | put | create | delete => exact hg.elim
      | update data hrev =>
          obtain ⟨hk, p, expiresAt, hsaw, ht, rfl⟩ := hg
          obtain rfl := claimPrefix_inj hk
          exact .renewed (hsaw.claimRecord hx hrev) ht

/-! ### Grants -/

section
variable {K : Kernel}

/-- The key and token a thread has been granted. -/
def granted? (th : Thread (coordinator K)) : Option (String × String) :=
  match th.call, th.rest.result? with
  | .claim key _ _, some (.claim (.ok c)) =>
      if c.state = .acquired then some (key, c.token) else none
  | _, _ => none

/-- With the action `a`, a `Claim` on `key` returns that it acquired `token`. -/
def Grants (w : World (coordinator K)) (a : Act (coordinator K)) (key token : String) : Prop :=
  match a with
  | .step t _ =>
      w.threads[t]?.bind granted? = none ∧
        (w.act a).threads[t]?.bind granted? = some (key, token)
  | .spawn _ | .env _ => False

instance (w : World (coordinator K)) (a : Act (coordinator K)) (key token : String) :
    Decidable (Grants w a key token) :=
  match a with
  | .step _ _ => inferInstanceAs (Decidable (_ ∧ _))
  | .spawn _ | .env _ => inferInstanceAs (Decidable False)

theorem granted?_eq_some {th : Thread (coordinator K)} {key token : String}
    (h : granted? th = some (key, token)) :
    ∃ requestHash leaseTTL c, th.call = .claim key requestHash leaseTTL ∧
      th.rest.result? = some (.claim (.ok c)) ∧ c.state = .acquired ∧ c.token = token := by
  unfold granted? at h
  split at h
  · split at h
    · cases h
      exact ⟨_, _, _, ‹_›, ‹_›, ‹_›, rfl⟩
    · cases h
  · cases h

/-- A granting action is the successful write of a claim record. -/
theorem Grants.writes {w : World (coordinator K)} {a : Act (coordinator K)} {key token : String}
    (hw : (protocol K).Ok w) (hg : Grants w a key token) :
    ∃ t ch requestHash leaseTTL h o, ∃ k : o.Ret → Kv KvResult, ∃ p : KVClaimPayload,
      a = .step t ch ∧
      w.threads[t]? = some ⟨.claim key requestHash leaseTTL, h, .call o k⟩ ∧
      p.token = token ∧ Applies w.state.kv o (claimPrefix ++ key) (some (marshalClaim p)) ∧
      (w.act a).state.kv = w.state.kv.write (claimPrefix ++ key) (some (marshalClaim p)) := by
  cases a with
  | spawn c => exact hg.elim
  | env d => exact hg.elim
  | step t ch =>
  obtain ⟨hbefore, hafter⟩ := hg
  obtain ⟨th', ht', hth'⟩ := Option.bind_eq_some_iff.mp hafter
  obtain ⟨requestHash, leaseTTL, claim, hc, hres, hst, rfl⟩ := granted?_eq_some hth'
  have hok := (protocol K).ok_moves (World.moves_act w (.step t ch)) hw
  have hpost := hok.post ht' hres
  have hm := World.moves_act w (.step t ch)
  generalize hw' : w.act (.step t ch) = w' at hm hafter ht' ⊢
  cases hm with
  | idle => cases hbefore.symm.trans hafter
  | @perform _ _ c h o k ht =>
      rw [World.getElem?_perform ht, if_pos rfl] at ht'
      obtain rfl := Option.some.inj ht'
      obtain rfl := hc
      change claimPost K key requestHash _ (.ok claim) at hpost
      simp only [claimPost, hst] at hpost
      obtain ⟨p, x, r, h', hcons, hp, hrep⟩ := hpost
      obtain ⟨rfl, rfl⟩ := List.cons.inj hcons
      refine ⟨t, ch, requestHash, leaseTTL, h, o, k, p, rfl, ht, hp, ?_⟩
      cases exec_effect ch w.state o with
      | silent _ hno => exact absurd hrep (hno _ _ _)
      | wrote key' v happ hkv =>
          obtain ⟨rfl, rfl⟩ := hrep.applies happ
          exact ⟨happ, hkv⟩

/-! ### How long a grant lasts -/

/-- The action changes the claim record of `key`. -/
def Touches (w : World (coordinator K)) (a : Act (coordinator K)) (key : String) : Prop :=
  (w.act a).state.kv.revision (claimPrefix ++ key) ≠ w.state.kv.revision (claimPrefix ++ key)

/-- The action ends the grant of `token`: its own `Complete` or `Release`
deletes the record, or a `Claim` replaces it when the clock has reached the
expiry stored with it. -/
def Ends (w : World (coordinator K)) (a : Act (coordinator K)) (key token : String) : Prop :=
  Touches w a key ∧
    (((w.act a).state.claimRecord key = none ∧
        ((∃ entry ttl, w.caller? a = some (.complete key token entry ttl)) ∨
          w.caller? a = some (.release key token))) ∨
      ∃ requestHash leaseTTL p, w.caller? a = some (.claim key requestHash leaseTTL) ∧
        w.state.claimRecord key = some p ∧ p.expiresAt.val ≤ w.state.clock.val)

/-- The action leaves the grant of `token` standing: nobody is granted the key,
and only a call that carries `token` may rewrite the record. -/
structure Keeps (w : World (coordinator K)) (a : Act (coordinator K)) (key token : String) :
    Prop where
  carries : Carries (w.act a).state key token
  noGrant : ∀ token', ¬ Grants w a key token'
  byOwner : Touches w a key →
    (∃ entry ttl, w.caller? a = some (.complete key token entry ttl)) ∨
      ∃ leaseTTL, w.caller? a = some (.renewClaim key token leaseTTL)

/-- The claim record of `key` carries `token` until an action ends the grant. -/
def HeldUntil (key token : String) : World (coordinator K) → List (Act (coordinator K)) → Prop
  | w, [] => Carries w.state key token
  | w, a :: acts =>
      Carries w.state key token ∧
        (Ends w a key token ∨ Keeps w a key token ∧ HeldUntil key token (w.act a) acts)

theorem act_claim {w : World (coordinator K)} (hw : (protocol K).Ok w)
    (a : Act (coordinator K)) (key : String) :
    (w.act a).state.kv.cells (claimPrefix ++ key) = w.state.kv.cells (claimPrefix ++ key) ∨
      ∃ t ch c h o, ∃ k : o.Ret → Kv KvResult, ∃ v,
        a = .step t ch ∧ w.threads[t]? = some ⟨c, h, .call o k⟩ ∧
          ClaimWrite K w.state key c h o v ∧
          (w.act a).state.kv = w.state.kv.write (claimPrefix ++ key) v := by
  rcases act_kv hw a with hkv | ⟨t, ch, c, h, o, k, key', v, ha, ht, hg, hx, happ, hkv⟩
  · exact .inl (by rw [hkv])
  · by_cases hkey : claimPrefix ++ key = key'
    · subst hkey
      exact .inr ⟨t, ch, c, h, o, k, v, ha, ht, claimWrite hg hx happ, hkv⟩
    · exact .inl (by rw [hkv, Store.cells_write_ne _ _ hkey])

theorem touches_of_write {w : World (coordinator K)} {a : Act (coordinator K)} {key : String}
    {v : Option Data} (h : (w.act a).state.kv = w.state.kv.write (claimPrefix ++ key) v) :
    Touches w a key := by
  have := w.state.kv.revision_le_seq (claimPrefix ++ key)
  rw [Touches, h, Store.revision_write_self]
  omega

theorem claimRecord_of_write {s : KvState} {kv : Store String Data} {key : String}
    {p : KVClaimPayload} (h : s.kv = kv.write (claimPrefix ++ key) (some (marshalClaim p))) :
    s.claimRecord key = some p := by
  simp [KvState.claimRecord, h, Except.toOption]

theorem claimRecord_of_delete {s : KvState} {kv : Store String Data} {key : String}
    (h : s.kv = kv.write (claimPrefix ++ key) none) : s.claimRecord key = none := by
  simp [KvState.claimRecord, h]

theorem claimRecord_congr {s s' : KvState} {key : String}
    (h : s'.kv.cells (claimPrefix ++ key) = s.kv.cells (claimPrefix ++ key)) :
    s'.claimRecord key = s.claimRecord key := by
  simp [KvState.claimRecord, Store.read, h]

theorem Carries.congr {s s' : KvState} {key token : String} (hc : Carries s key token)
    (h : s'.kv.cells (claimPrefix ++ key) = s.kv.cells (claimPrefix ++ key)) :
    Carries s' key token := by
  rw [Carries, claimRecord_congr h]
  exact hc

/-- One action on a record that carries `token`. -/
theorem ends_or_keeps {w : World (coordinator K)} (hw : (protocol K).Ok w) {key token : String}
    (hc : Carries w.state key token) (a : Act (coordinator K)) :
    Ends w a key token ∨ Keeps w a key token := by
  obtain ⟨q, hq, hqt⟩ := carries_iff.mp hc
  rcases act_claim hw a key with hsame | ⟨t, ch, c, h, o, k, v, rfl, ht, hwrite, hkv⟩
  · have hno : ¬ Touches w a key := fun h => h (by simp [Store.revision, hsame])
    refine .inr ⟨?_, fun token' hg => ?_, fun h => absurd h hno⟩
    · exact hc.congr hsame
    · obtain ⟨_, _, _, _, _, _, _, _, _, _, _, _, hkv⟩ := hg.writes hw
      exact hno (touches_of_write hkv)
  · have htouch := touches_of_write hkv
    have hcaller := World.caller?_step ch ht
    -- only a thread whose call is a `Claim` can be granted the key
    have hgrant : ∀ token', Grants w (.step t ch) key token' →
        ∃ requestHash leaseTTL, c = .claim key requestHash leaseTTL := by
      rintro token' hg
      obtain ⟨t', _, requestHash, leaseTTL, _, _, _, _, ha, ht', _⟩ := hg.writes hw
      cases ha
      cases ht.symm.trans ht'
      exact ⟨requestHash, leaseTTL, rfl⟩
    cases hwrite with
    | created hempty => exact absurd hempty hc.read_ne_none
    | replaced was expired =>
        exact .inl ⟨htouch, .inr ⟨_, _, _, hcaller, was, expired⟩⟩
    | completing was own =>
        cases hq.symm.trans was
        refine .inr ⟨?_, fun token' hg => ?_, fun _ => .inl ⟨_, _, by rw [hcaller, ← own, hqt]⟩⟩
        · exact carries_iff.mpr ⟨_, claimRecord_of_write hkv, hqt⟩
        · obtain ⟨_, _, hcall⟩ := hgrant _ hg
          cases hcall
    | renewed was own =>
        cases hq.symm.trans was
        refine .inr ⟨?_, fun token' hg => ?_, fun _ => .inr ⟨_, by rw [hcaller, ← own, hqt]⟩⟩
        · exact carries_iff.mpr ⟨_, claimRecord_of_write hkv, hqt⟩
        · obtain ⟨_, _, hcall⟩ := hgrant _ hg
          cases hcall
    | completed was own =>
        cases hq.symm.trans was
        exact .inl ⟨htouch, .inl ⟨claimRecord_of_delete hkv,
          .inl ⟨_, _, by rw [hcaller, ← own, hqt]⟩⟩⟩
    | released was own =>
        cases hq.symm.trans was
        exact .inl ⟨htouch, .inl ⟨claimRecord_of_delete hkv, .inr (by rw [hcaller, ← own, hqt])⟩⟩

theorem heldUntil_of_carries {w : World (coordinator K)} (hw : (protocol K).Ok w)
    {key token : String} (hc : Carries w.state key token) (acts : List (Act (coordinator K))) :
    HeldUntil key token w acts := by
  induction acts generalizing w with
  | nil => exact hc
  | cons a acts ih =>
      refine ⟨hc, (ends_or_keeps hw hc a).imp_right fun hk => ⟨hk, ?_⟩⟩
      exact ih ((protocol K).ok_moves (World.moves_act w a) hw) hk.carries

/-- Lease mutual exclusion. From the moment a `Claim` acquires a key, in every
continuation of every run, its record stands until its own token deletes it or
it is replaced after it has expired; until then nobody else is granted the key
and no call with another token rewrites or deletes the record. -/
theorem lease_mutual_exclusion (K : Kernel) (s : KvState) (pre : List (Act (coordinator K)))
    (a : Act (coordinator K)) (post : List (Act (coordinator K))) (key token : String)
    (hgrant : Grants ((World.init s).run pre) a key token) :
    HeldUntil key token ((World.init s).run (pre ++ [a])) post := by
  have hok := (protocol K).ok_run s pre
  obtain ⟨_, _, _, _, _, _, _, p, _, _, hp, _, hkv⟩ := hgrant.writes hok
  refine heldUntil_of_carries ((protocol K).ok_run s _) ?_ post
  rw [World.run_append]
  exact carries_iff.mpr ⟨p, claimRecord_of_write hkv, hp⟩

end

/-- An empty bucket, just after time zero. -/
def KvState.fresh : KvState := ⟨.empty, .one, []⟩

/-- The next `n` operations of thread `t`, without faults; `token` is the token
it draws, if it draws one. -/
def steps {K : Kernel} (t n : ℕ) (token : String) : List (Act (coordinator K)) :=
  List.replicate n (.step t { token := token })

/-- A claim is granted; a second one then meets the record, and time passes. -/
theorem lease_mutual_exclusion_second_claim :
    HeldUntil "k" "t1"
      ((World.init KvState.fresh).run
        ((.spawn (.claim "k" "h" 10) :: steps 0 6 "t1") ++ [.step 0 { token := "t1" }]))
      ((.spawn (.claim "k" "h" 10) : Act (coordinator .plain)) :: steps 1 9 "t2" ++ [.env 20]) :=
  lease_mutual_exclusion .plain .fresh _ _ _ "k" "t1" (by decide +kernel)

end TransportNats.Idempotency
