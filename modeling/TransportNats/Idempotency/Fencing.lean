import TransportNats.Idempotency.Regrant

/-!
Whether a caller that has lost its lease can still store its outcome.

`Complete` checks its claim, extends it, and then stores the entry with an
unconditional `Put`. Between the two the extended lease can run out and the
claim can pass to another token; the `Put` goes through all the same. It is
fenced exactly as long as no takeover and no deletion of the claim falls
between the extension and the `Put`.
-/

namespace TransportNats.Idempotency

open Interleaving VersionedStore

section
variable {K : Kernel}

/-- If the action is a `Complete` changing the entry record of its key, the
claim record of the key carries its token. -/
def Fenced (w : World (coordinator K)) (a : Act (coordinator K)) : Prop :=
  match w.caller? a with
  | some (.complete key token _ _) =>
      (w.act a).state.kv.revision (entryPrefix ++ key) ≠
        w.state.kv.revision (entryPrefix ++ key) → Carries w.state key token
  | _ => True

instance (w : World (coordinator K)) (a : Act (coordinator K)) : Decidable (Fenced w a) :=
  match h : w.caller? a with
  | some (.complete key token _ _) =>
      decidable_of_iff ((w.act a).state.kv.revision (entryPrefix ++ key) ≠
        w.state.kv.revision (entryPrefix ++ key) → Carries w.state key token)
        (by simp only [Fenced, h])
  | some (.claim _ _ _) | some (.release _ _) | some (.renewClaim _ _ _) | none =>
      isTrue (by simp only [Fenced, h])

/-! ### Disturbances -/

def isExtension (key : String) : Answered kvSig → Bool
  | ⟨.update k _ _, .ok _⟩ => k == claimPrefix ++ key
  | _ => false

def isPut : Answered kvSig → Bool
  | ⟨.put _ _, _⟩ => true
  | _ => false

/-- A `Complete` on `key` that has extended its claim and not stored its entry. -/
def storing (key : String) (th : Thread (coordinator K)) : Bool :=
  match th.call with
  | .complete k _ _ _ =>
      k == key && th.rest.result?.isNone && th.hist.any (isExtension key) && !th.hist.any isPut
  | _ => false

/-- The key whose claim record the thread is about to take over or to delete, at
the record's current revision. -/
def takesAway (s : KvState) (th : Thread (coordinator K)) : Option String :=
  match th.call, th.rest.next? with
  | .claim key _ _, some (.update k _ r) => if s.kv.revision k = r then some key else none
  | .complete key _ _ _, some (.delete k r) => if s.kv.revision k = r then some key else none
  | .release key _, some (.delete k r) => if s.kv.revision k = r then some key else none
  | _, _ => none

/-- The request does not reach the bucket. -/
def Fault.drops : Fault → Bool
  | .dropped _ => true
  | .none | .lost _ => false

/-- The action does not take a claim away from a `Complete` that is storing. -/
def Undisturbed (w : World (coordinator K)) (a : Act (coordinator K)) : Prop :=
  match a with
  | .step t ch =>
      (ch.fault.drops || (w.threads[t]?.bind (takesAway w.state)).all
        fun key => w.threads.all fun th => !storing key th) = true
  | .spawn _ | .env _ => True

instance (w : World (coordinator K)) (a : Act (coordinator K)) : Decidable (Undisturbed w a) :=
  match a with
  | .step _ _ => inferInstanceAs (Decidable (_ = _))
  | .spawn _ | .env _ => inferInstanceAs (Decidable True)

theorem Undisturbed.not_storing {w : World (coordinator K)} {t u : ℕ} {ch : KvChoice}
    {th th' : Thread (coordinator K)} {key : String} (h : Undisturbed w (.step t ch))
    (hreach : ch.fault.drops = false) (ht : w.threads[t]? = some th)
    (htake : takesAway w.state th = some key) (hu : w.threads[u]? = some th') :
    storing key th' = false := by
  simp only [Undisturbed, hreach, Bool.false_or, ht, Option.bind_some, htake, Option.all_some,
    List.all_eq_true, Bool.not_eq_true'] at h
  exact h th' (List.mem_of_getElem? hu)

/-- A request that is applied has reached the bucket. -/
theorem drops_of_write {ch : KvChoice} {s : KvState} {o : KvOp} {k : String} {v : Option Data}
    (hkv : (exec ch s o).1.kv = s.kv.write k v) : ch.fault.drops = false := by
  have hne : (exec ch s o).1.kv ≠ s.kv := by
    intro heq
    have hseq := congrArg Store.seq (hkv.symm.trans heq)
    exact Nat.succ_ne_self _ hseq
  cases hf : ch.fault with
  | none | lost => rfl
  | dropped outage =>
      refine absurd ?_ hne
      cases o with
      | ctxErr | now | get => rfl
      | newToken =>
          simp only [exec]
          split <;> rfl
      | put | create | update | delete => simp only [exec, hf, commit]

theorem storing_eq_true {key token : String} {entry : IdempotencyEntry} {ttl : ℤ} {h : Hist}
    {r : ℕ} {rest : Kv KvResult} (hrest : rest.result? = none)
    (hext : Extended key token r h) (hput : NoPut h) :
    storing key (⟨.complete key token entry ttl, h, rest⟩ : Thread (coordinator K)) = true := by
  obtain ⟨p, r₀, hmem, -⟩ := hext
  have hany : h.any (isExtension key) = true :=
    List.any_eq_true.mpr ⟨_, hmem, by simp [isExtension]⟩
  have hnone : h.any isPut = false := by
    refine List.any_eq_false.mpr fun x hx hp => ?_
    unfold isPut at hp
    split at hp
    · exact hput _ hx _ _ rfl
    · cases hp
  simp [storing, hrest, hany, hnone]

/-! ### The invariant -/

/-- A `Complete` that is storing owns the claim. -/
structure Owning (s : KvState) (th : Thread (coordinator K)) : Prop where
  carries : ∀ {key token entry ttl r}, th.call = .complete key token entry ttl →
    th.rest.result? = none → Extended key token r th.hist → NoPut th.hist → Carries s key token

theorem NoPut.of_cons {x : Answered kvSig} {h : Hist} (hs : NoPut (x :: h)) : NoPut h :=
  fun y hy => hs y (List.mem_cons_of_mem _ hy)

theorem owning_self {w : World (coordinator K)} (hok : (protocol K).Ok w) {t : ℕ}
    {ch : KvChoice} {c : KvCall} {h : Hist} {o : KvOp} {k : o.Ret → Kv KvResult}
    (ht : w.threads[t]? = some ⟨c, h, .call o k⟩)
    (hs : Owning w.state (⟨c, h, .call o k⟩ : Thread (coordinator K))) :
    Owning (exec ch w.state o).1
      (⟨c, ⟨o, (exec ch w.state o).2⟩ :: h, k (exec ch w.state o).2⟩ :
        Thread (coordinator K)) := by
  refine ⟨fun {key token entry ttl r} hc _ hext hput => ?_⟩
  obtain rfl : c = .complete key token entry ttl := hc
  have hg := hok.guard ht
  cases exec_effect ch w.state o with
  | silent hkv hno =>
      obtain ⟨p, r₀, hmem, hp⟩ := hext
      rcases List.mem_cons.mp hmem with heq | hmem
      · exact absurd (heq ▸ Reports.update _ _ _ _) (hno _ _ _)
      · exact (hs.carries rfl rfl ⟨p, r₀, hmem, hp⟩ hput.of_cons).congr (by rw [hkv])
  | wrote key' v happ hkv =>
      cases happ with
      | create => exact hg.elim
      | put => exact absurd rfl (hput _ List.mem_cons_self _ _)
      | update data hrev =>
          obtain ⟨rfl, ⟨p, expiresAt, -, hp, rfl⟩, -⟩ := hg
          exact carries_iff.mpr ⟨_, claimRecord_of_write hkv, hp⟩
      | delete hrev =>
          obtain ⟨-, -, data, rp, hmem⟩ := hg
          exact absurd rfl (hput _ (List.mem_cons_of_mem _ hmem) _ _)

theorem owning_other {w : World (coordinator K)} (hok : (protocol K).Ok w) {t u : ℕ}
    {ch : KvChoice} {th : Thread (coordinator K)} (ht : w.threads[t]? = some th)
    (hC : Undisturbed w (.step u ch)) (hs : Owning w.state th) :
    Owning (w.act (.step u ch)).state th := by
  refine ⟨fun {key token entry ttl r} hc hrest hext hput => ?_⟩
  have hcar := hs.carries hc hrest hext hput
  obtain ⟨q, hq, hqt⟩ := carries_iff.mp hcar
  rcases act_claim hok (.step u ch) key with hsame | ⟨u', _, c, h, o, k, v, ha, hu, hwrite, hkv⟩
  · exact hcar.congr hsame
  · cases ha
    have hreach := drops_of_write (World.act_step ch hu ▸ hkv)
    have hstoring : storing key th = true := by
      obtain ⟨c', h', rest⟩ := th
      obtain rfl := hc
      exact storing_eq_true hrest hext hput
    -- a write that takes the claim away would disturb this thread
    have hkept : takesAway w.state (⟨c, h, .call o k⟩ : Thread (coordinator K)) ≠ some key := by
      intro htake
      rw [hC.not_storing hreach hu htake ht] at hstoring
      cases hstoring
    cases hwrite with
    | created hempty => exact absurd hempty hcar.read_ne_none
    | replaced _ _ _ current => exact absurd (by simp [takesAway, current]) hkept
    | completed _ _ _ current => exact absurd (by simp [takesAway, current]) hkept
    | released _ _ current => exact absurd (by simp [takesAway, current]) hkept
    | completing was own =>
        cases hq.symm.trans was
        exact carries_iff.mpr ⟨_, claimRecord_of_write hkv, hqt⟩
    | renewed was own =>
        cases hq.symm.trans was
        exact carries_iff.mpr ⟨_, claimRecord_of_write hkv, hqt⟩

structure AllOwning (w : World (coordinator K)) : Prop where
  ok : (protocol K).Ok w
  owning : ∀ (t : ℕ) (th : Thread (coordinator K)), w.threads[t]? = some th → Owning w.state th

theorem allOwning_moves {w w' : World (coordinator K)} {a : Act (coordinator K)}
    (hm : w.Moves a w') (hC : Undisturbed w a) (hw : AllOwning w) : AllOwning w' := by
  refine ⟨(protocol K).ok_moves hm hw.ok, fun t th ht => ?_⟩
  cases hm with
  | idle => exact hw.owning _ _ ht
  | env d => exact ⟨fun hc hr he hp => (hw.owning _ _ ht).carries hc hr he hp⟩
  | enter h =>
      cases h
      rcases World.getElem?_enter ht with ht | ⟨-, rfl⟩
      · exact hw.owning _ _ ht
      · exact ⟨fun _ _ ⟨_, _, hmem, _⟩ => by simp [Thread.start] at hmem⟩
  | @perform u ch c h o k hu =>
      have hact := World.act_step ch hu
      rw [World.getElem?_perform hu] at ht
      split at ht
      · obtain rfl := Option.some.inj ht
        exact owning_self hw.ok hu (hw.owning _ _ hu)
      · exact hact ▸ owning_other hw.ok ht hC (hw.owning _ _ ht)

/-- Only a thread that is storing changes an entry record. -/
theorem fenced_of_allOwning {w : World (coordinator K)} (hw : AllOwning w)
    (a : Act (coordinator K)) : Fenced w a := by
  unfold Fenced
  split
  · rename_i key token entry ttl hcaller
    intro hrev
    rcases act_kv hw.ok a with hkv | ⟨t, ch, c, h, o, k, key', v, rfl, ht, hg, -, happ, hkv⟩
    · exact absurd (by rw [hkv]) hrev
    · rw [World.caller?_step ch ht] at hcaller
      obtain rfl : c = .complete key token entry ttl := Option.some.inj hcaller
      by_cases hk : key' = entryPrefix ++ key
      · subst hk
        obtain ⟨_, _, _, _, hc, rfl, -, hput, ⟨r, hext⟩, -⟩ := entryWrite hg happ
        cases hc
        exact (hw.owning _ _ ht).carries rfl rfl hext hput
      · exact absurd (by rw [hkv, Store.revision_write_ne _ _ (Ne.symm hk)]) hrev
  · trivial

/-- Fencing of completed outcomes, in every run in which no claim is taken over
or deleted while a `Complete` is between its extension and its `Put`. -/
theorem fenced_of_undisturbed (K : Kernel) (s : KvState) (acts : List (Act (coordinator K)))
    (hC : World.Always Undisturbed (World.init s) acts) :
    World.Always Fenced (World.init s) acts :=
  World.Always.imp allOwning_moves (fun _ hw => fenced_of_allOwning hw _)
    ⟨(protocol K).ok_init s, fun _ _ ht => by simp [World.init] at ht⟩ hC

end

/-! ### The run in which a stale outcome is stored -/

def staleEntry : IdempotencyEntry := ⟨500, [], 0, "h"⟩

/-- The first owner extends its claim and stops just before its `Put`. The
extended lease runs out, a second owner takes the claim over and completes. -/
def completedByNewOwner : List (Act (coordinator .plain)) :=
  .spawn (.claim "k" "h" 10) :: steps 0 7 "t0" ++
    .spawn (.complete "k" "t0" staleEntry 0) :: steps 1 7 "" ++
    .env 40 :: .spawn (.claim "k" "h" 10) :: steps 2 10 "t2" ++
    .spawn (.complete "k" "t2" doneEntry 0) :: steps 3 10 ""

/-- When the first owner goes on, it overwrites the outcome of the second. -/
theorem stale_outcome_stored :
    ¬ World.Always Fenced (World.init KvState.fresh) (completedByNewOwner ++ [.step 1 {}]) := by
  decide +kernel

/-- An owner that renews its claim in time completes under it. -/
theorem fenced_after_renewal :
    World.Always Fenced (World.init KvState.fresh)
      ((.spawn (.claim "k" "h" 10) : Act (coordinator .plain)) :: steps 0 7 "t0" ++
        .env 5 :: .spawn (.renewClaim "k" "t0" 10) :: steps 1 5 "" ++
        .env 9 :: .spawn (.complete "k" "t0" doneEntry 0) :: steps 2 10 "") :=
  fenced_of_undisturbed .plain .fresh _ (by decide +kernel)

end TransportNats.Idempotency
