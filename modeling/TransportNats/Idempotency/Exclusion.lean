import TransportNats.Library.Delegation
import TransportNats.Idempotency.OwnClaim
import TransportNats.Idempotency.Replay

/-!
One execution at a time.

What the coordinator promises is about claims; what its users want is about
actions. The executor calls the coordinator's methods among its own operations,
so a run of executions is, for the bucket, a run of coordinator calls, and an
execution that has got as far as running the action stands for a claim that was
granted and has been neither completed nor released. Two actions under one key
can then overlap only if one of the two leases has run out.
-/

namespace TransportNats.Idempotency

open Interleaving VersionedStore Program

/-! ### Executions as callers of the coordinator -/

/-- What a `Claim` has returned. -/
def KvResult.claimed : KvResult → Except Err IdempotencyClaim
  | .claim r => r
  | .done _ => .error (.other "not a claim" none)

/-- What the other methods have returned. -/
def KvResult.failure : KvResult → Option Err
  | .done err => err
  | .claim _ => none

section
variable (R : Runtime)

/-- Requests to the bucket are the operations of the coordinator's calls. -/
def bucketLayer : Layer (executor R) (coordinator R.kernel) where
  ops _ := kvEmbedding R
  state := ExecState.bucket
  choice := ExecChoice.kv
  env := id
  begins _ _ := []
  exec_state _ _ _ _ := rfl
  exec_ret _ _ _ _ := rfl
  enter_state h := by
    cases h
    rfl
  env_state _ _ := rfl

/-- What an execution has done, with the coordinator's methods as single steps. -/
abbrev Steps := List (Event (executor R) (coordinator R.kernel))

variable {R}

/-- A claim of the key has been granted with the token. -/
def Acquired (ev : Steps R) (key token : String) : Prop :=
  ∃ requestHash leaseTTL c,
    .call (.claim key requestHash leaseTTL) (.claim (.ok c)) ∈ ev ∧ c.state = .acquired ∧
      c.token = token

/-- The call completes or releases the claim that carries the token. -/
def KvCall.Finalises (key token : String) (c : KvCall) : Prop :=
  (∃ entry ttl, c = .complete key token entry ttl) ∨ c = .release key token

/-- A claim has been granted, and nothing has been completed or released. -/
structure Owns (ev : Steps R) (key token : String) : Prop where
  acquired : Acquired ev key token
  unfinished : ∀ c r, .call c r ∈ ev → ∀ key token, ¬ c.Finalises key token

theorem Acquired.cons {ev : Steps R} {key token : String} (ha : Acquired ev key token)
    (x : Event (executor R) (coordinator R.kernel)) : Acquired (x :: ev) key token :=
  let ⟨requestHash, leaseTTL, c, hmem, hst, ht⟩ := ha
  ⟨requestHash, leaseTTL, c, List.mem_cons_of_mem _ hmem, hst, ht⟩

theorem Owns.own {ev : Steps R} {key token : String} (ho : Owns ev key token)
    (x : Answered (execSig R)) : Owns (.own x :: ev) key token := by
  refine ⟨ho.acquired.cons _, fun c r hmem => ?_⟩
  rcases List.mem_cons.mp hmem with heq | hmem
  · cases heq
  · exact ho.unfinished c r hmem

/-- The key under which the coordinator is asked for the message, if it is. -/
def StoreKind.key? (R : Runtime) (cfg : IdempotencyConfig) (msg : Msg) : StoreKind → Option String
  | .coordinator => some (idempotencyKey R cfg msg)
  | .legacy => none

/-- The key under which a call runs the action with the coordinator, if it does. -/
def ExecCall.key? (R : Runtime) : ExecCall → Option String
  | .execute kind cfg msg | .serve (.topic kind (some cfg)) msg
  | .serve (.request kind (some cfg)) msg => kind.key? R cfg msg
  | .serve (.topic _ none) _ | .serve (.request _ none) _ | .serve .service _ | .renew _ _ _ => none

/-- An action is run under a key only by an owner of the key, and only an owner
completes or releases. -/
def ExecCall.steps (R : Runtime) (c : ExecCall) (ev : Steps R) :
    Request (executor R) (coordinator R.kernel) → Prop
  | .own (.executeDecoded _) => ∀ key, c.key? R = some key → ∃ token, Owns ev key token
  | .own _ => True
  | .call c => ∀ key token, c.Finalises key token → Acquired ev key token

section
variable {α : Type} {G : Steps R → Request (executor R) (coordinator R.kernel) → Prop}
  {Q : Steps R → List KvCall → α → Prop} {ev : Steps R} {cs : List KvCall}

/-- An operation that does nothing to the bucket. -/
theorem starts_of_bucket {o : ExecOp}
    (h : ∀ (ch : ExecChoice R) (s : ExecState R), (execOp R ch s o).1.bucket = s.bucket) :
    (bucketLayer R).Starts o :=
  fun ch s => congrArg some (h ch s).symm

theorem starts_executeDecoded (msg : Msg) : (bucketLayer R).Starts (.executeDecoded msg) := by
  refine starts_of_bucket fun ch s => ?_
  simp only [execOp]
  split <;> rfl

/-- An operation of the execution's own, and what follows it. -/
theorem composed_perform {o : ExecOp} {f : o.Ret R → Exec R α} (ho : (bucketLayer R).Starts o)
    (hG : G ev (.own o))
    (hf : ∀ r, (bucketLayer R).Composed G Q (.own ⟨o, r⟩ :: ev) cs (f r)) :
    (bucketLayer R).Composed G Q ev cs (Program.perform (S := execSig R) o >>= f) :=
  .own ho hG fun r => (List.append_nil cs).symm ▸ hf r

/-- A method of the coordinator, and what follows it. -/
theorem composed_method {β : Type} {c : KvCall} {p : Kv β} {wrap : β → KvResult}
    (unwrap : KvResult → β) (hp : c.program R.kernel = p >>= fun r => pure (wrap r))
    (hwrap : ∀ r, unwrap (wrap r) = r) {f : β → Exec R α} (hG : G ev (.call c))
    (hf : ∀ r, (bucketLayer R).Composed G Q (.call c r :: ev) cs (f (unwrap r))) :
    (bucketLayer R).Composed G Q ev cs (p.lift (kvEmbedding R) >>= f) := by
  have heq : p.lift (kvEmbedding R) >>= f =
      ((coordinator R.kernel).program c).lift ((bucketLayer R).ops c) >>=
        fun r => f (unwrap r) := by
    change _ = (c.program R.kernel).lift (kvEmbedding R) >>= _
    rw [hp, Program.lift_bind, Program.bind_assoc]
    congr 1
    funext r
    exact congrArg f (hwrap r).symm
  rw [heq]
  exact Layer.Composed.call (L := bucketLayer R) c (k := fun r => f (unwrap r)) (fun _ => rfl) hG hf

end

section
variable {c : ExecCall} {ev : Steps R} {key token : String}

/-- `p` is composed of calls of the coordinator, as the call `c` may make them. -/
abbrev ComposedFor (c : ExecCall) {α : Type} (ev : Steps R) (p : Exec R α) : Prop :=
  (bucketLayer R).Composed (c.steps R) (fun _ _ _ => True) ev [] p

theorem composed_releaseThen (ha : Acquired ev key token) (reply : Reply) :
    ComposedFor c ev (releaseThen (kvCoordinator R) key token reply) := by
  refine composed_method (c := .release key token) KvResult.failure rfl (fun _ => rfl) ?_
    fun _ => .ret trivial
  rintro key' token' (⟨_, _, heq⟩ | heq)
  · cases heq
  · cases heq
    exact ha

/-- Reading the outcome of the renewal, if one was started. -/
theorem composed_receiveRenewalError {α : Type} (started : Bool) {f : Option Err → Exec R α}
    (hf : ∀ r ev', ev ⊆ ev' → ComposedFor c ev' (f r)) :
    ComposedFor c ev (receiveRenewalError started >>= f) := by
  cases started with
  | true =>
      exact composed_perform (starts_of_bucket fun _ _ => rfl) trivial fun r =>
        hf r _ (List.subset_cons_self _ _)
  | false => exact hf none ev (List.Subset.refl _)

theorem composed_stopRenewal {α : Type} (started : Bool) {f : Unit → Exec R α}
    (hf : ∀ ev', ev ⊆ ev' → ComposedFor c ev' (f ())) :
    ComposedFor c ev (stopRenewal started >>= f) := by
  cases started with
  | true =>
      exact composed_perform (starts_of_bucket fun _ _ => rfl) trivial fun _ =>
        hf _ (List.subset_cons_self _ _)
  | false => exact hf ev (List.Subset.refl _)

theorem Acquired.mono {ev' : Steps R} (ha : Acquired ev key token) (hsub : ev ⊆ ev') :
    Acquired ev' key token :=
  let ⟨requestHash, leaseTTL, c, hmem, hst, ht⟩ := ha
  ⟨requestHash, leaseTTL, c, hsub hmem, hst, ht⟩

/-- What follows the action needs the claim only to complete or release it. -/
theorem composed_complete (ha : Acquired ev key token) (cfg : IdempotencyConfig)
    (entry : IdempotencyEntry) {f : Option Err → Exec R Reply}
    (hf : ∀ r ev', Acquired ev' key token → ComposedFor c ev' (f r)) :
    ComposedFor c ev ((kvCoordinator R).complete key token entry cfg.ttl >>= f) := by
  refine composed_method (c := .complete key token entry cfg.ttl) KvResult.failure rfl
    (fun _ => rfl) ?_ fun _ => hf _ _ (ha.cons _)
  rintro key' token' (⟨_, _, heq⟩ | heq)
  · cases heq
    exact ha
  · cases heq

theorem composed_executeClaimed (ho : Owns ev key token) (hkey : c.key? R = some key)
    (cfg : IdempotencyConfig) (msg : Msg) (reqHash : String) :
    ComposedFor c ev (executeClaimed (kvCoordinator R) cfg msg key reqHash token) := by
  unfold executeClaimed
  have hstart : (bucketLayer R).Composed (c.steps R) (fun ev' cs _ => Owns ev' key token ∧ cs = [])
      ev [] (startCoordinatorLeaseRenewal (kvCoordinator R) key token cfg.effectiveLeaseTTL) := by
    unfold startCoordinatorLeaseRenewal
    split
    · exact composed_perform (starts_of_bucket fun _ _ => rfl) trivial fun _ =>
        .ret ⟨ho.own _, rfl⟩
    · exact .ret ⟨ho, rfl⟩
  refine hstart.bind ?_
  rintro ev₁ cs started ⟨ho₁, rfl⟩
  refine composed_perform (starts_executeDecoded msg) ?_ fun outcome => ?_
  · intro key' hkey'
    cases hkey.symm.trans hkey'
    exact ⟨token, ho₁⟩
  refine composed_stopRenewal started fun ev₂ hsub₂ => ?_
  have ha₂ : Acquired ev₂ key token := (ho₁.acquired.cons _).mono hsub₂
  cases outcome with
  | panicked => exact composed_releaseThen ha₂ _
  | failed execErr =>
      refine composed_receiveRenewalError started fun r ev₃ hsub₃ => ?_
      cases r with
      | some err => exact composed_releaseThen (ha₂.mono hsub₃) _
      | none => exact composed_releaseThen (ha₂.mono hsub₃) _
  | value res =>
      refine composed_receiveRenewalError started fun r ev₃ hsub₃ => ?_
      cases r with
      | some err => exact composed_releaseThen (ha₂.mono hsub₃) _
      | none =>
          dsimp only
          split
          · exact composed_releaseThen (ha₂.mono hsub₃) _
          · refine composed_perform (o := .kv .now) (starts_of_bucket fun _ _ => rfl) trivial
              fun now => ?_
            refine composed_complete ((ha₂.mono hsub₃).cons _) cfg _ fun r ev₄ ha₄ => ?_
            cases r with
            | some err => exact composed_releaseThen ha₄ _
            | none => exact .ret trivial

theorem composed_executeWithCoordinator (hkey : c.key? R = some key) (cfg : IdempotencyConfig)
    (msg : Msg) (reqHash : String) :
    ComposedFor c [] (executeWithCoordinator (kvCoordinator R) cfg msg key reqHash) := by
  unfold executeWithCoordinator
  refine composed_method (c := .claim key reqHash cfg.effectiveLeaseTTL)
    KvResult.claimed rfl (fun _ => rfl) ?_ fun r => ?_
  · rintro key' token' (⟨_, _, heq⟩ | heq) <;> cases heq
  · cases r with
    | done err => exact .ret trivial
    | claim r =>
        cases r with
        | error err => exact .ret trivial
        | ok claim =>
            dsimp only [KvResult.claimed]
            split
            · split <;> exact .ret trivial
            · exact .ret trivial
            · exact .ret trivial
            · rename_i hst
              refine composed_executeClaimed
                ⟨⟨_, _, claim, List.mem_singleton_self _, hst, rfl⟩, ?_⟩ hkey cfg msg reqHash
              intro c' r hmem key' token'
              cases List.mem_singleton.mp hmem
              rintro (⟨_, _, heq⟩ | heq) <;> cases heq
            · exact .ret trivial

theorem composed_executeWithLegacyStore (hkey : c.key? R = none) (cfg : IdempotencyConfig)
    (msg : Msg) (key reqHash : String) :
    ComposedFor (R := R) c [] (executeWithLegacyStore cfg msg key reqHash) := by
  unfold executeWithLegacyStore
  refine composed_perform (starts_of_bucket fun _ _ => rfl) trivial fun r => ?_
  cases r with
  | some entry =>
      dsimp only
      split <;> exact .ret trivial
  | none =>
      refine composed_perform (starts_executeDecoded msg) ?_ fun outcome => ?_
      · intro key' hkey'
        cases hkey.symm.trans hkey'
      cases outcome with
      | panicked => exact .ret trivial
      | failed execErr => exact .ret trivial
      | value res =>
          dsimp only
          split
          · exact .ret trivial
          · refine composed_perform (o := .kv .now) (starts_of_bucket fun _ _ => rfl) trivial
              fun now => ?_
            exact composed_perform (starts_of_bucket fun _ _ => rfl) trivial fun _ => .ret trivial

theorem composed_executeWithIdempotency (kind : StoreKind) (cfg : IdempotencyConfig) (msg : Msg)
    (hkey : c.key? R = kind.key? R cfg msg) :
    ComposedFor c [] (executeWithIdempotency R (kind.store R) cfg msg) := by
  cases kind with
  | coordinator => exact composed_executeWithCoordinator hkey cfg msg _
  | legacy => exact composed_executeWithLegacyStore hkey cfg msg _ _

theorem ComposedFor.map {α β : Type} {p : Exec R α} (hp : ComposedFor c ev p) (f : α → β) :
    ComposedFor c ev (p >>= fun a => pure (f a)) :=
  Layer.Composed.bind hp fun _ _ _ _ => .ret trivial

/-- The action itself, for a call that does not use the coordinator. -/
theorem composed_executeDecoded (hkey : c.key? R = none) (msg : Msg) :
    ComposedFor c [] (executeDecoded (R := R) msg) := by
  refine .own (starts_executeDecoded msg) ?_ fun _ => .ret trivial
  intro key hkey'
  cases hkey.symm.trans hkey'

theorem composed_topicReply (kind : StoreKind) (actionMeta : Option IdempotencyConfig) (msg : Msg)
    (hkey : c.key? R = actionMeta.bind fun cfg => kind.key? R cfg msg) :
    ComposedFor c [] (Rpc.topicReply R kind actionMeta msg) := by
  cases actionMeta with
  | some cfg => exact composed_executeWithIdempotency kind cfg msg hkey
  | none => exact (composed_executeDecoded hkey msg).map _

end

theorem composed_execCall (c : ExecCall) : ComposedFor c [] (c.program R) := by
  cases c with
  | execute kind cfg msg => exact (composed_executeWithIdempotency kind cfg msg rfl).map _
  | serve endpoint msg =>
      refine ComposedFor.map ?_ _
      cases endpoint with
      | topic kind actionMeta =>
          refine (composed_topicReply kind actionMeta msg ?_).map _
          cases actionMeta <;> rfl
      | request kind actionMeta =>
          refine (composed_topicReply kind actionMeta msg ?_).map _
          cases actionMeta <;> rfl
      | service => exact ((composed_executeDecoded rfl msg).map _).map _
  | renew key token leaseTTL =>
      refine composed_method (c := .renewClaim key token leaseTTL) KvResult.failure rfl
        (fun _ => rfl) ?_ fun _ => .ret trivial
      rintro key' token' (⟨_, _, heq⟩ | heq) <;> cases heq

/-- Executions, served requests and renewals, all as callers of the coordinator. -/
def delegation (R : Runtime) : Delegation (executor R) (coordinator R.kernel) where
  toLayer := bucketLayer R
  guard c := c.steps R
  post _ _ _ _ := True
  program := composed_execCall

end

/-! ### How a grant is lost -/

section
variable {K : Kernel}

/-- What a thread that has been granted a key wrote, and what entitled it to. -/
theorem written_of_granted {w : World (coordinator K)} (hw : (protocol K).Ok w) {i : ℕ}
    {th : Thread (coordinator K)} (ht : w.threads[i]? = some th) {key token : String}
    (hg : granted? th = some (key, token)) :
    ∃ p h', p.token = token ∧ h' ⊆ th.hist ∧ SawNoEntry K key h' ∧
      ∃ token, OwnToken token (marshalClaim p) h' := by
  obtain ⟨requestHash, leaseTTL, c, hcall, hres, hst, rfl⟩ := granted?_eq_some hg
  have hpost := hw.post ht hres
  rw [hcall] at hpost
  change claimPost K key requestHash th.hist (.ok c) at hpost
  simp only [claimPost, hst] at hpost
  obtain ⟨p, x, r, h', hh, hp, hrep⟩ := hpost
  have hguard := (hw _ _ ht).allowed (x := x) (h := h') (hh ▸ List.suffix_refl _)
  rw [hcall] at hguard
  refine ⟨p, h', hp, hh ▸ List.subset_cons_self _ _, ?_⟩
  generalize marshalClaim p = data at hrep ⊢
  cases hrep with
  | put => exact hguard.elim
  | create => exact hguard.2
  | update => exact ⟨hguard.2.1, hguard.2.2.1⟩

/-- A thread that has been granted a key has drawn the token itself. -/
theorem drew_of_granted {w : World (coordinator K)} (hw : (protocol K).Ok w) {i : ℕ}
    {th : Thread (coordinator K)} (ht : w.threads[i]? = some th) {key token : String}
    (hg : granted? th = some (key, token)) : Drew th token := by
  obtain ⟨p, h', rfl, hsub, -, token, hdrew, q, hq, rfl⟩ := written_of_granted hw ht hg
  have hpq : p = q := by
    have := congrArg unmarshalClaim hq
    rw [unmarshalClaim_marshalClaim, unmarshalClaim_marshalClaim] at this
    exact Except.ok.inj this
  rw [Drew, hpq]
  exact hsub hdrew

/-- Some call has been made to complete or release the claim that carries `token`. -/
def Finalising (w : World (coordinator K)) (key token : String) : Prop :=
  ∃ (j : ℕ) (th : Thread (coordinator K)), w.threads[j]? = some th ∧ th.call.Finalises key token

/-- Tokens belong to the threads that have drawn them, and a grant stands until it is
finalised or lost in a way that `lost` admits. -/
structure Held (lost : String → String → Prop) (w : World (coordinator K)) : Prop where
  ok : (protocol K).Ok w
  drawn : ∀ {i : ℕ} {th token}, w.threads[i]? = some th → Drew th token → token ∈ w.state.issued
  unique : ∀ {i j : ℕ} {th th' token}, w.threads[i]? = some th → w.threads[j]? = some th' →
    Drew th token → Drew th' token → i = j
  held : ∀ {i : ℕ} {th key token}, w.threads[i]? = some th → granted? th = some (key, token) →
    Carries w.state key token ∨ Finalising w key token ∨ lost key token

theorem held_init (lost : String → String → Prop) (s : KvState) :
    Held lost (World.init s : World (coordinator K)) where
  ok := (protocol K).ok_init s
  drawn ht := by simp [World.init] at ht
  unique ht := by simp [World.init] at ht
  held ht := by simp [World.init] at ht

theorem Finalising.moves {w w' : World (coordinator K)} {a : Act (coordinator K)}
    (hm : w.Moves a w') {key token : String} (hf : Finalising w key token) :
    Finalising w' key token := by
  obtain ⟨j, th, hj, hfin⟩ := hf
  obtain ⟨th', hj', hlater⟩ := hm.thread hj
  exact ⟨j, th', hj', hlater.call ▸ hfin⟩

theorem finalising_of_caller {w : World (coordinator K)} {a : Act (coordinator K)} {c : KvCall}
    {key token : String} (hcaller : w.caller? a = some c) (hc : c.Finalises key token) :
    Finalising w key token := by
  cases a with
  | step t ch =>
      obtain ⟨th, ht, rfl⟩ := Option.map_eq_some_iff.mp hcaller
      exact ⟨t, th, ht, hc⟩
  | spawn c => cases hcaller
  | env d => cases hcaller

/-- A thread that is granted a key after an action was granted it before, or by the
action. -/
theorem granted_act {w : World (coordinator K)} (hw : (protocol K).Ok w)
    {a : Act (coordinator K)} {i : ℕ} {th : Thread (coordinator K)} {key token : String}
    (ht : (w.act a).threads[i]? = some th) (hg : granted? th = some (key, token)) :
    (∃ th₀, w.threads[i]? = some th₀ ∧ granted? th₀ = some (key, token)) ∨
      Grants w a key token := by
  have hok := (protocol K).ok_moves (World.moves_act w a) hw
  have hm := World.moves_act w a
  generalize hw' : w.act a = w' at hm ht hok
  cases hm with
  | idle => exact .inl ⟨th, ht, hg⟩
  | env d => exact .inl ⟨th, ht, hg⟩
  | enter h =>
      rcases World.getElem?_enter ht with ht' | ⟨-, rfl⟩
      · exact .inl ⟨th, ht', hg⟩
      · -- a claim that has done nothing has not been granted anything
        have := drew_of_granted hok ht hg
        simp [Drew, Thread.start] at this
  | @perform t ch c h o k hu =>
      by_cases hit : i = t
      · subst hit
        refine .inr ⟨by simp [hu, granted?], ?_⟩
        rw [hw', ht]
        exact hg
      · rw [World.getElem?_perform hu, if_neg hit] at ht
        exact .inl ⟨th, ht, hg⟩

theorem held_moves {lost : String → String → Prop} {s : KvState}
    (hlost : ∀ key p, s.claimRecord key = some p → p.expiresAt.val ≤ s.clock.val → lost key p.token)
    {w w' : World (coordinator K)} {a : Act (coordinator K)} (hm : w.Moves a w')
    (hin : Delegation.Within s w a) (hw : Held lost w) : Held lost w' := by
  rcases hm.eq_or_eq_act with rfl | rfl
  · exact hw
  refine ⟨(protocol K).ok_moves hm hw.ok, ?_, ?_, ?_⟩
  · intro i th token ht hd
    rcases drew_moves hm ht hd with ⟨th₀, ht₀, hd₀, -⟩ | ⟨-, hin, -⟩
    · exact issued_moves hm (hw.drawn ht₀ hd₀)
    · exact hin
  · intro i j th th' token ht hu hd hd'
    rcases drew_moves hm ht hd with ⟨th₀, ht₀, hd₀, -⟩ | ⟨hnew, -, ch, ha⟩ <;>
      rcases drew_moves hm hu hd' with ⟨th₁, hu₁, hd₁, -⟩ | ⟨hnew', -, ch', ha'⟩
    · exact hw.unique ht₀ hu₁ hd₀ hd₁
    · exact absurd (hw.drawn ht₀ hd₀) hnew'
    · exact absurd (hw.drawn hu₁ hd₁) hnew
    · cases ha.symm.trans ha'
      rfl
  · intro i th key token ht hg
    rcases granted_act hw.ok ht hg with ⟨th₀, ht₀, hg₀⟩ | hgrant
    · rcases hw.held ht₀ hg₀ with hc | hf | hl
      · rcases ends_or_keeps hw.ok hc a with ⟨-, hends⟩ | hkeeps
        · rcases hends with ⟨-, ⟨entry, ttl, hcaller⟩ | hcaller⟩ | ⟨_, _, p, hcaller, hp, hexp⟩
          · exact .inr (.inl ((finalising_of_caller hcaller (.inl ⟨entry, ttl, rfl⟩)).moves hm))
          · exact .inr (.inl ((finalising_of_caller hcaller (.inr rfl)).moves hm))
          · -- the claim that replaces the record meets the state in which it has expired
            rcases hin with ⟨c, rfl⟩ | rfl
            · cases hcaller
            · obtain ⟨q, hq, rfl⟩ := carries_iff.mp hc
              cases hp.symm.trans hq
              exact .inr (.inr (hlost key p hp hexp))
        · exact .inl hkeeps.carries
      · exact .inr (.inl (hf.moves hm))
      · exact .inr (.inr hl)
    · obtain ⟨_, _, _, _, _, _, _, p, _, _, hp, _, hkv⟩ := hgrant.writes hw.ok
      exact .inl (carries_iff.mpr ⟨p, claimRecord_of_write hkv, hp⟩)

end

/-! ### One execution at a time -/

section
variable {R : Runtime}

/-- The execution is running the action. -/
def Running (th : Thread (executor R)) : Prop :=
  ∃ msg, th.rest.next? = some (.executeDecoded msg)

/-- The token was drawn for the execution. -/
def DrawnBy (th : Thread (executor R)) (token : String) : Prop :=
  ⟨.kv .newToken, .ok token⟩ ∈ th.hist

variable {wM : World (executor R)} {wN : World (coordinator R.kernel)}
  {σs : List (Session (executor R) (coordinator R.kernel))} {owner : ℕ → ℕ}
  {lost : String → String → Prop}

/-- A grant that an execution has got is a thread of its own, with a token of its own. -/
theorem granted_of_acquired (hw : Held lost wN)
    {σ : Session (executor R) (coordinator R.kernel)} {th : Thread (executor R)}
    (hf : (delegation R).Follows wN σ th) {key token : String}
    (ha : Acquired σ.events key token) :
    ∃ i ∈ σ.threads, ∃ th', wN.threads[i]? = some th' ∧ granted? th' = some (key, token) ∧
      Drew th' token ∧ DrawnBy th token := by
  obtain ⟨requestHash, leaseTTL, c, hmem, hst, rfl⟩ := ha
  obtain ⟨h, hu, hsub⟩ := hf.unfolds
  obtain ⟨i, hi, h', hth, hx⟩ := hu.of_call hmem
  have hg : granted? (⟨.claim key requestHash leaseTTL, h', .ret (.claim (.ok c))⟩ :
      Thread (coordinator R.kernel)) = some (key, c.token) := by
    simp [granted?, hst]
  have hd := drew_of_granted hw.ok hth hg
  exact ⟨i, List.mem_append_left _ hi, _, hth, hg, hd, hsub (hx _ hd)⟩

/-- Whoever completes or releases has been granted the key. -/
theorem acquired_of_finalises {σ : Session (executor R) (coordinator R.kernel)}
    {th : Thread (executor R)} (hf : (delegation R).Follows wN σ th) {j : ℕ} (hj : j ∈ σ.threads)
    {th' : Thread (coordinator R.kernel)} (hth : wN.threads[j]? = some th') {key token : String}
    (hfin : th'.call.Finalises key token) : Acquired σ.events key token := by
  rcases hf.call_allowed hj hth with ⟨ev, hsuf, hG⟩ | ⟨x, -, hc⟩
  · exact (hG key token hfin).mono hsuf.subset
  · cases hc

/-- An execution that is running the action under a key owns the key. -/
theorem owns_of_next {σ : Session (executor R) (coordinator R.kernel)} {th : Thread (executor R)}
    (hf : (delegation R).Follows wN σ th) {key : String} (hkey : th.call.key? R = some key)
    {msg : Msg} (hnext : th.rest.next? = some (.executeDecoded msg)) :
    ∃ token, Owns σ.events key token ∧ σ.current = none := by
  obtain ⟨cs, -, -, hst⟩ := hf.stands
  generalize th.hist = h, th.rest = p at hst hnext
  cases hst with
  | ended => cases hnext
  | own hcur _ _ hG =>
      cases hnext
      obtain ⟨token, howns⟩ := hG key hkey
      exact ⟨token, howns, hcur⟩
  | inside _ _ _ _ _ _ hp =>
      subst hp
      cases hnext

/-- The grant of an execution that is running the action: it is its own, and nobody has
asked to finalise it. -/
theorem reserved_of_running (hs : (delegation R).Simulates wM wN σs owner) (hw : Held lost wN)
    {t : ℕ} {th : Thread (executor R)} (ht : wM.threads[t]? = some th) {key : String}
    (hkey : th.call.key? R = some key) (hrun : Running th) :
    ∃ i token th', wN.threads[i]? = some th' ∧ granted? th' = some (key, token) ∧ owner i = t ∧
      Drew th' token ∧ DrawnBy th token ∧ ¬ Finalising wN key token := by
  obtain ⟨msg, hnext⟩ := hrun
  obtain ⟨σ, hσ, hf⟩ := hs.session ht
  obtain ⟨token, howns, hcur⟩ := owns_of_next hf hkey hnext
  obtain ⟨i, hi, th', hth, hg, hd, hdrawn⟩ := granted_of_acquired hw hf howns.acquired
  have howner := (hs.owned hσ i hi).2
  refine ⟨i, token, th', hth, hg, howner, hd, hdrawn, ?_⟩
  rintro ⟨j, n, hj, hfin⟩
  -- the execution that finalises has drawn the same token, so it is the same one
  obtain ⟨σ', hσ', hjσ⟩ := hs.owner j (List.getElem?_eq_some_iff.mp hj).1
  obtain ⟨v, hv⟩ := hs.thread hσ'
  have hf' := hs.follows hv hσ'
  obtain ⟨i', hi', th₁, hth₁, -, hd₁, -⟩ :=
    granted_of_acquired hw hf' (acquired_of_finalises hf' hjσ hj hfin)
  obtain rfl := hw.unique hth hth₁ hd hd₁
  rw [← (hs.owned hσ' i hi').2, howner, hσ] at hσ'
  obtain rfl := Option.some.inj hσ'
  obtain ⟨h, hu, -⟩ := hf.unfolds
  rcases List.mem_append.mp hjσ with hret | hjσ
  · obtain ⟨c, _, r, hth₂, hmem⟩ := hu.of_mem hret
    cases hj.symm.trans hth₂
    exact howns.unfinished c r hmem key token hfin
  · rw [hcur, Option.toList_none, List.nil_append] at hjσ
    obtain ⟨cs, hwait, hbegun, -⟩ := hf.stands
    obtain ⟨c, hc, -⟩ := hwait.exists_of_mem hjσ
    obtain ⟨x, -, hx⟩ := hbegun c hc
    cases hx

/-- One execution at a time. If in some run two executions under one key are running the
action at the same moment, then the lease of one of the two ran out before: at some earlier
moment the claim record carried its token and the clock had reached its expiry. -/
theorem executions_exclusive (R : Runtime) (s : ExecState R) (acts : List (Act (executor R)))
    (t u : ℕ) (th th' : Thread (executor R)) (key : String)
    (ht : ((World.init s).run acts).threads[t]? = some th)
    (hu : ((World.init s).run acts).threads[u]? = some th') (htu : t ≠ u)
    (hkey : th.call.key? R = some key) (hkey' : th'.call.key? R = some key)
    (hrun : Running th) (hrun' : Running th') :
    ∃ pre post p, acts = pre ++ post ∧ (DrawnBy th p.token ∨ DrawnBy th' p.token) ∧
      ((World.init s).run pre).state.bucket.claimRecord key = some p ∧
      p.expiresAt.val ≤ ((World.init s).run pre).state.bucket.clock.val := by
  let lost : String → String → Prop := fun key token => ∃ pre post p, acts = pre ++ post ∧
    ((World.init s).run pre).state.bucket.claimRecord key = some p ∧ p.token = token ∧
    p.expiresAt.val ≤ ((World.init s).run pre).state.bucket.clock.val
  obtain ⟨nacts, σs, owner, hs, hw⟩ := (Delegation.simulates_init (delegation R) s).run
    (P := Held lost) (held_init lost _) acts fun pre post heq _ _ _ hm hin hw =>
      held_moves (fun key p hp hexp => ⟨pre, post, p, heq, hp, rfl, hexp⟩) hm hin hw
  obtain ⟨i, token, n, hi, hg, howner, hd, hdrawn, hfin⟩ := reserved_of_running hs hw ht hkey hrun
  obtain ⟨j, token', n', hj, hg', howner', hd', hdrawn', hfin'⟩ :=
    reserved_of_running hs hw hu hkey' hrun'
  rcases hw.held hi hg with hc | hf | ⟨pre, post, p, heq, hp, rfl, hexp⟩
  · rcases hw.held hj hg' with hc' | hf' | ⟨pre, post, p, heq, hp, rfl, hexp⟩
    · -- one record cannot carry two tokens, and one token is not drawn twice
      obtain rfl : token = token' := Option.some.inj (hc.symm.trans hc')
      exact absurd (howner.symm.trans ((congrArg owner (hw.unique hi hj hd hd')).trans howner')) htu
    · exact absurd hf' hfin'
    · exact ⟨pre, post, p, heq, .inr hdrawn', hp, hexp⟩
  · exact absurd hf hfin
  · exact ⟨pre, post, p, heq, .inl hdrawn, hp, hexp⟩

end

/-- An action takes longer than its lease, and a second delivery of the message takes the
key over. -/
def overtaken : List (Act (executor .plain)) :=
  .spawn (.execute .coordinator sampleConfig sampleMsg) ::
    execSteps 0 8 { kv := { token := "t1" } } ++
    .env 20 :: .spawn (.execute .coordinator sampleConfig sampleMsg) ::
      execSteps 1 11 { kv := { token := "t2" } }

set_option maxRecDepth 4096 in
/-- Both deliveries run the action, since the first lease has run out. -/
theorem executions_exclusive_overtaken :
    ∃ th th' key,
      ((World.init (ExecState.fresh .one [])).run overtaken).threads[0]? = some th ∧
      ((World.init (ExecState.fresh .one [])).run overtaken).threads[1]? = some th' ∧
      Running th ∧ Running th' ∧
      ∃ pre post p, overtaken = pre ++ post ∧ (DrawnBy th p.token ∨ DrawnBy th' p.token) ∧
        ((World.init (ExecState.fresh .one [])).run pre).state.bucket.claimRecord key = some p ∧
        p.expiresAt.val ≤
          ((World.init (ExecState.fresh .one [])).run pre).state.bucket.clock.val :=
  ⟨_, _, idempotencyKey .plain sampleConfig sampleMsg, rfl, rfl, ⟨sampleMsg, rfl⟩,
    ⟨sampleMsg, rfl⟩,
    executions_exclusive .plain (.fresh .one []) overtaken 0 1 _ _ _ rfl rfl (by decide) rfl rfl
      ⟨sampleMsg, rfl⟩ ⟨sampleMsg, rfl⟩⟩

end TransportNats.Idempotency
