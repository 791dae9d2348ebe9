import TransportNats.Rpc.Endpoint
import TransportNats.Idempotency.Lease

/-!
Replayed replies.

A key may be reused, by accident or on purpose, for a different message: keys
are not scoped by subject. All that keeps the replies of different messages
apart is the request hash in the stored entry. The invariant is that every
stored entry, in the bucket or in a plain store, holds the result of a
successful run of the action on a message with the entry's request hash.
-/

namespace TransportNats.Idempotency

open Interleaving VersionedStore Program

abbrev ExecHist (R : Runtime) := History (execSig R)

/-! ### What one execution may do -/

section
variable {R : Runtime} {msg : Msg} {h : ExecHist R}

/-- The action has not been run. -/
def NoRun (h : ExecHist R) : Prop := ∀ x ∈ h, ∀ m, x.op ≠ .executeDecoded m

/-- `entry` holds the result of a run of the action on `msg`. -/
def Produced (R : Runtime) (msg : Msg) (entry : IdempotencyEntry) (h : ExecHist R) : Prop :=
  entry.requestHash = msgHash R.sha256 msg ∧
    ∃ v, ⟨.executeDecoded msg, .value v⟩ ∈ h ∧ R.marshal v = .ok entry.body

/-- `entry` was found in the store. -/
def SawStored (R : Runtime) (entry : IdempotencyEntry) (h : ExecHist R) : Prop :=
  (∃ key item, ⟨.kv (.get (entryPrefix ++ key)), .ok item⟩ ∈ h ∧
      Holds R.kernel item.value entry) ∨
    ∃ key, ⟨.storeGet key, some entry⟩ ∈ h

def execGuard (R : Runtime) (msg : Msg) (h : ExecHist R) : ExecOp → Prop
  | .kv (.put k data) =>
      (∃ key, k = entryPrefix ++ key) ∧
        ∃ entry, Holds R.kernel data entry ∧ Produced R msg entry h
  | .kv (.create k _) => ∃ key, k = claimPrefix ++ key
  | .kv (.update k _ _) => ∃ key, k = claimPrefix ++ key
  | .kv _ => True
  | .storeSet _ entry _ => Produced R msg entry h
  | .executeDecoded m => m = msg ∧ NoRun h
  | .storeGet _ | .startRenewal _ _ _ | .stopRenewal | .renewalError => True

/-- A reply without an error is the result of the run just made, or an entry
found in the store whose request hash is empty or that of the message. A reply
with an error is the public form of that error. -/
def Served (R : Runtime) (msg : Msg) (h : ExecHist R) : Reply → Prop
  | .returned body none =>
      (∃ v, ⟨.executeDecoded msg, .value v⟩ ∈ h ∧ R.marshal v = .ok body) ∨
        ∃ entry, entry.body = body ∧
          (entry.requestHash = "" ∨ entry.requestHash = msgHash R.sha256 msg) ∧
          SawStored R entry h
  | .returned body (some err) => body = (encodeError R err).1
  | .panicked => True

theorem Produced.mono {entry : IdempotencyEntry} {h' : ExecHist R}
    (hp : Produced R msg entry h) (hh : h ⊆ h') : Produced R msg entry h' :=
  let ⟨hhash, v, hv, hm⟩ := hp
  ⟨hhash, v, hh hv, hm⟩

theorem served_failReply (err : Err) : Served R msg h (failReply R err) := by
  rw [failReply_eq]
  rfl

theorem noRun_nil : NoRun ([] : ExecHist R) := fun _ hx => by cases hx

theorem NoRun.map_append {hk : Hist} (hr : NoRun h) :
    NoRun (hk.map (kvEmbedding R).answered ++ h) := by
  intro x hx m
  rcases List.mem_append.mp hx with hx | hx
  · obtain ⟨y, -, rfl⟩ := List.mem_map.mp hx
    exact ExecOp.noConfusion
  · exact hr x hx m

theorem NoRun.cons {x : Answered (execSig R)} (hr : NoRun h)
    (hx : ∀ m, x.op ≠ .executeDecoded m) : NoRun (x :: h) := by
  intro y hy
  rcases List.mem_cons.mp hy with rfl | hy
  · exact hx
  · exact hr y hy

/-! ### The methods of the coordinator -/

theorem guarded_kvClaim (key requestHash : String) (leaseTTL : ℤ) :
    Guarded (execGuard R msg)
      (fun h' r => ∃ hk : Hist, h' = hk.map (kvEmbedding R).answered ++ h ∧
        claimPost R.kernel key requestHash hk r) h
      ((kvCoordinator R).claim key requestHash leaseTTL) := by
  refine (guarded_claim leaseTTL).embed (fun hk o hg => ?_) fun hk r hr => ⟨hk, rfl, hr⟩
  cases o with
  | create | update => exact ⟨key, hg.1⟩
  | put | delete => exact hg.elim
  | _ => trivial

theorem guarded_kvComplete (entry : IdempotencyEntry) (hp : Produced R msg entry h)
    (key token : String) (ttl : ℤ) :
    Guarded (execGuard R msg) (fun h' _ => h ⊆ h') h
      ((kvCoordinator R).complete key token entry ttl) := by
  have hsub : ∀ hk : Hist, h ⊆ hk.map (kvEmbedding R).answered ++ h :=
    fun hk => List.subset_append_right _ _
  refine (guarded_complete entry ttl).embed (fun hk o hg => ?_) fun hk _ _ => hsub hk
  cases o with
  | update => exact ⟨key, hg.1⟩
  | put => exact ⟨⟨key, hg.1⟩, entry, hg.2.2.2, hp.mono (hsub hk)⟩
  | create => exact hg.elim
  | _ => trivial

theorem guarded_kvRelease (key token : String) :
    Guarded (execGuard R msg) (fun _ _ => True) h ((kvCoordinator R).release key token) := by
  refine guarded_release.embed (fun hk o hg => ?_) fun _ _ _ => trivial
  cases o with
  | create | update | put => exact hg.elim
  | _ => trivial

theorem guarded_releaseThen (key token : String) {reply : Reply}
    (hreply : ∀ h', Served R msg h' reply) :
    Guarded (execGuard R msg) (Served R msg) h
      (releaseThen (kvCoordinator R) key token reply) :=
  (guarded_kvRelease key token).bind fun h' _ _ => hreply h'

/-! ### The executor -/

theorem guarded_executeClaimed (hr : NoRun h) (cfg : IdempotencyConfig) (key token : String) :
    Guarded (execGuard R msg) (Served R msg) h
      (executeClaimed (kvCoordinator R) cfg msg key (msgHash R.sha256 msg) token) := by
  unfold executeClaimed
  -- a renewal that is started, stopped or asked for leaves no trace of a run
  have hstart : Guarded (execGuard R msg) (fun h' _ => NoRun h') h
      (startCoordinatorLeaseRenewal (kvCoordinator R) key token cfg.effectiveLeaseTTL) := by
    unfold startCoordinatorLeaseRenewal
    split
    · exact ⟨trivial, fun _ => hr.cons fun _ => ExecOp.noConfusion⟩
    · exact hr
  have hstop : ∀ (h : ExecHist R) started,
      Guarded (execGuard R msg) (fun h' _ => h ⊆ h') h (stopRenewal started) := by
    intro h started
    cases started with
    | true => exact ⟨trivial, fun _ => List.subset_cons_self _ _⟩
    | false => exact List.Subset.refl _
  have hreceive : ∀ (h : ExecHist R) started,
      Guarded (execGuard R msg) (fun h' _ => h ⊆ h') h (receiveRenewalError started) := by
    intro h started
    cases started with
    | true => exact ⟨trivial, fun _ => List.subset_cons_self _ _⟩
    | false => exact List.Subset.refl _
  refine hstart.bind fun h₁ started hr₁ => ?_
  unfold executeDecoded
  rw [guarded_perform_bind]
  refine ⟨⟨rfl, hr₁⟩, fun outcome => ?_⟩
  refine (hstop _ started).bind fun h₂ _ hsub₂ => ?_
  cases outcome with
  | panicked => exact guarded_releaseThen key token fun _ => trivial
  | failed execErr =>
      refine (hreceive _ started).bind fun h₃ r _ => ?_
      cases r with
      | some err => exact guarded_releaseThen key token fun _ => served_failReply _
      | none => exact guarded_releaseThen key token fun _ => served_failReply _
  | value res =>
      refine (hreceive _ started).bind fun h₃ r hsub₃ => ?_
      cases r with
      | some err => exact guarded_releaseThen key token fun _ => served_failReply _
      | none =>
          dsimp only
          split
          · exact guarded_releaseThen key token fun _ => served_failReply _
          · rename_i replyBytes hmarshal
            have hrun : ⟨.executeDecoded msg, .value res⟩ ∈ h₃ :=
              hsub₃ (hsub₂ List.mem_cons_self)
            refine ⟨trivial, fun now => ?_⟩
            refine (guarded_kvComplete ⟨200, replyBytes, now.val, _⟩
              ⟨rfl, res, List.mem_cons_of_mem _ hrun, hmarshal⟩ key token cfg.ttl).bind ?_
            rintro h₄ (_ | err) hsub₄
            · exact .inl ⟨res, hsub₄ (List.mem_cons_of_mem _ hrun), hmarshal⟩
            · exact guarded_releaseThen key token fun _ => served_failReply _

/-- The check of a stored entry against the request hash. -/
theorem hash_checked {stored hash : String} (h : ¬ (stored ≠ "" ∧ stored ≠ hash)) :
    stored = "" ∨ stored = hash := by
  by_cases he : stored = ""
  · exact .inl he
  · exact .inr (not_not.mp fun hne => h ⟨he, hne⟩)

theorem guarded_executeWithCoordinator (hr : NoRun h) (cfg : IdempotencyConfig) (key : String) :
    Guarded (execGuard R msg) (Served R msg) h
      (executeWithCoordinator (kvCoordinator R) cfg msg key (msgHash R.sha256 msg)) := by
  unfold executeWithCoordinator
  refine (guarded_kvClaim key _ _).bind ?_
  rintro h' (err | claim) ⟨hk, rfl, hpost⟩
  · exact served_failReply err
  · dsimp only
    simp only [claimPost] at hpost
    split
    · rename_i hst
      rw [hst] at hpost
      obtain ⟨⟨item, hmem, hholds⟩, -⟩ := hpost
      split
      · exact served_failReply _
      · rename_i hcheck
        refine .inr ⟨claim.entry, rfl, hash_checked hcheck, .inl ⟨key, item, ?_, hholds⟩⟩
        exact List.mem_append_left _ (List.mem_map_of_mem (f := (kvEmbedding R).answered) hmem)
    · exact served_failReply _
    · exact served_failReply _
    · exact guarded_executeClaimed hr.map_append cfg key claim.token
    · exact served_failReply _

theorem guarded_executeWithLegacyStore (hr : NoRun h) (cfg : IdempotencyConfig) (key : String) :
    Guarded (execGuard R msg) (Served R msg) h
      (executeWithLegacyStore cfg msg key (msgHash R.sha256 msg)) := by
  unfold executeWithLegacyStore storeGet executeDecoded storeSet
  rw [guarded_perform_bind]
  refine ⟨trivial, fun r => ?_⟩
  cases r with
  | some entry =>
      dsimp only
      split
      · exact served_failReply _
      · rename_i hcheck
        exact .inr ⟨entry, rfl, hash_checked hcheck, .inr ⟨key, List.mem_cons_self⟩⟩
  | none =>
      dsimp only
      rw [guarded_perform_bind]
      refine ⟨⟨rfl, hr.cons fun _ => ExecOp.noConfusion⟩, fun outcome => ?_⟩
      cases outcome with
      | panicked => trivial
      | failed execErr => exact served_failReply _
      | value res =>
          dsimp only
          split
          · exact served_failReply _
          · rename_i replyBytes hmarshal
            refine ⟨trivial, fun now => ?_⟩
            refine ⟨⟨rfl, res, List.mem_cons_of_mem _ List.mem_cons_self, hmarshal⟩, fun _ => ?_⟩
            exact .inl ⟨res, List.mem_cons_of_mem _ (List.mem_cons_of_mem _ List.mem_cons_self),
              hmarshal⟩

/-! ### The servers of requests -/

theorem guarded_executeWithIdempotency (hr : NoRun h) (kind : StoreKind)
    (cfg : IdempotencyConfig) :
    Guarded (execGuard R msg) (Served R msg) h
      (executeWithIdempotency R (kind.store R) cfg msg) := by
  cases kind with
  | coordinator => exact guarded_executeWithCoordinator hr cfg _
  | legacy => exact guarded_executeWithLegacyStore hr cfg _

theorem guarded_topicReply (hr : NoRun h) (kind : StoreKind)
    (actionMeta : Option IdempotencyConfig) :
    Guarded (execGuard R msg) (Served R msg) h (Rpc.topicReply R kind actionMeta msg) := by
  cases actionMeta with
  | some cfg => exact guarded_executeWithIdempotency hr kind cfg
  | none =>
      refine ⟨⟨rfl, hr⟩, fun outcome => ?_⟩
      change Served R msg (⟨.executeDecoded msg, outcome⟩ :: h) (Rpc.directReply R outcome)
      cases outcome with
      | panicked => trivial
      | failed execErr => exact served_failReply execErr
      | value res =>
          simp only [Rpc.directReply]
          split
          · rename_i replyBytes hmarshal
            exact .inl ⟨res, List.mem_cons_self, hmarshal⟩
          · exact served_failReply _

theorem guarded_microReply (hr : NoRun h) :
    Guarded (execGuard R msg) (fun _ _ => True) h (Rpc.microReply R msg) :=
  ⟨⟨rfl, hr⟩, fun _ => trivial⟩

end

/-! ### Any number of executions -/

/-- The bucket, everything ever set in the plain store, and the successful runs
of the action. -/
structure ExecState (R : Runtime) where
  bucket : KvState
  sets : List (String × IdempotencyEntry)
  runs : List (Msg × R.Value)

structure ExecChoice (R : Runtime) where
  kv : KvChoice := {}
  pick : ℕ := 0
  outcome : Outcome R.Value := .panicked
  renewal : Option Err := none

/-- One operation. A plain store answers with some entry that was set under the
key, or with none: entries may expire, and replicas may lag. -/
def execOp (R : Runtime) (ch : ExecChoice R) (s : ExecState R) :
    (o : ExecOp) → ExecState R × o.Ret R
  | .kv o => ({ s with bucket := (exec ch.kv s.bucket o).1 }, (exec ch.kv s.bucket o).2)
  | .storeGet key =>
      (s, match s.sets[ch.pick]? with
        | some (k, entry) => if k = key then some entry else none
        | none => none)
  | .storeSet key entry _ => ({ s with sets := (key, entry) :: s.sets }, ())
  | .executeDecoded msg =>
      match ch.outcome with
      | .value v => ({ s with runs := (msg, v) :: s.runs }, .value v)
      | .failed err => (s, .failed err)
      | .panicked => (s, .panicked)
  | .startRenewal _ _ _ => (s, ())
  | .stopRenewal => (s, ())
  | .renewalError => (s, ch.renewal)

/-- `serve` answers a request, and `renew` is one tick of a renewal goroutine. -/
inductive ExecCall
  | execute (kind : StoreKind) (cfg : IdempotencyConfig) (msg : Msg)
  | serve (endpoint : Rpc.Endpoint) (msg : Msg)
  | renew (key token : String) (leaseTTL : ℤ)

inductive ExecResult
  | reply (r : Reply)
  | answered (a : Rpc.Answer)
  | renewed (err : Option Err)

def ExecCall.program (R : Runtime) : ExecCall → Exec R ExecResult
  | .execute kind cfg msg => do
      return .reply (← executeWithIdempotency R (kind.store R) cfg msg)
  | .serve endpoint msg => do return .answered (← endpoint.serve R msg)
  | .renew key token leaseTTL => do
      return .renewed (← (renewClaim R.kernel key token leaseTTL).lift (kvEmbedding R))

@[reducible] def executor (R : Runtime) : System where
  sig := execSig R
  State := ExecState R
  Call := ExecCall
  Result := ExecResult
  Choice := ExecChoice R
  Env := ℕ
  program := ExecCall.program R
  exec := execOp R
  enter _ s := some s
  env d s := { s with bucket := { s.bucket with clock := s.bucket.clock.advance d } }

def ExecCall.guard (R : Runtime) : ExecCall → ExecHist R → ExecOp → Prop
  | .execute _ _ msg | .serve _ msg => execGuard R msg
  | .renew _ _ _ => fun _ o =>
      match o with
      | .kv (.update k _ _) => ∃ key, k = claimPrefix ++ key
      | .kv (.put _ _) | .kv (.create _ _) | .storeSet _ _ _ | .executeDecoded _ => False
      | _ => True

/-- An endpoint that has answered has come to its end, as its own program does. -/
def AnsweredBy (R : Runtime) (msg : Msg) (h : ExecHist R) : Rpc.Endpoint → Rpc.Answer → Prop
  | .topic kind actionMeta, .topic r | .request kind actionMeta, .topic r =>
      (Rpc.topicReply R kind actionMeta msg).Returns h r ∧ Served R msg h r
  | .service, .service r => (Rpc.microReply R msg).Returns h r
  | _, _ => False

def ExecCall.post (R : Runtime) : ExecCall → ExecHist R → ExecResult → Prop
  | .execute _ _ msg, h, .reply r => Served R msg h r
  | .serve endpoint msg, h, .answered a => AnsweredBy R msg h endpoint a
  | .renew _ _ _, _, .renewed _ => True
  | _, _, _ => False

theorem guarded_serve {R : Runtime} (endpoint : Rpc.Endpoint) (msg : Msg) :
    Guarded (execGuard R msg) (fun h a => AnsweredBy R msg h endpoint a) []
      (endpoint.serve R msg) := by
  have htopic : ∀ kind actionMeta, Guarded (execGuard R msg)
      (fun h r => (Rpc.topicReply R kind actionMeta msg).Returns h r ∧ Served R msg h r) []
      (Rpc.topicReply R kind actionMeta msg) := by
    intro kind actionMeta
    refine (guarded_topicReply noRun_nil kind actionMeta).returns.mono (fun _ _ hG => hG) ?_
    rintro h r ⟨hserved, hk, rfl, hret⟩
    rw [List.append_nil]
    exact ⟨hret, List.append_nil hk ▸ hserved⟩
  cases endpoint with
  | topic kind actionMeta => exact (htopic kind actionMeta).bind fun _ _ h => h
  | request kind actionMeta => exact (htopic kind actionMeta).bind fun _ _ h => h
  | service =>
      refine (guarded_microReply noRun_nil).returns.bind ?_
      rintro h r ⟨-, hk, rfl, hret⟩
      change (Rpc.microReply R msg).Returns (hk ++ []) r
      rw [List.append_nil]
      exact hret

theorem guarded_execCall (R : Runtime) (c : ExecCall) :
    Guarded (c.guard R) (c.post R) [] (c.program R) := by
  cases c with
  | execute kind cfg msg =>
      exact (guarded_executeWithIdempotency noRun_nil kind cfg).bind fun _ _ h => h
  | serve endpoint msg => exact (guarded_serve endpoint msg).bind fun _ _ h => h
  | renew key token leaseTTL =>
      have hrenew : Guarded ((ExecCall.renew key token leaseTTL).guard R) (fun _ _ => True) []
          ((renewClaim R.kernel key token leaseTTL).lift (kvEmbedding R)) := by
        refine (guarded_renewClaim leaseTTL).embed (fun h o hg => ?_) fun _ _ _ => trivial
        cases o with
        | update => exact ⟨key, hg.1⟩
        | put | create | delete => exact hg.elim
        | _ => trivial
      exact hrenew.bind fun _ _ _ => trivial

section
variable {R : Runtime}

theorem execOp_runs (ch : ExecChoice R) (s : ExecState R) (o : ExecOp) :
    s.runs ⊆ (execOp R ch s o).1.runs := by
  cases o with
  | executeDecoded msg =>
      simp only [execOp]
      split
      · exact List.subset_cons_self _ _
      · exact List.Subset.refl _
      · exact List.Subset.refl _
  | _ => exact List.Subset.refl _

theorem moves_runs {w w' : World (executor R)} {a : Act (executor R)} (hm : w.Moves a w') :
    w.state.runs ⊆ w'.state.runs := by
  cases hm with
  | idle => exact List.Subset.refl _
  | enter h =>
      cases h
      exact List.Subset.refl _
  | @perform t ch c h o k ht => exact execOp_runs ch w.state o
  | env d => exact List.Subset.refl _

/-- A successful run that a client has seen is on record. -/
def RunRecorded (s : ExecState R) (x : Answered (execSig R)) : Prop :=
  ∀ {msg v}, x = ⟨.executeDecoded msg, .value v⟩ → (msg, v) ∈ s.runs

def execution (R : Runtime) : Contract (executor R) where
  guard := ExecCall.guard R
  post := ExecCall.post R
  sound := RunRecorded
  program := guarded_execCall R
  answer ch s o := by
    intro msg v h
    have hop := congrArg Answered.op h
    simp only at hop
    subst hop
    have hret : (execOp R ch s (.executeDecoded msg)).2 = .value v := by
      obtain ⟨-, hr⟩ := Answered.mk.inj h
      exact eq_of_heq hr
    simp only [execOp] at hret ⊢
    split at hret
    · cases hret
      exact List.mem_cons_self
    · cases hret
    · cases hret
  stable hm _ hx _ _ h := moves_runs hm (hx h)

/-! ### The invariant -/

/-- `entry` holds the result of a successful run on a message with its hash. -/
def Faithful (runs : List (Msg × R.Value)) (entry : IdempotencyEntry) : Prop :=
  ∃ msg v, (msg, v) ∈ runs ∧ R.marshal v = .ok entry.body ∧
    entry.requestHash = msgHash R.sha256 msg

/-- Every entry that can be read from the stored value is faithful. -/
def FaithfulData (runs : List (Msg × R.Value)) (data : Data) : Prop :=
  ∀ entry, Holds R.kernel data entry → Faithful runs entry

theorem Faithful.mono {runs runs' : List (Msg × R.Value)} {entry : IdempotencyEntry}
    (hf : Faithful runs entry) (hr : runs ⊆ runs') : Faithful runs' entry :=
  let ⟨msg, v, hv, hm, hh⟩ := hf
  ⟨msg, v, hr hv, hm, hh⟩

/-- A stored value holds at most one entry. -/
theorem Holds.unique {K : Kernel} {data : Data} {e e' : IdempotencyEntry}
    (h : Holds K data e) (h' : Holds K data e') : e = e' := by
  rcases h with h | ⟨x, h⟩ <;> rcases h' with h' | ⟨x', h'⟩ <;> cases h.symm.trans h' <;> rfl

theorem Produced.faithful {s : ExecState R} {msg : Msg} {entry : IdempotencyEntry}
    {h : ExecHist R} (hp : Produced R msg entry h) (hx : ∀ x ∈ h, RunRecorded s x) :
    Faithful s.runs entry := by
  obtain ⟨hhash, v, hmem, hm⟩ := hp
  exact ⟨msg, v, hx _ hmem rfl, hm, hhash⟩

/-- Every entry in the stores, and every entry that a client has read from
them, is faithful. -/
structure Replayable (w : World (executor R)) : Prop where
  ok : (execution R).Ok w
  bucket : ∀ {key data r}, w.state.bucket.kv.cells (entryPrefix ++ key) = some ⟨some data, r⟩ →
    FaithfulData w.state.runs data
  sets : ∀ {key entry}, (key, entry) ∈ w.state.sets → Faithful w.state.runs entry
  seen : ∀ (t : ℕ) (th : Thread (executor R)), w.threads[t]? = some th → ∀ {entry},
    SawStored R entry th.hist → Faithful w.state.runs entry

/-- What is written under an entry key is the result of a run just made. -/
theorem entry_produced {c : ExecCall} {h : ExecHist R} {o : KvOp} {key : String} {data : Data}
    {kv : Store String Data} (hg : c.guard R h (.kv o))
    (happ : Applies kv o (entryPrefix ++ key) (some data)) :
    ∃ msg entry, Holds R.kernel data entry ∧ Produced R msg entry h := by
  cases c with
  | execute _ _ msg | serve _ msg =>
      cases happ with
      | put => exact ⟨msg, hg.2⟩
      | create | update =>
          obtain ⟨k, hk⟩ := hg
          exact absurd hk.symm (claimPrefix_ne_entryPrefix _ _)
  | renew =>
      cases happ with
      | put | create => exact hg.elim
      | update =>
          obtain ⟨k, hk⟩ := hg
          exact absurd hk.symm (claimPrefix_ne_entryPrefix _ _)

theorem bucket_perform {w : World (executor R)} (hw : Replayable w) {t : ℕ} {ch : ExecChoice R}
    {c : ExecCall} {h : ExecHist R} {o : ExecOp} {k : o.Ret R → Exec R ExecResult}
    (ht : w.threads[t]? = some ⟨c, h, .call o k⟩) {key : String} {data : Data} {r : ℕ}
    (hcell : (execOp R ch w.state o).1.bucket.kv.cells (entryPrefix ++ key) =
      some ⟨some data, r⟩) : FaithfulData (execOp R ch w.state o).1.runs data := by
  have hruns := execOp_runs ch w.state o
  have hold : w.state.bucket.kv.cells (entryPrefix ++ key) = some ⟨some data, r⟩ →
      FaithfulData (execOp R ch w.state o).1.runs data :=
    fun hc _ he => (hw.bucket hc _ he).mono hruns
  cases o with
  | kv o =>
      have hg := hw.ok.guard ht
      cases exec_effect ch.kv w.state.bucket o with
      | silent hkv => exact hold (by rw [← hkv]; exact hcell)
      | wrote key' v happ hkv =>
          change (exec ch.kv w.state.bucket o).1.kv.cells _ = _ at hcell
          rw [hkv] at hcell
          by_cases hk : key' = entryPrefix ++ key
          · subst hk
            rw [Store.cells_write_self] at hcell
            cases hcell
            obtain ⟨msg, entry, hholds, hp⟩ := entry_produced hg happ
            intro entry' hholds'
            obtain rfl := hholds.unique hholds'
            exact hp.faithful (hw.ok _ _ ht).sound
          · exact hold (by rwa [Store.cells_write_ne _ _ (Ne.symm hk)] at hcell)
  | executeDecoded msg =>
      refine hold ?_
      simp only [execOp] at hcell
      split at hcell <;> exact hcell
  | _ => exact hold hcell

theorem sets_perform {w : World (executor R)} (hw : Replayable w) {t : ℕ} {ch : ExecChoice R}
    {c : ExecCall} {h : ExecHist R} {o : ExecOp} {k : o.Ret R → Exec R ExecResult}
    (ht : w.threads[t]? = some ⟨c, h, .call o k⟩) {key : String} {entry : IdempotencyEntry}
    (hmem : (key, entry) ∈ (execOp R ch w.state o).1.sets) :
    Faithful (execOp R ch w.state o).1.runs entry := by
  have hruns := execOp_runs ch w.state o
  cases o with
  | storeSet key' entry' ttl =>
      rcases List.mem_cons.mp hmem with heq | hmem
      · cases heq
        have hg := hw.ok.guard ht
        cases c with
        | execute | serve => exact Produced.faithful hg (hw.ok _ _ ht).sound
        | renew => exact hg.elim
      · exact hw.sets hmem
  | executeDecoded msg =>
      have hmem' : (key, entry) ∈ w.state.sets := by
        simp only [execOp] at hmem
        split at hmem <;> exact hmem
      exact (hw.sets hmem').mono hruns
  | _ => exact hw.sets hmem

theorem seen_perform {w : World (executor R)} (hw : Replayable w) {t : ℕ} {ch : ExecChoice R}
    {c : ExecCall} {h : ExecHist R} {o : ExecOp} {k : o.Ret R → Exec R ExecResult}
    (ht : w.threads[t]? = some ⟨c, h, .call o k⟩) {entry : IdempotencyEntry}
    (hsaw : SawStored R entry (⟨o, (execOp R ch w.state o).2⟩ :: h)) :
    Faithful (execOp R ch w.state o).1.runs entry := by
  have hruns := execOp_runs ch w.state o
  have hold : SawStored R entry h → Faithful (execOp R ch w.state o).1.runs entry :=
    fun hs => (hw.seen _ _ ht hs).mono hruns
  rcases hsaw with ⟨key, item, hmem, hholds⟩ | ⟨key, hmem⟩
  · rcases List.mem_cons.mp hmem with heq | hmem
    · obtain ⟨rfl, hr⟩ := Answered.mk.inj heq
      exact hw.bucket (cells_of_answerGet (eq_of_heq hr).symm) _ hholds
    · exact hold (.inl ⟨key, item, hmem, hholds⟩)
  · rcases List.mem_cons.mp hmem with heq | hmem
    · obtain ⟨rfl, hr⟩ := Answered.mk.inj heq
      have hr := (eq_of_heq hr).symm
      simp only [execOp] at hr ⊢
      split at hr
      · rename_i k' entry' hget
        split at hr
        · cases hr
          exact hw.sets (List.mem_of_getElem? hget)
        · cases hr
      · cases hr
    · exact hold (.inr ⟨key, hmem⟩)

theorem replayable_moves {w w' : World (executor R)} {a : Act (executor R)}
    (hm : w.Moves a w') (hw : Replayable w) : Replayable w' := by
  have hok := (execution R).ok_moves hm hw.ok
  cases hm with
  | idle => exact hw
  | env d => exact ⟨hok, hw.bucket, hw.sets, hw.seen⟩
  | enter h =>
      cases h
      refine ⟨hok, hw.bucket, hw.sets, fun t th ht entry hsaw => ?_⟩
      rcases World.getElem?_enter ht with ht | ⟨-, rfl⟩
      · exact hw.seen _ _ ht hsaw
      · rcases hsaw with ⟨_, _, hmem, _⟩ | ⟨_, hmem⟩ <;> simp [Thread.start] at hmem
  | @perform u ch c h o k hu =>
      refine ⟨hok, bucket_perform hw hu, sets_perform hw hu, fun t th ht entry hsaw => ?_⟩
      rw [World.getElem?_perform hu] at ht
      split at ht
      · obtain rfl := Option.some.inj ht
        exact seen_perform hw hu hsaw
      · exact (hw.seen _ _ ht hsaw).mono (execOp_runs ch w.state o)

/-- Stores that nothing has been written to. -/
def ExecState.fresh (clock : I64) (issued : List String) : ExecState R :=
  ⟨⟨.empty, clock, issued⟩, [], []⟩

theorem replayable_init (clock : I64) (issued : List String) :
    Replayable (World.init (ExecState.fresh clock issued) : World (executor R)) where
  ok := (execution R).ok_init _
  bucket h := by cases h
  sets h := by cases h
  seen _ _ ht := by simp [World.init] at ht

/-- Replay fidelity. In every run over stores that only executions write to, a
reply without an error is the marshalled result of a successful run of the
action on a message with the same subject and the same data. -/
theorem replay_fidelity (R : Runtime) (hinj : Function.Injective R.sha256)
    (hne : ∀ b, R.sha256 b ≠ []) (clock : I64) (issued : List String)
    (acts : List (Act (executor R))) (t : ℕ) (th : Thread (executor R)) (kind : StoreKind)
    (cfg : IdempotencyConfig) (msg : Msg) (body : Bytes)
    (ht : ((World.init (ExecState.fresh clock issued)).run acts).threads[t]? = some th)
    (hcall : th.call = .execute kind cfg msg)
    (hres : th.rest.result? = some (.reply (.returned body none))) :
    ∃ msg' v, (msg', v) ∈ ((World.init (ExecState.fresh clock issued)).run acts).state.runs ∧
      msg'.subject = msg.subject ∧ msg'.data = msg.data ∧ R.marshal v = .ok body := by
  have hw := World.run_invariant replayable_moves (replayable_init (R := R) clock issued) acts
  have hpost := hw.ok.post ht hres
  rw [hcall] at hpost
  rcases hpost with ⟨v, hmem, hm⟩ | ⟨entry, rfl, hhash, hsaw⟩
  · exact ⟨msg, v, (hw.ok _ _ ht).sound _ hmem rfl, rfl, rfl, hm⟩
  · obtain ⟨msg', v, hv, hm, hh⟩ := hw.seen _ _ ht hsaw
    rw [hh] at hhash
    obtain ⟨hsubject, hdata⟩ :=
      msgHash_injective hinj (hhash.resolve_left (msgHash_ne_empty hne msg'))
    exact ⟨msg', v, hv, hsubject, hdata, hm⟩

end

/-! ### A replayed reply -/

def sampleMsg : Msg := ⟨[115], [100], [], by decide⟩

def sampleConfig : IdempotencyConfig := ⟨"Idempotency-Key", none, 0, 10⟩

def execSteps (t n : ℕ) (ch : ExecChoice .plain) : List (Act (executor .plain)) :=
  List.replicate n (.step t ch)

/-- A message is executed with the coordinator and then delivered again. -/
def deliveredTwice : List (Act (executor .plain)) :=
  .spawn (.execute .coordinator sampleConfig sampleMsg) ::
    execSteps 0 22 { kv := { token := "t" }, outcome := .value [111, 107] } ++
    .spawn (.execute .coordinator sampleConfig sampleMsg) :: execSteps 1 4 {}

set_option maxRecDepth 4096 in
/-- The second delivery gets the stored reply. -/
theorem replay_fidelity_second_delivery :
    ∃ th, ((World.init (ExecState.fresh .zero [])).run deliveredTwice).threads[1]? = some th ∧
      th.rest.result? = some (.reply (.returned [111, 107] none)) ∧
      ∃ msg' v,
        (msg', v) ∈ ((World.init (ExecState.fresh .zero [])).run deliveredTwice).state.runs ∧
          msg'.subject = sampleMsg.subject ∧ msg'.data = sampleMsg.data ∧
          Runtime.plain.marshal v = .ok [111, 107] :=
  ⟨_, rfl, rfl, replay_fidelity .plain (fun _ _ h => (List.cons.inj h).2)
    (fun _ => List.cons_ne_nil _ _) .zero [] deliveredTwice 1 _ .coordinator sampleConfig sampleMsg
    [111, 107] rfl rfl rfl⟩

end TransportNats.Idempotency
