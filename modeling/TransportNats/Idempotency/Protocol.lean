import TransportNats.Idempotency.Bucket

/-!
What each coordinator call may do, stated over its own history.

A call writes only after it has seen what entitles it to: a `Claim` has found
no valid entry and writes a token of its own, and it replaces a record only
after reading that the record has expired; the other calls touch a claim
record only at a revision under which they have read their own token. These
are facts about one client, proved from its program alone.
-/

namespace TransportNats.Idempotency

open Interleaving VersionedStore Program

abbrev Hist := History kvSig

/-! ### Facts a client has seen -/

/-- The stored value is an entry that has expired by `now`. -/
def Expired (K : Kernel) (data : Data) (now : I64) : Prop :=
  ∃ entry expiresAt, decodeEntryPayload K data = .ok (.wrapped entry expiresAt) ∧
    expiresAt.val ≠ 0 ∧ expiresAt.val ≤ now.val

/-- The stored value holds `entry`, whether or not it has expired. -/
def Holds (K : Kernel) (data : Data) (entry : IdempotencyEntry) : Prop :=
  decodeEntryPayload K data = .ok (.legacy entry) ∨
    ∃ expiresAt, decodeEntryPayload K data = .ok (.wrapped entry expiresAt)

def SawNoEntry (K : Kernel) (key : String) (h : Hist) : Prop :=
  (∃ err, ⟨.get (entryPrefix ++ key), .error err⟩ ∈ h ∧ isKeyMissing err = true) ∨
    ∃ item now, ⟨.get (entryPrefix ++ key), .ok item⟩ ∈ h ∧ ⟨.now, now⟩ ∈ h ∧
      Expired K item.value now

def SawEntry (K : Kernel) (key : String) (entry : IdempotencyEntry) (h : Hist) : Prop :=
  ∃ item, ⟨.get (entryPrefix ++ key), .ok item⟩ ∈ h ∧ Holds K item.value entry

/-- The claim record of `key` was read at revision `r` and is `p`. -/
def SawClaim (key : String) (r : ℕ) (p : KVClaimPayload) (h : Hist) : Prop :=
  ∃ value, ⟨.get (claimPrefix ++ key), .ok ⟨value, r⟩⟩ ∈ h ∧ unmarshalClaim value = .ok p

/-- The claim record of `key` was read at revision `r`, and had expired. -/
def SawExpiredClaim (key : String) (r : ℕ) (h : Hist) : Prop :=
  ∃ p now, SawClaim key r p h ∧ ⟨.now, now⟩ ∈ h ∧ p.expiresAt.val ≤ now.val

/-- The record `data` carries a token this client has drawn. -/
def OwnToken (token : String) (data : Data) (h : Hist) : Prop :=
  ⟨.newToken, .ok token⟩ ∈ h ∧ ∃ p, data = marshalClaim p ∧ p.token = token

/-- `data` is the record read at revision `r`, carrying `token`, with another
expiry. -/
def Extends (key token : String) (data : Data) (r : ℕ) (h : Hist) : Prop :=
  ∃ p expiresAt, SawClaim key r p h ∧ p.token = token ∧
    data = marshalClaim { p with expiresAt := expiresAt }

/-- The claim of `key` was extended under `token`, to revision `r`. -/
def Extended (key token : String) (r : ℕ) (h : Hist) : Prop :=
  ∃ p r₀, ⟨.update (claimPrefix ++ key) (marshalClaim p) r₀, .ok r⟩ ∈ h ∧ p.token = token

def NoPut (h : Hist) : Prop := ∀ x ∈ h, ∀ key data, x.op ≠ .put key data

def PutDone (key : String) (h : Hist) : Prop :=
  ∃ data r, ⟨.put (entryPrefix ++ key) data, .ok r⟩ ∈ h

section
variable {K : Kernel} {key token : String} {entry : IdempotencyEntry} {data : Data} {r : ℕ}
  {p : KVClaimPayload} {h h' : Hist}

theorem SawNoEntry.mono (hs : SawNoEntry K key h) (hh : h ⊆ h') : SawNoEntry K key h' := by
  rcases hs with ⟨err, he, hm⟩ | ⟨item, now, hi, hn, hx⟩
  · exact .inl ⟨err, hh he, hm⟩
  · exact .inr ⟨item, now, hh hi, hh hn, hx⟩

theorem OwnToken.mono (hs : OwnToken token data h) (hh : h ⊆ h') : OwnToken token data h' :=
  ⟨hh hs.1, hs.2⟩

theorem Extended.mono (hs : Extended key token r h) (hh : h ⊆ h') : Extended key token r h' :=
  let ⟨p, r₀, hu, ht⟩ := hs
  ⟨p, r₀, hh hu, ht⟩

theorem NoPut.cons {x : Answered kvSig} (hs : NoPut h) (hx : ∀ key data, x.op ≠ .put key data) :
    NoPut (x :: h) := by
  intro y hy
  rcases List.mem_cons.mp hy with rfl | hy
  · exact hx
  · exact hs y hy

end

/-! ### Guards and postconditions -/

def claimGuard (K : Kernel) (key : String) (h : Hist) : KvOp → Prop
  | .create k data =>
      k = claimPrefix ++ key ∧ SawNoEntry K key h ∧ ∃ token, OwnToken token data h
  | .update k data r =>
      k = claimPrefix ++ key ∧ SawNoEntry K key h ∧ (∃ token, OwnToken token data h) ∧
        SawExpiredClaim key r h
  | .put _ _ | .delete _ _ => False
  | .ctxErr | .now | .newToken | .get _ => True

def completeGuard (K : Kernel) (key token : String) (entry : IdempotencyEntry) (h : Hist) :
    KvOp → Prop
  | .update k data r => k = claimPrefix ++ key ∧ Extends key token data r h ∧ NoPut h
  | .put k data =>
      k = entryPrefix ++ key ∧ NoPut h ∧ (∃ r, Extended key token r h) ∧ Holds K data entry
  | .delete k r => k = claimPrefix ++ key ∧ Extended key token r h ∧ PutDone key h
  | .create _ _ => False
  | .ctxErr | .now | .newToken | .get _ => True

def releaseGuard (key token : String) (h : Hist) : KvOp → Prop
  | .delete k r => k = claimPrefix ++ key ∧ ∃ p, SawClaim key r p h ∧ p.token = token
  | .create _ _ | .update _ _ _ | .put _ _ => False
  | .ctxErr | .now | .newToken | .get _ => True

def renewGuard (key token : String) (h : Hist) : KvOp → Prop
  | .update k data r => k = claimPrefix ++ key ∧ Extends key token data r h
  | .create _ _ | .put _ _ | .delete _ _ => False
  | .ctxErr | .now | .newToken | .get _ => True

def KvCall.guard (K : Kernel) : KvCall → Hist → KvOp → Prop
  | .claim key _ _ => claimGuard K key
  | .complete key token entry _ => completeGuard K key token entry
  | .release key token => releaseGuard key token
  | .renewClaim key token _ => renewGuard key token

/-- The last thing done was to write a claim record that carries `token`. -/
def Granted (key token : String) (h : Hist) : Prop :=
  ∃ p x r h', h = x :: h' ∧ p.token = token ∧ Reports x (claimPrefix ++ key) (marshalClaim p) r

def claimPost (K : Kernel) (key requestHash : String) (h : Hist) :
    Except Err IdempotencyClaim → Prop
  | .error _ => True
  | .ok c =>
      match c.state with
      | .acquired => Granted key c.token h
      | .completed =>
          SawEntry K key c.entry h ∧ (c.entry.requestHash = "" ∨ c.entry.requestHash = requestHash)
      | .conflict | .inProgress => True
      | .other => False

/-- The last thing done was to delete the claim record at the revision to which
it had been extended. -/
def Deleted (key token : String) (h : Hist) : Prop :=
  ∃ r h', h = ⟨.delete (claimPrefix ++ key) r, none⟩ :: h' ∧ Extended key token r h'

def KvCall.post (K : Kernel) : KvCall → Hist → KvResult → Prop
  | .claim key requestHash _, h, .claim r => claimPost K key requestHash h r
  | .complete key token _ _, h, .done none => Deleted key token h
  | .complete _ _ _ _, _, .done (some _) => True
  | .release _ _, _, .done _ => True
  | .renewClaim _ _ _, _, .done _ => True
  | _, _, _ => False

/-! ### Reading an entry -/

section
variable {K : Kernel} {key token requestHash : String} {h : Hist}

/-- The operations that write nothing. -/
def KvOp.quiet : KvOp → Prop
  | .ctxErr | .now | .newToken | .get _ => True
  | .put _ _ | .create _ _ | .update _ _ _ | .delete _ _ => False

/-- A guard that lets a client look at anything. -/
def Permits (G : Hist → KvOp → Prop) : Prop := ∀ h o, KvOp.quiet o → G h o

variable {G : Hist → KvOp → Prop}

theorem guarded_mapKVFailure (hG : Permits G) (err : Err) :
    Guarded (S := kvSig) G (fun h' _ => h ⊆ h') h (mapKVFailure err) := by
  unfold mapKVFailure ctxErr
  rw [guarded_perform_bind]
  refine ⟨hG _ _ trivial, fun r => ?_⟩
  cases r <;> exact List.subset_cons_self _ _

theorem guarded_decodeKVEntry (hG : Permits G) {item : KvItem}
    (hitem : ⟨.get (entryPrefix ++ key), .ok item⟩ ∈ h) :
    Guarded (S := kvSig) G
      (fun h' r => h ⊆ h' ∧ match r with
        | .error _ => True
        | .ok none => SawNoEntry K key h'
        | .ok (some entry) => SawEntry K key entry h') h (decodeKVEntry K item.value) := by
  unfold decodeKVEntry timeNow
  split
  · exact ⟨List.Subset.refl _, trivial⟩
  · rename_i entry hd
    exact ⟨List.Subset.refl _, item, hitem, .inl hd⟩
  · rename_i entry expiresAt hd
    split
    · exact ⟨List.Subset.refl _, item, hitem, .inr ⟨_, hd⟩⟩
    · rename_i hx
      rw [guarded_perform_bind]
      refine ⟨hG _ _ trivial, fun now => ?_⟩
      have hsub : h ⊆ ⟨.now, now⟩ :: h := List.subset_cons_self _ _
      split
      · rename_i hle
        exact ⟨hsub, .inr ⟨item, now, hsub hitem, List.mem_cons_self, _, _, hd, hx, hle⟩⟩
      · exact ⟨hsub, item, hsub hitem, .inr ⟨_, hd⟩⟩

theorem guarded_loadEntry (K : Kernel) (key : String) (hG : Permits G) :
    Guarded (S := kvSig) G
      (fun h' r => h ⊆ h' ∧ match r with
        | .error _ => True
        | .ok none => SawNoEntry K key h'
        | .ok (some entry) => SawEntry K key entry h') h (loadEntry K key) := by
  unfold loadEntry ctxErr kvGet
  rw [guarded_perform_bind]
  refine ⟨hG _ _ trivial, fun r => ?_⟩
  cases r with
  | some err => exact ⟨List.subset_cons_self _ _, trivial⟩
  | none =>
      dsimp only
      split
      · exact ⟨List.subset_cons_self _ _, trivial⟩
      · rw [guarded_perform_bind]
        refine ⟨hG _ _ trivial, fun r => ?_⟩
        have hsub : h ⊆ ⟨.get (entryPrefix ++ key), r⟩ :: ⟨.ctxErr, none⟩ :: h := fun x hx => by
          simp [hx]
        cases r with
        | error err =>
            dsimp only
            split
            · rename_i hm
              exact ⟨hsub, .inl ⟨err, List.mem_cons_self, hm⟩⟩
            · refine (guarded_mapKVFailure hG err).bind fun h' _ hh => ?_
              exact ⟨List.Subset.trans hsub hh, trivial⟩
        | ok item =>
            dsimp only
            rw [guarded_perform_bind]
            refine ⟨hG _ _ trivial, fun r => ?_⟩
            cases r with
            | some err => exact ⟨fun x hx => List.mem_cons_of_mem _ (hsub hx), trivial⟩
            | none =>
                refine (guarded_decodeKVEntry hG (List.mem_cons_of_mem _ List.mem_cons_self)).mono
                  (fun _ _ => id) ?_
                exact fun h' r hr =>
                  ⟨fun x hx => hr.1 (List.mem_cons_of_mem _ (hsub hx)), hr.2⟩

/-! ### Claim -/

/-- What a `Claim` knows when it starts to write: no entry stands against it,
the record is its own, and the clock has shown `now`. -/
structure Ready (K : Kernel) (key token : String) (data : Data) (now : I64) (h : Hist) :
    Prop where
  noEntry : SawNoEntry K key h
  own : OwnToken token data h
  now : ⟨.now, now⟩ ∈ h

theorem Ready.cons {data : Data} {now : I64} (hr : Ready K key token data now h)
    (x : Answered kvSig) : Ready K key token data now (x :: h) :=
  ⟨hr.noEntry.mono (List.subset_cons_self _ _), hr.own.mono (List.subset_cons_self _ _),
    List.mem_cons_of_mem _ hr.now⟩

theorem permits_claimGuard : Permits (claimGuard K key) := by
  intro h o ho
  cases o <;> trivial

variable {data : Data} {now : I64}

theorem guarded_retryCreateClaim (hr : Ready K key token data now h) :
    Guarded (S := kvSig) (claimGuard K key) (claimPost K key requestHash) h
      (retryCreateClaim (claimPrefix ++ key) token data) := by
  unfold retryCreateClaim kvCreate
  rw [guarded_perform_bind]
  refine ⟨⟨rfl, hr.noEntry, token, hr.own⟩, fun r => ?_⟩
  obtain ⟨-, p, rfl, rfl⟩ := hr.own
  cases r with
  | ok r => exact ⟨p, _, r, h, rfl, rfl, .create _ _ _⟩
  | error err =>
      dsimp only
      split
      · trivial
      · exact (guarded_mapKVFailure permits_claimGuard err).bind fun _ _ _ => trivial

theorem guarded_replaceExpiredClaim (hr : Ready K key token data now h) {r : ℕ}
    (hx : SawExpiredClaim key r h) :
    Guarded (S := kvSig) (claimGuard K key) (claimPost K key requestHash) h
      (replaceExpiredClaim (claimPrefix ++ key) token data r) := by
  unfold replaceExpiredClaim kvUpdate ctxErr
  rw [guarded_perform_bind]
  refine ⟨⟨rfl, hr.noEntry, ⟨token, hr.own⟩, hx⟩, fun a => ?_⟩
  cases a with
  | ok r' =>
      obtain ⟨-, p, rfl, rfl⟩ := hr.own
      exact ⟨p, _, r', h, rfl, rfl, .update _ _ _ _⟩
  | error err =>
      dsimp only
      split
      · trivial
      · split
        · rw [guarded_perform_bind]
          refine ⟨trivial, fun a => ?_⟩
          cases a with
          | some err => trivial
          | none => exact guarded_retryCreateClaim ((hr.cons _).cons _)
        · exact (guarded_mapKVFailure permits_claimGuard err).bind fun _ _ _ => trivial

theorem guarded_resolveExistingClaim (hr : Ready K key token data now h) {existing : KvItem}
    (he : ⟨.get (claimPrefix ++ key), .ok existing⟩ ∈ h) :
    Guarded (S := kvSig) (claimGuard K key) (claimPost K key requestHash) h
      (resolveExistingClaim (claimPrefix ++ key) requestHash token now data existing) := by
  unfold resolveExistingClaim
  split
  · trivial
  · rename_i p hp
    split
    · trivial
    · split
      · trivial
      · split
        · trivial
        · rename_i hnow
          exact guarded_replaceExpiredClaim hr
            ⟨p, now, ⟨existing.value, he, hp⟩, hr.now, Int.not_lt.mp hnow⟩

theorem guarded_createClaim (hr : Ready K key token data now h) :
    Guarded (S := kvSig) (claimGuard K key) (claimPost K key requestHash) h
      (createClaim (claimPrefix ++ key) requestHash token now data) := by
  unfold createClaim kvCreate kvGet ctxErr
  rw [guarded_perform_bind]
  refine ⟨⟨rfl, hr.noEntry, token, hr.own⟩, fun a => ?_⟩
  cases a with
  | ok r =>
      obtain ⟨-, p, rfl, rfl⟩ := hr.own
      exact ⟨p, _, r, h, rfl, rfl, .create _ _ _⟩
  | error createErr =>
      dsimp only
      rw [guarded_perform_bind]
      refine ⟨trivial, fun a => ?_⟩
      cases a with
      | some err => trivial
      | none =>
          dsimp only
          rw [guarded_perform_bind]
          refine ⟨trivial, fun a => ?_⟩
          cases a with
          | error getErr =>
              dsimp only
              split
              · split
                · exact guarded_retryCreateClaim (((hr.cons _).cons _).cons _)
                · exact (guarded_mapKVFailure permits_claimGuard _).bind fun _ _ _ => trivial
              · exact (guarded_mapKVFailure permits_claimGuard _).bind fun _ _ _ => trivial
          | ok existing =>
              exact guarded_resolveExistingClaim (((hr.cons _).cons _).cons _)
                List.mem_cons_self

theorem guarded_claim (leaseTTL : ℤ) :
    Guarded (S := kvSig) (claimGuard K key) (claimPost K key requestHash) h
      (claim K key requestHash leaseTTL) := by
  unfold claim ctxErr timeNow newKVClaimToken
  rw [guarded_perform_bind]
  refine ⟨trivial, fun a => ?_⟩
  cases a with
  | some err => trivial
  | none =>
      dsimp only
      split
      · trivial
      · refine (guarded_loadEntry K key permits_claimGuard).bind ?_
        rintro h' (err | (_ | entry)) ⟨-, hsaw⟩
        · trivial
        · dsimp only
          rw [guarded_perform_bind]
          refine ⟨trivial, fun now => ?_⟩
          split
          · trivial
          · rw [guarded_perform_bind]
            refine ⟨trivial, fun a => ?_⟩
            cases a with
            | error err => trivial
            | ok token =>
                dsimp only
                rw [guarded_perform_bind]
                refine ⟨trivial, fun a => ?_⟩
                cases a with
                | some err => trivial
                | none =>
                    refine guarded_createClaim ⟨hsaw.mono ?_, ⟨?_, _, rfl, rfl⟩, ?_⟩
                    · exact fun x hx => by simp [hx]
                    · simp
                    · simp
        · dsimp only
          split
          · trivial
          · rename_i hhash
            refine ⟨hsaw, ?_⟩
            by_cases he : entry.requestHash = ""
            · exact .inl he
            · exact .inr (not_not.mp fun hne => hhash ⟨he, hne⟩)

/-! ### The calls that own a token -/

/-- After `h`, `extendClaim` has come to its update in `h'`: the record that it has
read carries `token` and had not ended at the clock read that followed. -/
def Extending (key token : String) (h h' : Hist) (data : Data) (r : ℕ) : Prop :=
  ∃ value p now expiresAt, unmarshalClaim value = .ok p ∧ p.token = token ∧
    now.val < p.expiresAt.val ∧ data = marshalClaim { p with expiresAt := expiresAt } ∧
    h' = [⟨.ctxErr, none⟩, ⟨.now, now⟩, ⟨.get (claimPrefix ++ key), .ok ⟨value, r⟩⟩] ++ h

section
variable {h' : Hist} {r : ℕ}

theorem Extending.noPut (hx : Extending key token h h' data r) (hput : NoPut h) : NoPut h' := by
  obtain ⟨value, p, now, expiresAt, -, -, -, -, rfl⟩ := hx
  exact ((hput.cons (by simp)).cons (by simp)).cons (by simp)

theorem Extending.extends (hx : Extending key token h h' data r) :
    Extends key token data r h' := by
  obtain ⟨value, p, now, expiresAt, hp, htoken, -, rfl, rfl⟩ := hx
  exact ⟨p, expiresAt, ⟨value, by simp, hp⟩, htoken, rfl⟩

theorem Extending.extended (hx : Extending key token h h' data r) (revision : ℕ) :
    Extended key token revision
      (⟨.update (claimPrefix ++ key) data r, .ok revision⟩ :: h') := by
  obtain ⟨value, p, now, expiresAt, -, htoken, -, rfl, -⟩ := hx
  exact ⟨_, r, List.mem_cons_self, htoken⟩

end

/-- `extendClaim` writes only its update, and succeeds only with it. -/
theorem guarded_extendClaim_update (hG : Permits G) {leaseTTL : ℤ}
    (hupdate : ∀ {h' data r}, Extending key token h h' data r →
      G h' (.update (claimPrefix ++ key) data r)) :
    Guarded (S := kvSig) G
      (fun h' a => ∀ revision, a = .ok revision → ∃ h₁ data r, Extending key token h h₁ data r ∧
        h' = ⟨.update (claimPrefix ++ key) data r, .ok revision⟩ :: h₁)
      h (extendClaim key token leaseTTL) := by
  unfold extendClaim kvGet timeNow ctxErr kvUpdate
  rw [guarded_perform_bind]
  refine ⟨hG _ _ trivial, fun a => ?_⟩
  cases a with
  | error err => exact (guarded_mapKVFailure hG err).bind fun _ _ _ => by simp
  | ok item =>
      dsimp only
      cases hp : unmarshalClaim item.value with
      | error err => simp
      | ok p =>
          dsimp only
          split_ifs with hcorrupt htoken
          · simp
          · simp
          rw [guarded_perform_bind]
          refine ⟨hG _ _ trivial, fun now => ?_⟩
          split_ifs with hexpired
          · simp
          cases idempotencyExpiry now leaseTTL with
          | error err => simp
          | ok expiresAt =>
              dsimp only
              rw [guarded_perform_bind]
              refine ⟨hG _ _ trivial, fun a => ?_⟩
              cases a with
              | some err => simp
              | none =>
                  dsimp only
                  rw [guarded_perform_bind]
                  have hx : Extending key token h
                      (⟨.ctxErr, none⟩ :: ⟨.now, now⟩ :: ⟨.get (claimPrefix ++ key), .ok item⟩ :: h)
                      (marshalClaim { p with expiresAt := expiresAt }) item.revision :=
                    ⟨item.value, p, now, expiresAt, hp, not_not.mp htoken, not_le.mp hexpired, rfl,
                      rfl⟩
                  refine ⟨hupdate hx, fun a => ?_⟩
                  cases a with
                  | error err => exact (guarded_mapKVFailure hG err).bind fun _ _ _ => by simp
                  | ok revision =>
                      rintro _ ⟨⟩
                      exact ⟨_, _, _, hx, rfl⟩

/-- `extendClaim` updates the claim only at a revision under which it has read
`token`; `G` has to allow just that. -/
theorem guarded_extendClaim (hG : Permits G) (hput : NoPut h) {leaseTTL : ℤ}
    (hupdate : ∀ {h' data r}, NoPut h' → Extends key token data r h' →
      G h' (.update (claimPrefix ++ key) data r)) :
    Guarded (S := kvSig) G
      (fun h' r => match r with
        | .error _ => True
        | .ok r => NoPut h' ∧ Extended key token r h')
      h (extendClaim key token leaseTTL) := by
  refine (guarded_extendClaim_update hG fun hx => hupdate (hx.noPut hput) hx.extends).mono
    (fun _ _ => id) ?_
  rintro h' (err | revision) hok
  · trivial
  · obtain ⟨h₁, data, r, hx, rfl⟩ := hok revision rfl
    exact ⟨(hx.noPut hput).cons (by simp), hx.extended revision⟩

theorem decodeEntryPayload_marshal {entry : IdempotencyEntry} {j : Json} (expiresAt : I64)
    (hj : K.marshalEntry entry = .ok j) :
    decodeEntryPayload K (.json (.obj [("entry", j), ("exp", .int expiresAt.val)])) =
      .ok (.wrapped entry expiresAt) := by
  have hne : j ≠ .null := fun h => K.marshal_ne_null (h ▸ hj)
  have hptr : unmarshalEntryPointer K none j = .ok (some entry) := by
    unfold unmarshalEntryPointer
    split
    · exact absurd rfl hne
    · simp [K.unmarshal_marshal hj, Except.map]
  simp [decodeEntryPayload, Json.unmarshalMap, Json.unmarshalStruct, Json.setFields,
    Json.findField, KVEntryPayload.fields, hptr, Json.unmarshalInt64, Except.map]

theorem guarded_marshalKVEntry (hG : Permits G) (hput : NoPut h) (entry : IdempotencyEntry)
    (ttl : ℤ) :
    Guarded (S := kvSig) G
      (fun h' r => match r with
        | .error _ => True
        | .ok data => NoPut h' ∧ Holds K data entry)
      h (marshalKVEntry K entry ttl) := by
  unfold marshalKVEntry timeNow
  rw [guarded_perform_bind]
  refine ⟨hG _ _ trivial, fun now => ?_⟩
  split
  · trivial
  · split
    · trivial
    · rename_i hj
      exact ⟨hput.cons (by simp), .inr ⟨_, decodeEntryPayload_marshal _ hj⟩⟩

theorem permits_completeGuard {entry : IdempotencyEntry} :
    Permits (completeGuard K key token entry) := by
  intro h o ho
  cases o <;> trivial

theorem guarded_complete (entry : IdempotencyEntry) (ttl : ℤ) :
    Guarded (S := kvSig) (completeGuard K key token entry)
      (fun h r => r = none → Deleted key token h) [] (complete K key token entry ttl) := by
  unfold complete extendClaimForCompletion ctxErr kvPut kvDelete
  rw [guarded_perform_bind]
  refine ⟨trivial, fun a => ?_⟩
  cases a with
  | some err => exact fun h => by cases h
  | none =>
      dsimp only
      split
      · exact fun h => by cases h
      · refine (guarded_marshalKVEntry permits_completeGuard
          (fun x hx => by simp_all) entry ttl).bind ?_
        rintro h₁ (err | data) hdata
        · exact fun h => by cases h
        refine (guarded_extendClaim permits_completeGuard hdata.1
          fun hput hext => ⟨rfl, hext, hput⟩).bind ?_
        rintro h₂ (err | r) hext
        · exact fun h => by cases h
        rw [guarded_perform_bind]
        refine ⟨trivial, fun a => ?_⟩
        cases a with
        | some err => exact fun h => by cases h
        | none =>
            dsimp only
            rw [guarded_perform_bind]
            refine ⟨⟨rfl, hext.1.cons (by simp), ⟨r, hext.2.mono (List.subset_cons_self _ _)⟩,
              hdata.2⟩, fun a => ?_⟩
            cases a with
            | error err =>
                exact (guarded_mapKVFailure permits_completeGuard err).bind
                  fun _ _ _ h => by cases h
            | ok rput =>
                dsimp only
                rw [guarded_perform_bind]
                refine ⟨trivial, fun a => ?_⟩
                cases a with
                | some err => exact fun h => by cases h
                | none =>
                    dsimp only
                    rw [guarded_perform_bind]
                    refine ⟨⟨rfl, hext.2.mono fun x hx => by simp [hx], data, rput, by simp⟩,
                      fun a => ?_⟩
                    cases a with
                    | some err =>
                        exact (guarded_mapKVFailure permits_completeGuard err).bind
                          fun _ _ _ h => by cases h
                    | none => exact fun _ => ⟨r, _, rfl, hext.2.mono fun x hx => by simp [hx]⟩

theorem permits_releaseGuard : Permits (releaseGuard key token) := by
  intro h o ho
  cases o <;> trivial

theorem guarded_mapIdempotencyKVError (hG : Permits G) (err : Option Err) :
    Guarded (S := kvSig) G (fun _ _ => True) h (mapIdempotencyKVError err) := by
  unfold mapIdempotencyKVError ctxErr
  rw [guarded_perform_bind]
  refine ⟨hG _ _ trivial, fun a => ?_⟩
  cases a <;> trivial

theorem guarded_release :
    Guarded (S := kvSig) (releaseGuard key token) (fun _ _ => True) h (release key token) := by
  unfold release ctxErr kvGet kvDelete
  rw [guarded_perform_bind]
  refine ⟨trivial, fun a => ?_⟩
  cases a with
  | some err => trivial
  | none =>
      dsimp only
      split
      · trivial
      · rw [guarded_perform_bind]
        refine ⟨trivial, fun a => ?_⟩
        cases a with
        | error err =>
            dsimp only
            split
            · trivial
            · exact (guarded_mapKVFailure permits_releaseGuard err).bind fun _ _ _ => trivial
        | ok item =>
            dsimp only
            split
            · trivial
            · rename_i p hp
              split
              · rename_i htoken
                rw [guarded_perform_bind]
                refine ⟨⟨rfl, p, ⟨item.value, List.mem_cons_self, hp⟩, htoken⟩, fun a => ?_⟩
                cases a with
                | none => exact guarded_mapIdempotencyKVError permits_releaseGuard _
                | some err =>
                    dsimp only
                    split
                    · trivial
                    · exact guarded_mapIdempotencyKVError permits_releaseGuard _
              · trivial

theorem guarded_renewClaim (leaseTTL : ℤ) :
    Guarded (S := kvSig) (renewGuard key token) (fun _ _ => True) []
      (renewClaim K key token leaseTTL) := by
  have hG : Permits (renewGuard key token) := by
    intro h o ho
    cases o <;> trivial
  unfold renewClaim ctxErr
  rw [guarded_perform_bind]
  refine ⟨trivial, fun a => ?_⟩
  cases a with
  | some err => trivial
  | none =>
      dsimp only
      split
      · trivial
      · refine (guarded_extendClaim hG (fun x hx => by simp_all)
          fun _ hext => ⟨rfl, hext⟩).bind ?_
        rintro h' (err | r) - <;> trivial

theorem guarded_program (c : KvCall) :
    Guarded (S := kvSig) (c.guard K) (c.post K) [] (c.program K) := by
  cases c with
  | claim key requestHash leaseTTL =>
      exact (guarded_claim leaseTTL).bind fun _ _ hr => hr
  | complete key token entry ttl =>
      refine (guarded_complete entry ttl).bind fun _ r hr => ?_
      cases r with
      | none => exact hr rfl
      | some err => trivial
  | release key token => exact guarded_release.bind fun _ _ _ => trivial
  | renewClaim key token leaseTTL => exact (guarded_renewClaim leaseTTL).bind fun _ _ _ => trivial

end

/-! ### What an answer means for good -/

/-- A fact about the bucket that an answer establishes and that no later
operation can undo. -/
structure Sound (s : KvState) (x : Answered kvSig) : Prop where
  got : ∀ {key item}, x = ⟨.get key, .ok item⟩ →
    s.kv.Recorded key (some item.value) item.revision
  wrote : ∀ {key data r}, Reports x key data r →
    s.kv.Recorded key (some data) r ∧ r ≤ s.kv.revision key
  deleted : ∀ {key r}, ReportsDelete x key r → r < s.kv.revision key
  now : ∀ {now}, x = ⟨.now, now⟩ → now.val ≤ s.clock.val

theorem Sound.later {s s' : KvState} {x : Answered kvSig} (hx : Sound s x)
    (hkv : s.kv.Grows s'.kv) (hclock : s.clock.val ≤ s'.clock.val) : Sound s' x where
  got h := (hx.got h).grows hkv
  wrote h := ⟨(hx.wrote h).1.grows hkv, Nat.le_trans (hx.wrote h).2 (hkv.revision_le _)⟩
  deleted h := Nat.lt_of_lt_of_le (hx.deleted h) (hkv.revision_le _)
  now h := Int.le_trans (hx.now h) hclock

theorem sound_exec (ch : KvChoice) (s : KvState) (o : KvOp) :
    Sound (exec ch s o).1 ⟨o, (exec ch s o).2⟩ where
  got {key item} h := by
    cases o with
    | get k =>
        obtain ⟨hk, hr⟩ := Answered.mk.inj h
        cases hk
        exact Store.recorded_of_cells (cells_of_answerGet (eq_of_heq hr))
    | _ => cases congrArg Answered.op h
  wrote {key data r} h := by
    cases exec_effect ch s o with
    | silent _ hno => exact absurd h (hno _ _ _)
    | wrote k v happ hkv hr =>
        obtain rfl := hr _ _ _ h
        obtain ⟨rfl, rfl⟩ := h.applies happ
        exact hkv ▸ ⟨Store.recorded_write _ _ _, Nat.le_of_eq (by simp)⟩
  deleted {key r} h := by
    cases exec_effect ch s o with
    | silent _ _ hno => exact absurd h (hno _ _)
    | wrote k v happ hkv hr =>
        generalize (exec ch s o).2 = a at h
        cases h
        cases happ with
        | delete hrev =>
            rw [hkv, Store.revision_write_self, ← hrev]
            exact Nat.lt_succ_of_le (s.kv.revision_le_seq _)
  now {now} h := by
    cases o with
    | now =>
        obtain ⟨-, hr⟩ := Answered.mk.inj h
        exact Int.le_of_eq (congrArg I64.val (eq_of_heq hr).symm)
    | _ => cases congrArg Answered.op h

theorem moves_grows {K : Kernel} {w w' : World (coordinator K)} {a : Act (coordinator K)}
    (hm : w.Moves a w') :
    w.state.kv.Grows w'.state.kv ∧ w.state.clock.val ≤ w'.state.clock.val := by
  cases hm with
  | idle => exact ⟨.refl _, Int.le_refl _⟩
  | enter h =>
      cases h
      exact ⟨.refl _, Int.le_refl _⟩
  | @perform t ch c h o k ht =>
      exact ⟨(exec_effect ch w.state o).grows, Int.le_of_eq (by rw [World.perform, exec_clock])⟩
  | env d => exact ⟨.refl _, I64.le_advance _ _⟩

/-- Every coordinator call keeps its guard, in every run. -/
def protocol (K : Kernel) : Contract (coordinator K) where
  guard := KvCall.guard K
  post := KvCall.post K
  sound := Sound
  program := guarded_program
  answer := sound_exec
  stable hm _ hx := hx.later (moves_grows hm).1 (moves_grows hm).2

/-- What an action does to the bucket: nothing, or one write that a call was
entitled to. -/
theorem act_kv {K : Kernel} {w : World (coordinator K)} (hw : (protocol K).Ok w)
    (a : Act (coordinator K)) :
    (w.act a).state.kv = w.state.kv ∨
      ∃ t ch c h o, ∃ k : o.Ret → Kv KvResult, ∃ key v,
        a = .step t ch ∧ w.threads[t]? = some ⟨c, h, .call o k⟩ ∧ c.guard K h o ∧
          (∀ x ∈ h, Sound w.state x) ∧ Applies w.state.kv o key v ∧
          (w.act a).state.kv = w.state.kv.write key v := by
  have hm := World.moves_act w a
  generalize w.act a = w' at hm ⊢
  cases hm with
  | idle => exact .inl rfl
  | enter h =>
      cases h
      exact .inl rfl
  | @perform t ch c h o k ht =>
      cases exec_effect ch w.state o with
      | silent hkv => exact .inl hkv
      | wrote key v happ hkv =>
          exact .inr ⟨t, ch, c, h, o, k, key, v, rfl, ht, hw.guard ht, (hw _ _ ht).sound, happ,
            hkv⟩
  | env d => exact .inl rfl

end TransportNats.Idempotency
