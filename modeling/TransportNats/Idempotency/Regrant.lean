import TransportNats.Idempotency.Lease

/-!
Whether a completed request can be granted again.

`Claim` looks at the entry record and writes the claim record in two requests,
and `Complete` stores the entry without a condition. So a `Claim` may still act
on an entry record that a `Complete` has written in between. As long as no
request acts on such an outdated reading, an entry that was stored by a
`Complete` that succeeds keeps every `Claim` away until it expires.
-/

namespace TransportNats.Idempotency

open Interleaving VersionedStore

section
variable {K : Kernel}

/-- No `Claim` is granted a key after a `Complete` that succeeds has stored the
entry of the key, unless that entry has expired by then. -/
def NeverRegranted (s : KvState) (acts : List (Act (coordinator K))) : Prop :=
  ∀ pre a post, acts = pre ++ a :: post → ∀ key token, Grants ((World.init s).run pre) a key token →
    ∀ (c : ℕ) (th th' : Thread (coordinator K)) (owner : String) (entry : IdempotencyEntry)
      (ttl : ℤ) (data : Data) (r : ℕ),
      ((World.init s).run pre).threads[c]? = some th → th.call = .complete key owner entry ttl →
      ⟨.put (entryPrefix ++ key) data, .ok r⟩ ∈ th.hist →
      ((World.init s).run acts).threads[c]? = some th' → th'.rest.result? = some (.done none) →
      Expired K data ((World.init s).run pre).state.clock

/-! ### Outdated readings -/

/-- If the answer is what was read of the entry record of `key`, the record is
still there as it was read. -/
def entryUnchanged (s : KvState) (key : String) : Answered kvSig → Bool
  | ⟨.get k, .ok item⟩ => k != entryPrefix ++ key || s.kv.revision k == item.revision
  | ⟨.get k, .error _⟩ => k != entryPrefix ++ key || (s.kv.read k).isNone
  | _ => true

/-- If the answer is the revision to which the claim of `key` was extended, the
record is still at it. -/
def claimUnchanged (s : KvState) (key : String) : Answered kvSig → Bool
  | ⟨.update k _ _, .ok r⟩ => k != claimPrefix ++ key || s.kv.revision k == r
  | _ => true

/-- A `Claim` that is about to write still sees the entry record as it read it,
and a `Complete` that is about to store its entry still has its claim. -/
def upToDate (s : KvState) (th : Thread (coordinator K)) : Bool :=
  match th.call, th.rest.next? with
  | .claim key _ _, some (.create _ _) => th.hist.all (entryUnchanged s key)
  | .claim key _ _, some (.update _ _ _) => th.hist.all (entryUnchanged s key)
  | .complete key _ _ _, some (.put _ _) => th.hist.all (claimUnchanged s key)
  | _, _ => true

def UpToDate (w : World (coordinator K)) : Act (coordinator K) → Prop
  | .step t _ => w.threads[t]?.all (upToDate w.state) = true
  | .spawn _ | .env _ => True

instance (w : World (coordinator K)) (a : Act (coordinator K)) : Decidable (UpToDate w a) :=
  match a with
  | .step _ _ => inferInstanceAs (Decidable (_ = _))
  | .spawn _ | .env _ => inferInstanceAs (Decidable True)

theorem UpToDate.thread {w : World (coordinator K)} {t : ℕ} {ch : KvChoice}
    {th : Thread (coordinator K)} (h : UpToDate w (.step t ch)) (ht : w.threads[t]? = some th) :
    upToDate w.state th = true := by
  simpa [UpToDate, ht] using h

/-- An entry that a `Claim` has not found, or found expired, and that is still
as it was read, has expired. -/
theorem expired_of_sawNoEntry {s : KvState} {key : String} {h : Hist} {data : Data} {r : ℕ}
    (hno : SawNoEntry K key h) (hx : ∀ x ∈ h, Sound s x)
    (hcur : h.all (entryUnchanged s key) = true)
    (hcell : s.kv.cells (entryPrefix ++ key) = some ⟨some data, r⟩) : Expired K data s.clock := by
  rw [List.all_eq_true] at hcur
  rcases hno with ⟨err, hmem, -⟩ | ⟨item, now, hmem, hnow, entry, x, hd, hne, hle⟩
  · have hread := hcur _ hmem
    simp [entryUnchanged, Store.read_of_cells hcell] at hread
  · have hrev := hcur _ hmem
    simp only [entryUnchanged, bne_self_eq_false, Bool.false_or, beq_iff_eq] at hrev
    have hitem := ((hx _ hmem).got rfl).cells hrev
    cases hitem.symm.trans hcell
    exact ⟨entry, x, hd, hne, Int.le_trans hle ((hx _ hnow).now rfl)⟩

theorem Expired.later {data : Data} {now now' : I64} (h : Expired K data now)
    (hle : now.val ≤ now'.val) : Expired K data now' :=
  let ⟨entry, x, hd, hne, hx⟩ := h
  ⟨entry, x, hd, hne, Int.le_trans hx hle⟩

/-- A claim that is still at the revision to which it was extended. -/
theorem Extended.revision {s : KvState} {key token : String} {r : ℕ} {h : Hist}
    (hext : Extended key token r h) (hcur : h.all (claimUnchanged s key) = true) :
    s.kv.revision (claimPrefix ++ key) = r := by
  obtain ⟨p, r₀, hmem, -⟩ := hext
  have := List.all_eq_true.mp hcur _ hmem
  simpa [claimUnchanged] using this

theorem Extended.of_cons {key token : String} {r : ℕ} {x : Answered kvSig} {h : Hist}
    (hu : Extended key token r (x :: h)) (hx : ∀ k d r', x.op ≠ .update k d r') :
    Extended key token r h := by
  obtain ⟨p, r₀, hmem, hp⟩ := hu
  rcases List.mem_cons.mp hmem with rfl | hmem
  · exact absurd rfl (hx _ _ _)
  · exact ⟨p, r₀, hmem, hp⟩

theorem Extended.le_seq {s : KvState} {key token : String} {r : ℕ} {h : Hist}
    (hu : Extended key token r h) (hx : ∀ x ∈ h, Sound s x) :
    r ≤ s.kv.seq ∧ r ≤ s.kv.revision (claimPrefix ++ key) := by
  obtain ⟨p, r₀, hmem, -⟩ := hu
  have hw := (hx _ hmem).wrote (.update _ _ _ _)
  exact ⟨hw.1.2.1, hw.2⟩

/-! ### Only a `Complete` stores entries -/

theorem entryWrite {key : String} {c : KvCall} {h : Hist} {o : KvOp} {v : Option Data}
    {kv : Store String Data} (hg : c.guard K h o) (happ : Applies kv o (entryPrefix ++ key) v) :
    ∃ token entry ttl data, c = .complete key token entry ttl ∧
      o = .put (entryPrefix ++ key) data ∧ v = some data ∧ NoPut h ∧
      (∃ r, Extended key token r h) ∧ Holds K data entry := by
  cases c with
  | claim key' requestHash leaseTTL =>
      cases happ with
      | put | delete => exact hg.elim
      | create | update => exact absurd hg.1.symm (claimPrefix_ne_entryPrefix _ _)
  | complete key' token entry ttl =>
      cases happ with
      | put key data =>
          obtain ⟨hk, hput, hext, hholds⟩ := hg
          obtain rfl := entryPrefix_inj hk
          exact ⟨token, entry, ttl, data, rfl, rfl, rfl, hput, hext, hholds⟩
      | create => exact hg.elim
      | update | delete => exact absurd hg.1.symm (claimPrefix_ne_entryPrefix _ _)
  | release key' token =>
      cases happ with
      | put | create | update => exact hg.elim
      | delete => exact absurd hg.1.symm (claimPrefix_ne_entryPrefix _ _)
  | renewClaim key' token leaseTTL =>
      cases happ with
      | put | create | delete => exact hg.elim
      | update => exact absurd hg.1.symm (claimPrefix_ne_entryPrefix _ _)

/-! ### The invariant -/

/-- No two threads have been given the same revision. -/
def Distinct (w : World (coordinator K)) : Prop :=
  ∀ (t u : ℕ) (th th' : Thread (coordinator K)), w.threads[t]? = some th →
    w.threads[u]? = some th' → ∀ x ∈ th.hist, ∀ y ∈ th'.hist, ∀ {key data key' data' r},
      Reports x key data r → Reports y key' data' r → t = u

/-- While the claim of a `Complete` that has stored its entry is where the call
left it, or once the call has deleted it, the entry stands or has expired. -/
structure Shielded (s : KvState) (th : Thread (coordinator K)) : Prop where
  stands : ∀ {key token entry ttl data rp r}, th.call = .complete key token entry ttl →
    ⟨.put (entryPrefix ++ key) data, .ok rp⟩ ∈ th.hist → Extended key token r th.hist →
    (s.kv.revision (claimPrefix ++ key) = r ∨
      ⟨.delete (claimPrefix ++ key) r, none⟩ ∈ th.hist) →
    Expired K data s.clock ∨
      s.kv.cells (entryPrefix ++ key) = some ⟨some data, rp⟩ ∧
        (s.kv.revision (claimPrefix ++ key) = r ∨ s.kv.read (claimPrefix ++ key) = none)

/-- A revision that a thread was given is no later than the store. -/
theorem Sound.le_seq {s : KvState} {x : Answered kvSig} {key : String} {data : Data} {r : ℕ}
    (hx : Sound s x) (h : Reports x key data r) : r ≤ s.kv.seq := (hx.wrote h).1.2.1

theorem distinct_moves {w w' : World (coordinator K)} {a : Act (coordinator K)}
    (hm : w.Moves a w') (hok : (protocol K).Ok w) (hd : Distinct w) : Distinct w' := by
  intro t u th th' ht hu x hx y hy key data key' data' r hxr hyr
  cases hm with
  | idle => exact hd _ _ _ _ ht hu x hx y hy hxr hyr
  | env d => exact hd _ _ _ _ ht hu x hx y hy hxr hyr
  | enter h =>
      rcases World.getElem?_enter ht with ht | ⟨-, rfl⟩
      · rcases World.getElem?_enter hu with hu | ⟨-, rfl⟩
        · exact hd _ _ _ _ ht hu x hx y hy hxr hyr
        · simp [Thread.start] at hy
      · simp [Thread.start] at hx
  | @perform n ch c h o k hn =>
      -- the new answer, if it reports a write, has a revision beyond all others
      have hnew : ∀ {key data r}, Reports ⟨o, (exec ch w.state o).2⟩ key data r →
          r = w.state.kv.seq + 1 := by
        intro key data r hr
        cases exec_effect ch w.state o with
        | silent _ hno => exact absurd hr (hno _ _ _)
        | wrote _ _ _ _ hrep => exact hrep _ _ _ hr
      have hold : ∀ {i : ℕ} {ti : Thread (coordinator K)} {z key data r},
          w.threads[i]? = some ti → z ∈ ti.hist → Reports z key data r →
          r ≤ w.state.kv.seq :=
        fun hi hz hr => ((hok _ _ hi).sound _ hz).le_seq hr
      rw [World.getElem?_perform hn] at ht hu
      by_cases htn : t = n
      · by_cases hun : u = n
        · exact htn.trans hun.symm
        · rw [if_pos htn] at ht
          rw [if_neg hun] at hu
          obtain rfl := Option.some.inj ht
          rcases List.mem_cons.mp hx with rfl | hx
          · have h1 := hnew hxr
            have h2 := hold hu hy hyr
            omega
          · exact htn.trans (hd _ _ _ _ hn hu x hx y hy hxr hyr)
      · rw [if_neg htn] at ht
        by_cases hun : u = n
        · rw [if_pos hun] at hu
          obtain rfl := Option.some.inj hu
          rcases List.mem_cons.mp hy with rfl | hy
          · have h1 := hnew hyr
            have h2 := hold ht hx hxr
            omega
          · exact (hd _ _ _ _ ht hn x hx y hy hxr hyr).trans hun.symm
        · rw [if_neg hun] at hu
          exact hd _ _ _ _ ht hu x hx y hy hxr hyr

/-- Nothing that matters to `Shielded` has changed. -/
theorem Shielded.of_same {s s' : KvState} {th th' : Thread (coordinator K)} (hs : Shielded s th)
    (hcall : th'.call = th.call)
    (hput : ∀ {key data r}, ⟨.put key data, .ok r⟩ ∈ th'.hist → ⟨.put key data, .ok r⟩ ∈ th.hist)
    (hupdate : ∀ {key token r}, Extended key token r th'.hist → Extended key token r th.hist)
    (hdelete : ∀ {key r}, ⟨.delete key r, none⟩ ∈ th'.hist → ⟨.delete key r, none⟩ ∈ th.hist)
    (hkv : s'.kv = s.kv) (hclock : s.clock.val ≤ s'.clock.val) : Shielded s' th' := by
  refine ⟨fun {key token entry ttl data rp r} hc hp hu hor => ?_⟩
  rw [hkv] at hor ⊢
  exact (hs.stands (hcall.symm.trans hc) (hput hp) (hupdate hu) (hor.imp_right hdelete)).imp_left
    fun he => he.later hclock

/-! ### The stepping thread -/

section
variable {s s' : KvState} {c : KvCall} {key token : String} {entry : IdempotencyEntry} {ttl : ℤ}
  {h : Hist} {p p' : Kv KvResult}

/-- The answer reports neither a write nor a deletion. -/
theorem Shielded.cons_silent {x : Answered kvSig}
    (hs : Shielded s (⟨c, h, p⟩ : Thread (coordinator K))) (hkv : s'.kv = s.kv)
    (hclock : s.clock.val ≤ s'.clock.val) (hno : ∀ key data r, ¬ Reports x key data r)
    (hnodel : ∀ key r, ¬ ReportsDelete x key r) :
    Shielded s' (⟨c, x :: h, p'⟩ : Thread (coordinator K)) := by
  refine hs.of_same rfl (fun hp => ?_) (fun hu => ?_) (fun hd => ?_) hkv hclock
  · rcases List.mem_cons.mp hp with rfl | hp
    · exact absurd (Reports.put _ _ _) (hno _ _ _)
    · exact hp
  · obtain ⟨q, r₀, hmem, hq⟩ := hu
    rcases List.mem_cons.mp hmem with rfl | hmem
    · exact absurd (Reports.update _ _ _ _) (hno _ _ _)
    · exact ⟨q, r₀, hmem, hq⟩
  · rcases List.mem_cons.mp hd with rfl | hd
    · exact absurd (ReportsDelete.delete _ _) (hnodel _ _)
    · exact hd

/-- A `Complete` stores its entry while the claim is at the revision to which the
call has extended it. -/
theorem Shielded.stored {data' : Data} {a : Except Err ℕ} (hnoput : NoPut h)
    (hcur : h.all (claimUnchanged s key) = true)
    (hkv : s'.kv = s.kv.write (entryPrefix ++ key) (some data'))
    (hrep : ∀ k data r, Reports ⟨.put (entryPrefix ++ key) data', a⟩ k data r →
      r = s.kv.seq + 1) :
    Shielded s' (⟨.complete key token entry ttl,
      ⟨.put (entryPrefix ++ key) data', a⟩ :: h, p'⟩ : Thread (coordinator K)) := by
  refine ⟨fun {key₀ token₀ entry₀ ttl₀ data rp r} hc hp hu _ => ?_⟩
  obtain ⟨rfl, rfl, rfl, rfl⟩ := KvCall.complete.inj hc
  rcases List.mem_cons.mp hp with heq | hp
  · obtain ⟨hop, -⟩ := Answered.mk.inj heq
    obtain ⟨-, rfl⟩ := KvOp.put.inj hop
    obtain rfl := hrep _ _ _ (heq ▸ Reports.put _ _ rp)
    have hrev := (hu.of_cons (by simp)).revision hcur
    refine .inr ⟨by rw [hkv, Store.cells_write_self], .inl ?_⟩
    rw [hkv, Store.revision_write_ne _ _ (claimPrefix_ne_entryPrefix _ _), hrev]
  · exact absurd rfl (hnoput _ hp _ _)

/-- A `Complete` deletes its claim. -/
theorem Shielded.deleted {r' : ℕ} {a : Option Err}
    (hs : Shielded s (⟨.complete key token entry ttl, h, p⟩ : Thread (coordinator K)))
    (hx : ∀ x ∈ h, Sound s x) (hrev : s.kv.revision (claimPrefix ++ key) = r')
    (hkv : s'.kv = s.kv.write (claimPrefix ++ key) none) (hclock : s.clock.val ≤ s'.clock.val) :
    Shielded s' (⟨.complete key token entry ttl,
      ⟨.delete (claimPrefix ++ key) r', a⟩ :: h, p'⟩ : Thread (coordinator K)) := by
  refine ⟨fun {key₀ token₀ entry₀ ttl₀ data rp r} hc hp hu hor => ?_⟩
  obtain ⟨rfl, rfl, rfl, rfl⟩ := KvCall.complete.inj hc
  have hp' : ⟨.put (entryPrefix ++ key) data, .ok rp⟩ ∈ h := by
    rcases List.mem_cons.mp hp with heq | hp
    · cases congrArg Answered.op heq
    · exact hp
  have hu' : Extended key token r h := hu.of_cons (by simp)
  have hseq : r ≤ s.kv.seq := (hu'.le_seq hx).1
  have hor' : s.kv.revision (claimPrefix ++ key) = r ∨
      ⟨.delete (claimPrefix ++ key) r, none⟩ ∈ h := by
    rcases hor with hor | hor
    · rw [hkv, Store.revision_write_self] at hor
      omega
    · rcases List.mem_cons.mp hor with heq | hor
      · obtain ⟨hop, -⟩ := Answered.mk.inj heq
        obtain ⟨-, rfl⟩ := KvOp.delete.inj hop
        exact .inl hrev
      · exact .inr hor
  rcases hs.stands rfl hp' hu' hor' with he | ⟨hcell, -⟩
  · exact .inl (he.later hclock)
  · refine .inr ⟨?_, .inr (by rw [hkv, Store.read_write_self, Option.map_none])⟩
    rw [hkv, Store.cells_write_ne _ _ (claimPrefix_ne_entryPrefix _ _).symm, hcell]

end

theorem exec_clock_le (ch : KvChoice) (s : KvState) (o : KvOp) :
    s.clock.val ≤ (exec ch s o).1.clock.val := Int.le_of_eq (by rw [exec_clock])

theorem shielded_self {w : World (coordinator K)} (hok : (protocol K).Ok w) {t : ℕ}
    {ch : KvChoice} {c : KvCall} {h : Hist} {o : KvOp} {k : o.Ret → Kv KvResult}
    (ht : w.threads[t]? = some ⟨c, h, .call o k⟩) (hC : UpToDate w (.step t ch))
    (hs : Shielded w.state (⟨c, h, .call o k⟩ : Thread (coordinator K))) :
    Shielded (exec ch w.state o).1
      (⟨c, ⟨o, (exec ch w.state o).2⟩ :: h, k (exec ch w.state o).2⟩ :
        Thread (coordinator K)) := by
  have hg : c.guard K h o := hok.guard ht
  have hcur := hC.thread ht
  have hclock := exec_clock_le ch w.state o
  cases exec_effect ch w.state o with
  | silent hkv hno hnodel => exact hs.cons_silent hkv hclock hno hnodel
  | wrote key' v happ hkv hrep =>
      cases c with
      | complete key token entry ttl =>
          cases happ with
          | create => exact hg.elim
          | update data' hrev =>
              -- the extension comes before the entry is stored
              refine ⟨fun _ hp _ _ => ?_⟩
              rcases List.mem_cons.mp hp with heq | hp
              · cases congrArg Answered.op heq
              · exact absurd rfl (hg.2.2 _ hp _ _)
          | put _ data' =>
              obtain ⟨rfl, hnoput, -, -⟩ := hg
              exact .stored hnoput (by simpa [upToDate] using hcur) hkv hrep
          | delete hrev =>
              obtain ⟨rfl, -, -⟩ := hg
              exact hs.deleted (hok _ _ ht).sound hrev hkv hclock
      | _ => exact ⟨fun hc => by cases hc⟩

/-! ### A thread that watches another one write -/

section
variable {w : World (coordinator K)} {t u : ℕ} {ch : KvChoice} {c : KvCall} {h : Hist} {o : KvOp}
  {k : o.Ret → Kv KvResult} {th : Thread (coordinator K)} {key token : String}
  {entry : IdempotencyEntry} {ttl : ℤ} {data : Data} {rp r : ℕ} {v : Option Data}

/-- A `Complete` that stores an entry still has its claim, so it is the same call
or the watched entry has expired. -/
theorem Shielded.expired_of_entryWrite (hs : Shielded w.state th) (hok : (protocol K).Ok w)
    (hd : Distinct w) (htu : t ≠ u) (ht : w.threads[t]? = some th)
    (hu : w.threads[u]? = some ⟨c, h, .call o k⟩) (hC : UpToDate w (.step u ch))
    (happ : Applies w.state.kv o (entryPrefix ++ key) v)
    (hc : th.call = .complete key token entry ttl)
    (hp : ⟨.put (entryPrefix ++ key) data, .ok rp⟩ ∈ th.hist)
    (hext : Extended key token r th.hist)
    (hor : w.state.kv.revision (claimPrefix ++ key) = r ∨
      ⟨.delete (claimPrefix ++ key) r, none⟩ ∈ th.hist) : Expired K data w.state.clock := by
  have hcur := hC.thread hu
  obtain ⟨token', _, _, data', rfl, rfl, -, -, ⟨r', hext'⟩, -⟩ := entryWrite (hok.guard hu) happ
  have hrev' := hext'.revision (by simpa [upToDate] using hcur)
  rcases hs.stands hc hp hext hor with he | ⟨-, hrev | hnone⟩
  · exact he
  · obtain rfl : r = r' := hrev.symm.trans hrev'
    obtain ⟨q, r₀, hmem, -⟩ := hext
    obtain ⟨q', r₀', hmem', -⟩ := hext'
    exact absurd (hd _ _ _ _ ht hu _ hmem _ hmem' (.update _ _ _ _) (.update _ _ _ _)) htu
  · obtain ⟨q, hq, htoken⟩ := hext'.claimRecord (hok _ _ hu).sound hrev'
    exact absurd hnone (carries_iff.mpr ⟨q, hq, htoken⟩).read_ne_none

/-- Where a deleted claim is written again, a new `Claim` does so, and it has seen
that the entry has expired. -/
theorem Shielded.expired_of_claimWrite (hs : Shielded w.state th) (hok : (protocol K).Ok w)
    (ht : w.threads[t]? = some th) (hu : w.threads[u]? = some ⟨c, h, .call o k⟩)
    (hC : UpToDate w (.step u ch)) (happ : Applies w.state.kv o (claimPrefix ++ key) v)
    (hc : th.call = .complete key token entry ttl)
    (hp : ⟨.put (entryPrefix ++ key) data, .ok rp⟩ ∈ th.hist)
    (hext : Extended key token r th.hist)
    (hdel : ⟨.delete (claimPrefix ++ key) r, none⟩ ∈ th.hist) :
    Expired K data w.state.clock := by
  have hcur := hC.thread hu
  have hx : ∀ x ∈ h, Sound w.state x := (hok _ _ hu).sound
  have hlt := ((hok _ _ ht).sound _ hdel).deleted (.delete _ _)
  rcases hs.stands hc hp hext (.inr hdel) with he | ⟨hcell, hrev | hnone⟩
  · exact he
  · omega
  · have hgone : ∀ q, w.state.claimRecord key ≠ some q := by
      intro q hq
      simp [KvState.claimRecord, hnone] at hq
    cases claimWrite (hok.guard hu) hx happ with
    | created _ hno =>
        exact expired_of_sawNoEntry hno hx (by simpa [upToDate] using hcur) hcell
    | replaced was => exact absurd was (hgone _)
    | completing was => exact absurd was (hgone _)
    | renewed was => exact absurd was (hgone _)
    | completed was => exact absurd was (hgone _)
    | released was => exact absurd was (hgone _)

theorem shielded_other (hok : (protocol K).Ok w) (hd : Distinct w) (htu : t ≠ u)
    (ht : w.threads[t]? = some th) (hu : w.threads[u]? = some ⟨c, h, .call o k⟩)
    (hC : UpToDate w (.step u ch)) (hs : Shielded w.state th) :
    Shielded (exec ch w.state o).1 th := by
  have hclock := exec_clock_le ch w.state o
  cases exec_effect ch w.state o with
  | silent hkv => exact hs.of_same rfl id id id hkv hclock
  | wrote key' v happ hkv =>
      refine ⟨fun {key token entry ttl data rp r} hc hp hext hor => ?_⟩
      by_cases hek : key' = entryPrefix ++ key
      · subst hek
        have hsame : (exec ch w.state o).1.kv.revision (claimPrefix ++ key) =
            w.state.kv.revision (claimPrefix ++ key) := by
          rw [hkv, Store.revision_write_ne _ _ (claimPrefix_ne_entryPrefix _ _)]
        rw [hsame] at hor
        exact .inl ((hs.expired_of_entryWrite hok hd htu ht hu hC happ hc hp hext hor).later hclock)
      by_cases hck : key' = claimPrefix ++ key
      · subst hck
        have hdel : ⟨.delete (claimPrefix ++ key) r, none⟩ ∈ th.hist := by
          refine hor.resolve_left fun hrev => ?_
          rw [hkv, Store.revision_write_self] at hrev
          have := (hext.le_seq (hok _ _ ht).sound).1
          omega
        exact .inl ((hs.expired_of_claimWrite hok ht hu hC happ hc hp hext hdel).later hclock)
      · have hcell' : (exec ch w.state o).1.kv.cells (entryPrefix ++ key) =
            w.state.kv.cells (entryPrefix ++ key) := by
          rw [hkv, Store.cells_write_ne _ _ (Ne.symm hek)]
        have hrev' : (exec ch w.state o).1.kv.revision (claimPrefix ++ key) =
            w.state.kv.revision (claimPrefix ++ key) := by
          rw [hkv, Store.revision_write_ne _ _ (Ne.symm hck)]
        have hread' : (exec ch w.state o).1.kv.read (claimPrefix ++ key) =
            w.state.kv.read (claimPrefix ++ key) := by
          rw [hkv, Store.read_write_ne _ _ (Ne.symm hck)]
        rw [hcell', hrev', hread']
        exact (hs.stands hc hp hext (hrev' ▸ hor)).imp_left fun he => he.later hclock

end

/-- What holds throughout a run without outdated readings. -/
structure Guarding (w : World (coordinator K)) : Prop where
  ok : (protocol K).Ok w
  distinct : Distinct w
  shielded : ∀ (t : ℕ) (th : Thread (coordinator K)), w.threads[t]? = some th →
    Shielded w.state th

theorem guarding_init (s : KvState) : Guarding (World.init s : World (coordinator K)) where
  ok := (protocol K).ok_init s
  distinct _ _ _ _ ht := by simp [World.init] at ht
  shielded _ _ ht := by simp [World.init] at ht

theorem guarding_moves {w w' : World (coordinator K)} {a : Act (coordinator K)}
    (hm : w.Moves a w') (hC : UpToDate w a) (hw : Guarding w) : Guarding w' := by
  refine ⟨(protocol K).ok_moves hm hw.ok, distinct_moves hm hw.ok hw.distinct, fun t th ht => ?_⟩
  cases hm with
  | idle => exact hw.shielded _ _ ht
  | env d => exact (hw.shielded _ _ ht).of_same rfl id id id rfl (I64.le_advance _ _)
  | enter h =>
      cases h
      rcases World.getElem?_enter ht with ht | ⟨-, rfl⟩
      · exact hw.shielded _ _ ht
      · exact ⟨fun _ hp => by simp [Thread.start] at hp⟩
  | @perform u ch c h o k hu =>
      rw [World.getElem?_perform hu] at ht
      split at ht
      · obtain rfl := Option.some.inj ht
        exact shielded_self hw.ok hu hC (hw.shielded _ _ hu)
      · exact shielded_other hw.ok hw.distinct ‹_› ht hu hC (hw.shielded _ _ ht)

/-! ### Completed requests -/

/-- The extension of a `Complete` precedes the storing of its entry. -/
theorem extended_before_put {s' : KvState} {th th' : Thread (coordinator K)}
    {key token : String} {entry : IdempotencyEntry} {ttl : ℤ} {k : String} {data : Data}
    {rp r : ℕ} (hth' : (protocol K).Holds s' th') (hlater : th.Later th')
    (hc : th.call = .complete key token entry ttl) (hp : ⟨.put k data, .ok rp⟩ ∈ th.hist)
    (hext : Extended key token r th'.hist) : Extended key token r th.hist := by
  obtain ⟨p, r₀, hmem, hpt⟩ := hext
  obtain ⟨l, h', hl⟩ := List.append_of_mem hmem
  have hsuf : ⟨.update (claimPrefix ++ key) (marshalClaim p) r₀, .ok r⟩ :: h' <:+ th'.hist :=
    ⟨l, hl.symm⟩
  have hguard := hth'.allowed hsuf
  rw [hlater.call, hc] at hguard
  -- the two suffixes are comparable, and the longer one is the thread's history
  rcases List.suffix_or_suffix_of_suffix hsuf hlater.hist with hsub | hsub
  · exact ⟨p, r₀, hsub.subset List.mem_cons_self, hpt⟩
  · rcases List.suffix_cons_iff.mp hsub with heq | hsub
    · exact ⟨p, r₀, heq ▸ List.mem_cons_self, hpt⟩
    · exact absurd rfl (hguard.2.2 _ (hsub.subset hp) _ _)

/-- A record that has left revision `r` is never deleted at `r` any more. -/
theorem not_deleted_later {w : World (coordinator K)} {c : ℕ} {th : Thread (coordinator K)}
    {key : String} {r : ℕ} (ht : w.threads[c]? = some th)
    (hrev : r < w.state.kv.revision key) (hdel : ⟨.delete key r, none⟩ ∉ th.hist)
    (acts : List (Act (coordinator K))) {th' : Thread (coordinator K)}
    (ht' : (w.run acts).threads[c]? = some th') : ⟨.delete key r, none⟩ ∉ th'.hist := by
  have hinv := World.run_invariant (M := coordinator K)
    (P := fun w => r < w.state.kv.revision key ∧ ∃ th : Thread (coordinator K),
      w.threads[c]? = some th ∧ ⟨.delete key r, none⟩ ∉ th.hist) ?_ ⟨hrev, th, ht, hdel⟩ acts
  · obtain ⟨-, th'', ht'', hno⟩ := hinv
    cases ht'.symm.trans ht''
    exact hno
  · rintro w a w' hm ⟨hrev, th, ht, hno⟩
    refine ⟨Nat.lt_of_lt_of_le hrev ((moves_grows hm).1.revision_le _), ?_⟩
    cases hm with
    | idle => exact ⟨th, ht, hno⟩
    | env d => exact ⟨th, ht, hno⟩
    | enter h =>
        have hlt : c < w.threads.length := (List.getElem?_eq_some_iff.mp ht).1
        exact ⟨th, by rwa [List.getElem?_append_left hlt], hno⟩
    | @perform u ch call h o k hu =>
        rw [World.getElem?_perform hu]
        by_cases hcu : c = u
        · rw [if_pos hcu]
          subst hcu
          cases ht.symm.trans hu
          refine ⟨_, rfl, fun hmem => ?_⟩
          rcases List.mem_cons.mp hmem with heq | hmem
          · cases exec_effect ch w.state o with
            | silent _ _ hnodel => exact absurd (heq ▸ ReportsDelete.delete _ _) (hnodel _ _)
            | wrote key' v happ =>
                have hop := congrArg Answered.op heq
                simp only at hop
                subst hop
                cases happ with
                | delete hr => omega
          · exact hno hmem
        · rw [if_neg hcu]
          exact ⟨th, ht, hno⟩

/-- A completed request is not granted again while its entry is valid, in every
run in which no request acts on an outdated reading. -/
theorem neverRegranted_of_upToDate (K : Kernel) (s : KvState)
    (acts : List (Act (coordinator K))) (hC : World.Always UpToDate (World.init s) acts) :
    NeverRegranted s acts := by
  rintro pre a post rfl key token hgrant c th th' owner entry ttl data rp ht hcall hput ht' hres
  obtain ⟨hpre, hCa, -⟩ := World.always_append.mp hC
  have hinv := World.run_invariant_of_always guarding_moves (guarding_init s) hpre
  generalize hw : (World.init s : World (coordinator K)).run pre = w at *
  rw [World.run_append, hw] at ht'
  have hok' : (protocol K).Ok (w.run (a :: post)) := by
    rw [← hw, ← World.run_append]
    exact (protocol K).ok_run s _
  -- the revision at which the successful `Complete` deleted its claim
  have hlater : th.Later th' := by
    obtain ⟨th'', hth'', hlater⟩ := World.thread_run ht (a :: post)
    cases ht'.symm.trans hth''
    exact hlater
  have hpost := hok'.post ht' hres
  rw [hlater.call, hcall] at hpost
  obtain ⟨r, h', hhist, hext'⟩ := hpost
  have hext : Extended key owner r th.hist :=
    extended_before_put (hok' _ _ ht') hlater hcall hput
      (hext'.mono (hhist ▸ List.subset_cons_self _ _))
  have hor : w.state.kv.revision (claimPrefix ++ key) = r ∨
      ⟨.delete (claimPrefix ++ key) r, none⟩ ∈ th.hist := by
    by_contra hnot
    obtain ⟨hne, hno⟩ := not_or.mp hnot
    have hle := (hext.le_seq (hinv.ok _ _ ht).sound).2
    refine not_deleted_later ht (by omega) hno (a :: post) ht' ?_
    rw [hhist]
    exact List.mem_cons_self
  rcases (hinv.shielded _ _ ht).stands hcall hput hext hor with he | ⟨hcell, -⟩
  · exact he
  · obtain ⟨t, ch, requestHash, leaseTTL, h, o, k, p, rfl, hu, -, happ, -⟩ :=
      hgrant.writes hinv.ok
    have hx := (hinv.ok _ _ hu).sound
    have hcur := hCa.thread hu
    generalize some (marshalClaim p) = v at happ
    cases claimWrite (hinv.ok.guard hu) hx happ with
    | created _ hno =>
        exact expired_of_sawNoEntry hno hx (by simpa [upToDate] using hcur) hcell
    | replaced _ _ hno =>
        exact expired_of_sawNoEntry hno hx (by simpa [upToDate] using hcur) hcell

end

/-! ### The run that grants a completed request again -/

def doneEntry : IdempotencyEntry := ⟨200, [111, 107], 0, "h"⟩

/-- A first `Claim` finds no entry and stops just before its `Create`. A second
one is granted the key and completes; its entry never expires. -/
def completedMeanwhile : List (Act (coordinator .plain)) :=
  .spawn (.claim "k" "h" 10) :: steps 0 6 "t0" ++
    .spawn (.claim "k" "h" 10) :: steps 1 7 "t1" ++
    .spawn (.complete "k" "t1" doneEntry 0) :: steps 2 10 ""

/-- When the first `Claim` goes on, it is granted the completed key. -/
theorem regranted_after_complete :
    ¬ NeverRegranted KvState.fresh (completedMeanwhile ++ [.step 0 {}]) := by
  intro h
  have hx := h completedMeanwhile (.step 0 {}) [] rfl "k" "t0" (by decide +kernel) 2 _ _ "t1"
    doneEntry 0 _ _ rfl rfl (.tail _ (.tail _ (.head _))) rfl rfl
  obtain ⟨_, _, hd, hne, _⟩ := hx
  cases hd
  exact hne rfl

/-- A request completes with an entry that is valid for five units of time. -/
def completedForFive : List (Act (coordinator .plain)) :=
  .spawn (.claim "k" "h" 10) :: steps 0 7 "t0" ++
    .spawn (.complete "k" "t0" doneEntry 5) :: steps 1 10 ""

/-- Once the entry has expired, the key is granted again and rightly so. -/
theorem neverRegranted_after_expiry :
    NeverRegranted KvState.fresh
        (completedForFive ++ .env 9 :: .spawn (.claim "k" "h" 10) :: steps 2 9 "t2") ∧
      Grants ((World.init KvState.fresh).run
        (completedForFive ++ .env 9 :: .spawn (.claim "k" "h" 10) :: steps 2 8 "t2"))
        (.step 2 {}) "k" "t2" :=
  ⟨neverRegranted_of_upToDate .plain .fresh _ (by decide +kernel), by decide +kernel⟩

end TransportNats.Idempotency
