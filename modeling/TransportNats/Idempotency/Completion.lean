import TransportNats.Library.Moments
import TransportNats.Idempotency.Exclusion
import TransportNats.Idempotency.Regrant

/-!
Completed work is not repeated.

Claims that look at the entry of a key before it is stored may still be granted
after it has been, so a completed action can be run once more by an execution
that was under way. It cannot by one that begins later: nothing ever removes an
entry, and an execution runs the action only after it has found none, or one
that has expired by the clock it has read. The entry that it finds may be another
than the first, since a late `Complete` overwrites what is stored.
-/

namespace TransportNats.Idempotency

open Interleaving VersionedStore Program

/-- Something is stored as the outcome of the key. -/
def Stored (s : KvState) (key : String) : Prop :=
  ∃ data r, s.kv.cells (entryPrefix ++ key) = some ⟨some data, r⟩

section
variable {K : Kernel} {key : String}

theorem stored_moves {w w' : World (coordinator K)} {a : Act (coordinator K)} (hm : w.Moves a w')
    (hw : (protocol K).Ok w) (hs : Stored w.state key) : Stored w'.state key := by
  cases hm with
  | idle => exact hs
  | env d => exact hs
  | enter h =>
      cases h
      exact hs
  | @perform t ch c h o k ht =>
      change Stored (exec ch w.state o).1 key
      obtain ⟨data, r, hcell⟩ := hs
      unfold Stored
      cases exec_effect ch w.state o with
      | silent hkv =>
          rw [hkv]
          exact ⟨data, r, hcell⟩
      | wrote key' v happ hkv =>
          rw [hkv]
          by_cases hk : key' = entryPrefix ++ key
          · -- an entry is overwritten by another one only
            subst hk
            obtain ⟨-, -, -, data', -, -, rfl, -⟩ := entryWrite (hw.guard ht) happ
            exact ⟨data', _, Store.cells_write_self _ _ _⟩
          · exact ⟨data, r, by rw [Store.cells_write_ne _ _ (Ne.symm hk), hcell]⟩

/-- A bucket that says a key is missing does not have it. -/
theorem not_stored_of_missing {s : KvState} {fault : Fault} {err : Err}
    (h : answerGet s fault (entryPrefix ++ key) = .error err) (hm : isKeyMissing err = true) :
    ¬ Stored s key := by
  rintro ⟨data, r, hcell⟩
  cases fault with
  | dropped o | lost o =>
      cases h
      cases hm.symm.trans o.not_missing
  | none =>
      rw [answerGet, Store.read_of_cells hcell] at h
      cases h

end

section
variable {R : Runtime} {key : String}

/-- An outcome stays stored. -/
theorem stored_run {s : ExecState R} {pre : List (Act (executor R))}
    (h : Stored ((World.init s).run pre).state.bucket key) (acts : List (Act (executor R))) :
    Stored (((World.init s).run pre).run acts).state.bucket key := by
  obtain ⟨nacts, σs, owner, hs, hok⟩ := (Delegation.simulates_init (delegation R) s).run
    (P := (protocol R.kernel).Ok) ((protocol R.kernel).ok_init _) pre
    fun _ _ _ _ _ _ hm _ hw => (protocol R.kernel).ok_moves hm hw
  obtain ⟨nacts', σs', owner', hs', -, hstored⟩ := hs.run
    (P := fun w => (protocol R.kernel).Ok w ∧ Stored w.state key) ⟨hok, by rw [hs.state]; exact h⟩
    acts fun _ _ _ _ _ _ hm _ hw =>
      ⟨(protocol R.kernel).ok_moves hm hw.1, stored_moves hm hw.1 hw.2⟩
  rw [hs'.state] at hstored
  exact hstored

/-- An execution to which the key was granted has been told that there is no
entry, or has read one that has expired by the clock it has read. -/
theorem read_of_acquired {wN : World (coordinator R.kernel)} (hw : (protocol R.kernel).Ok wN)
    {σ : Session (executor R) (coordinator R.kernel)} {th : Thread (executor R)}
    (hf : (delegation R).Follows wN σ th) {token : String} (ha : Acquired σ.events key token) :
    (∃ err, ⟨.kv (.get (entryPrefix ++ key)), .error err⟩ ∈ th.hist ∧ isKeyMissing err = true) ∨
      ∃ item now, ⟨.kv (.get (entryPrefix ++ key)), .ok item⟩ ∈ th.hist ∧
        ⟨.kv .now, now⟩ ∈ th.hist ∧ Expired R.kernel item.value now := by
  obtain ⟨requestHash, leaseTTL, c, hmem, hst, rfl⟩ := ha
  obtain ⟨h, hu, hsub⟩ := hf.unfolds
  obtain ⟨i, -, h', hth, hx⟩ := hu.of_call hmem
  have hg : granted? (⟨.claim key requestHash leaseTTL, h', .ret (.claim (.ok c))⟩ :
      Thread (coordinator R.kernel)) = some (key, c.token) := by
    simp [granted?, hst]
  obtain ⟨p, h₀, -, hsub₀, hsaw, -⟩ := written_of_granted hw hth hg
  rcases hsaw with ⟨err, hget, hmissing⟩ | ⟨item, now, hget, hnow, hexp⟩
  · exact .inl ⟨err, hsub (hx _ (hsub₀ hget)), hmissing⟩
  · exact .inr ⟨item, now, hsub (hx _ (hsub₀ hget)), hsub (hx _ (hsub₀ hnow)), hexp⟩

/-- Completed work is not repeated. If an outcome is stored for a key at some
moment, then an execution under the key that begins later runs the action only
after it has itself read an outcome of the key from the bucket, and a clock that
has reached the expiry of what it has read. -/
theorem completed_not_repeated (R : Runtime) (s : ExecState R) (pre acts : List (Act (executor R)))
    (key : String) (hstored : Stored ((World.init s).run pre).state.bucket key) (t : ℕ)
    (th : Thread (executor R)) (hnew : ((World.init s).run pre).threads.length ≤ t)
    (ht : (((World.init s).run pre).run acts).threads[t]? = some th)
    (hkey : th.call.key? R = some key) (hrun : Running th) :
    ∃ item now, ⟨.kv (.get (entryPrefix ++ key)), .ok item⟩ ∈ th.hist ∧
      ⟨.kv .now, now⟩ ∈ th.hist ∧ Expired R.kernel item.value now ∧
      ∃ mid ch post, acts = mid ++ .step t ch :: post ∧
        (((World.init s).run pre).run mid).state.bucket.kv.cells (entryPrefix ++ key) =
          some ⟨some item.value, item.revision⟩ := by
  obtain ⟨nacts, σs, owner, hs, hok⟩ := (Delegation.simulates_init (delegation R) s).run
    (P := (protocol R.kernel).Ok) ((protocol R.kernel).ok_init _) (pre ++ acts)
    fun _ _ _ _ _ _ hm _ hw => (protocol R.kernel).ok_moves hm hw
  rw [World.run_append] at hs
  obtain ⟨msg, hnext⟩ := hrun
  obtain ⟨σ, -, hf⟩ := hs.session ht
  obtain ⟨token, howns, -⟩ := owns_of_next hf hkey hnext
  rcases read_of_acquired hok hf howns.acquired with
    ⟨err, hget, hmissing⟩ | ⟨item, now, hget, hnow, hexp⟩
  · -- the entry that was stored before the execution began cannot be missing
    obtain ⟨ch, s₁, s₂, mid, post, -, rfl, -, hexec⟩ :=
      World.answers_of_mem_of_new _ acts hnew ht hget
    exact absurd (stored_run hstored mid)
      (not_stored_of_missing (congrArg Prod.snd hexec) hmissing)
  · obtain ⟨ch, s₁, s₂, mid, post, hacts, rfl, -, hexec⟩ :=
      World.answers_of_mem_of_new _ acts hnew ht hget
    exact ⟨item, now, hget, hnow, hexp, mid, ch, post, hacts,
      cells_of_answerGet (congrArg Prod.snd hexec)⟩

end

/-- Outcomes are kept for a short time. -/
def shortlyConfig : IdempotencyConfig := ⟨"Idempotency-Key", none, 5, 10⟩

/-- A message is executed and its outcome stored. -/
def completedShortly : List (Act (executor .plain)) :=
  .spawn (.execute .coordinator shortlyConfig sampleMsg) ::
    execSteps 0 22 { kv := { token := "t1" }, outcome := .value [111, 107] }

/-- The message comes again when the outcome has expired. -/
def deliveredLate : List (Act (executor .plain)) :=
  .env 20 :: .spawn (.execute .coordinator shortlyConfig sampleMsg) ::
    execSteps 1 10 { kv := { token := "t2" } }

set_option maxRecDepth 4096 in
theorem completed_not_repeated_late :
    ∃ th key,
      ((World.init (ExecState.fresh .one [])).run completedShortly |>.run
        deliveredLate).threads[1]? = some th ∧
      Stored ((World.init (ExecState.fresh .one [])).run completedShortly).state.bucket key ∧
      Running th ∧
      ∃ item now, ⟨.kv (.get (entryPrefix ++ key)), .ok item⟩ ∈ th.hist ∧
        ⟨.kv .now, now⟩ ∈ th.hist ∧ Expired Runtime.plain.kernel item.value now ∧
        ∃ mid ch post, deliveredLate = mid ++ .step 1 ch :: post ∧
          (((World.init (ExecState.fresh .one [])).run completedShortly).run
            mid).state.bucket.kv.cells (entryPrefix ++ key) =
              some ⟨some item.value, item.revision⟩ :=
  ⟨_, idempotencyKey .plain shortlyConfig sampleMsg, rfl, ⟨_, _, rfl⟩, ⟨sampleMsg, rfl⟩,
    completed_not_repeated .plain (.fresh .one []) completedShortly deliveredLate _ ⟨_, _, rfl⟩ 1 _
      (by decide +kernel) rfl rfl ⟨sampleMsg, rfl⟩⟩

end TransportNats.Idempotency
