import TransportNats.KeyValue.Actions

/-!
What clients of one bucket can rely on.

A call changes the buckets at most once, and then as its request says, whether
it succeeds or its reply is lost. As long as a bucket is not deleted its
revisions only go up, so a revision that has been replaced never comes back.
Two calls that expect the same revision of a key therefore cannot both succeed,
and a revision stands for one value.
-/

namespace TransportNats.KeyValue

open Interleaving Program VersionedStore

section
variable {L : FlowLib}

/-! ### The effect of a call -/

/-- What one operation can do to the buckets. -/
theorem kvExec_effect (ch : KvChoice) (s : Buckets) (o : KvOp) :
    (kvExec ch s o).1 = s ∨
      ∃ req answer, o = .send req ∧ s.apply ch.clock req = some ((kvExec ch s o).1, answer) := by
  cases o with
  | ensureConn | newJetStream | keyValue => exact .inl rfl
  | send req =>
      simp only [kvExec]
      split
      · exact .inl rfl
      · rename_i ha
        exact .inr ⟨req, _, rfl, ha⟩
      · exact .inl rfl
      · rename_i ha
        exact .inr ⟨req, _, rfl, ha⟩
      · exact .inl rfl

/-- The thread has made its request. -/
def Sent (w : World (clients L)) (t : ℕ) : Prop :=
  ∃ th, w.threads[t]? = some th ∧ ¬ Unsent th.hist

theorem Sent.run {w : World (clients L)} {t : ℕ} (h : Sent w t) (acts : List (Act (clients L))) :
    Sent (w.run acts) t := by
  obtain ⟨th, ht, hs⟩ := h
  obtain ⟨th', ht', hlater⟩ := World.thread_run ht acts
  exact ⟨th', ht', fun hu => hs fun x hx => hu x (hlater.hist.subset hx)⟩

end

/-- What a request does to a bucket. -/
theorem apply_ages {s s' : Buckets} {clock : ℤ} {req : KvRequest} {answer : req.Answer}
    (h : s.apply clock req = some (s', answer)) (b : Bytes) {kv : Store Bytes Stored}
    (hb : s b = some kv) : ∃ kv', s' b = some kv' ∧ kv.Ages kv' := by
  have hset : ∀ {b' : Bytes} {kv₀ kv₁ : Store Bytes Stored}, s b' = some kv₀ → kv₀.Ages kv₁ →
      ∃ kv', (s.set b' kv₁) b = some kv' ∧ kv.Ages kv' := by
    intro b' kv₀ kv₁ hb' hages
    by_cases hbb : b = b'
    · subst hbb
      cases hb.symm.trans hb'
      exact ⟨kv₁, Function.update_self .., hages⟩
    · exact ⟨kv, by rw [Buckets.set, Function.update_of_ne hbb, hb], .refl kv⟩
  cases req with
  | get b' k =>
      obtain ⟨kv₀, -, heq⟩ := Option.map_eq_some_iff.mp h
      cases heq
      exact ⟨kv, hb, .refl kv⟩
  | put b' k v =>
      obtain ⟨kv₀, hb', heq⟩ := Option.map_eq_some_iff.mp h
      cases heq
      exact hset hb' (Store.ages_write _ _ _)
  | create b' k v ttl =>
      obtain ⟨kv₁, hkv, heq⟩ := Option.map_eq_some_iff.mp h
      obtain ⟨kv₀, hb', hc⟩ := Option.bind_eq_some_iff.mp hkv
      cases heq
      obtain ⟨-, rfl⟩ := Store.create_eq_some hc
      exact hset hb' (Store.ages_write _ _ _)
  | update b' k v r =>
      obtain ⟨kv₁, hkv, heq⟩ := Option.map_eq_some_iff.mp h
      obtain ⟨kv₀, hb', hc⟩ := Option.bind_eq_some_iff.mp hkv
      cases heq
      obtain ⟨-, rfl⟩ := Store.writeAt_eq_some hc
      exact hset hb' (Store.ages_write _ _ _)
  | delete b' k r =>
      obtain ⟨kv₁, hkv, heq⟩ := Option.map_eq_some_iff.mp h
      obtain ⟨kv₀, hb', hc⟩ := Option.bind_eq_some_iff.mp hkv
      cases heq
      refine hset hb' ?_
      cases r with
      | none =>
          cases hc
          exact Store.ages_write _ _ _
      | some r =>
          obtain ⟨-, rfl⟩ := Store.writeAt_eq_some hc
          exact Store.ages_write _ _ _

theorem env_ages {e : KvEnv} {s : Buckets} {b : Bytes} (he : e ≠ .deleteBucket b)
    {kv : Store Bytes Stored} (hb : s b = some kv) :
    ∃ kv', e.apply s b = some kv' ∧ kv.Ages kv' := by
  have hupdate : ∀ (b' : Bytes) (f : Store Bytes Stored → Store Bytes Stored),
      (∀ kv : Store Bytes Stored, kv.Ages (f kv)) →
      ∃ kv', Function.update s b' ((s b').map f) b = some kv' ∧ kv.Ages kv' := by
    intro b' f hf
    by_cases hbb : b = b'
    · subst hbb
      exact ⟨f kv, by rw [Function.update_self, hb]; rfl, hf kv⟩
    · exact ⟨kv, by rw [Function.update_of_ne hbb, hb], .refl kv⟩
  cases e with
  | createBucket b' =>
      refine ⟨kv, ?_, .refl kv⟩
      simp only [KvEnv.apply]
      split
      · exact hb
      · rename_i hnone
        have hbb : b ≠ b' := by
          rintro rfl
          simp [hb] at hnone
        rw [Buckets.set, Function.update_of_ne hbb, hb]
  | deleteBucket b' =>
      have hbb : b ≠ b' := by
        rintro rfl
        exact he rfl
      exact ⟨kv, by simp only [KvEnv.apply, Function.update_of_ne hbb, hb], .refl kv⟩
  | expire b' k => exact hupdate b' _ fun kv => kv.ages_forget k
  | write b' k v => exact hupdate b' _ fun kv => kv.ages_write k v

section
variable {L : FlowLib}

/-- The bucket `b` is never deleted. -/
def Keeps (b : Bytes) (acts : List (Act (clients L))) : Prop :=
  ∀ a ∈ acts, a ≠ .env (.deleteBucket b)

theorem act_ages {w : World (clients L)} {a : Act (clients L)} {b : Bytes}
    (ha : a ≠ .env (.deleteBucket b)) {kv : Store Bytes Stored} (hb : w.state b = some kv) :
    ∃ kv', (w.act a).state b = some kv' ∧ kv.Ages kv' := by
  have hm := World.moves_act w a
  generalize w.act a = w' at hm ⊢
  cases hm with
  | idle => exact ⟨kv, hb, .refl kv⟩
  | enter h =>
      cases h
      exact ⟨kv, hb, .refl kv⟩
  | @perform t ch c h o k ht =>
      rcases kvExec_effect ch w.state o with heq | ⟨req, answer, rfl, happ⟩
      · refine ⟨kv, ?_, .refl kv⟩
        show (kvExec ch w.state o).1 b = some kv
        rw [heq, hb]
      · exact apply_ages happ b hb
  | env e => exact env_ages (fun h => ha (h ▸ rfl)) hb

/-- What ageing keeps, holds of a bucket until it is deleted. -/
theorem run_ages {P : Store Bytes Stored → Prop} (hP : ∀ {kv kv'}, P kv → kv.Ages kv' → P kv')
    {b : Bytes} {acts : List (Act (clients L))} (hkeeps : Keeps b acts) {w : World (clients L)}
    (hw : ∃ kv, w.state b = some kv ∧ P kv) : ∃ kv, (w.run acts).state b = some kv ∧ P kv := by
  induction acts generalizing w with
  | nil => exact hw
  | cons a acts ih =>
      obtain ⟨kv, hb, hkv⟩ := hw
      obtain ⟨kv', hb', hages⟩ := act_ages (hkeeps a List.mem_cons_self) hb
      exact ih (fun a ha => hkeeps a (List.mem_cons_of_mem _ ha)) ⟨kv', hb', hP hkv hages⟩

/-! ### Two moments of a run -/

/-- Of two different steps of a run one comes first. -/
theorem step_order {A : Type} {a a' : A} (hne : a ≠ a') {pre post pre' post' : List A}
    (h : pre ++ a :: post = pre' ++ a' :: post') :
    (∃ mid, pre' = pre ++ a :: mid) ∨ ∃ mid, pre = pre' ++ a' :: mid := by
  rcases List.append_eq_append_iff.mp h with ⟨mid, hpre, hpost⟩ | ⟨mid, hpre, hpost⟩
  · cases mid with
    | nil => exact absurd (List.cons.inj hpost).1 hne
    | cons x mid =>
        obtain ⟨rfl, -⟩ := List.cons.inj hpost
        exact .inl ⟨mid, hpre⟩
  · cases mid with
    | nil => exact absurd (List.cons.inj hpost).1.symm hne
    | cons x mid =>
        obtain ⟨rfl, -⟩ := List.cons.inj hpost
        exact .inr ⟨mid, hpre⟩

/-- What ageing keeps, and what holds after the first of two requests, holds before the
second. -/
theorem Moment.later {s₀ : Buckets} {acts : List (Act (clients L))} {t u : ℕ} {c' : KvCall L}
    {res' : KvResult L} {pre pre' mid : List (Act (clients L))} {ch ch' : KvChoice}
    {req' : KvRequest} {answer' : req'.Answer}
    (hm' : Moment s₀ acts u c' res' pre' ch' req' answer')
    (hpre : pre' = pre ++ .step t ch :: mid) {b : Bytes} (hkeeps : Keeps b acts)
    {P : Store Bytes Stored → Prop} (hP : ∀ {kv kv'}, P kv → kv.Ages kv' → P kv')
    (hafter : ∃ kv, ((World.init (M := clients L) s₀).run (pre ++ [.step t ch])).state b = some kv ∧
      P kv) :
    ∃ kv, ((World.init (M := clients L) s₀).run pre').state b = some kv ∧ P kv := by
  obtain ⟨post', hacts⟩ := hm'.at_step
  have hsplit : pre' = (pre ++ [.step t ch]) ++ mid := by simp [hpre]
  have hmid : Keeps b mid := by
    intro a ha
    refine hkeeps a ?_
    rw [hacts, hpre]
    simp [ha]
  rw [hsplit, World.run_append]
  exact run_ages hP hmid hafter

/-- The revision that a request expects of a key. -/
def KvRequest.expects : KvRequest → Option (Bytes × Bytes × ℕ)
  | .update b k _ r => some (b, k, r)
  | .delete b k (some r) => some (b, k, r)
  | _ => none

theorem Yields.expects_pos {c : KvCall L} {req : KvRequest} {answer : req.Answer}
    {res : KvResult L} (hy : Yields L c req answer res) {b k : Bytes} {r : ℕ}
    (he : req.expects = some (b, k, r)) : 0 < r := by
  cases hy with
  | updateKV hn | update hn =>
      cases he
      exact Nat.pos_of_ne_zero hn
  | @deleteKV _ _ n hn =>
      cases n with
      | none => cases he
      | some n =>
          cases he
          exact Nat.pos_of_ne_zero fun h => hn (h ▸ rfl)
  | @delete req hn =>
      obtain ⟨b', k', n⟩ := req
      cases n with
      | none => cases he
      | some n =>
          cases he
          exact Nat.pos_of_ne_zero fun h => hn (h ▸ rfl)
  | getKV | putKV | createKV | found | missing | put | create => cases he

/-- A conditional request goes through at the revision it expects, and replaces it. -/
theorem apply_expects {s s' : Buckets} {clock : ℤ} {req : KvRequest} {answer : req.Answer}
    (h : s.apply clock req = some (s', answer)) {b k : Bytes} {r : ℕ}
    (he : req.expects = some (b, k, r)) :
    (∃ kv, s b = some kv ∧ kv.revision k = r) ∧ ∃ kv, s' b = some kv ∧ kv.Replaced k r := by
  cases req with
  | update b' k' v r' =>
      cases he
      obtain ⟨kv₁, hkv, heq⟩ := Option.map_eq_some_iff.mp h
      obtain ⟨kv₀, hb, hc⟩ := Option.bind_eq_some_iff.mp hkv
      cases heq
      obtain ⟨hr, rfl⟩ := Store.writeAt_eq_some hc
      exact ⟨⟨kv₀, hb, hr⟩, _, Function.update_self .., Store.replaced_write _ hr⟩
  | delete b' k' r' =>
      cases r' with
      | none => cases he
      | some r' =>
          cases he
          obtain ⟨kv₁, hkv, heq⟩ := Option.map_eq_some_iff.mp h
          obtain ⟨kv₀, hb, hc⟩ := Option.bind_eq_some_iff.mp hkv
          cases heq
          obtain ⟨hr, rfl⟩ := Store.writeAt_eq_some hc
          exact ⟨⟨kv₀, hb, hr⟩, _, Function.update_self .., Store.replaced_write _ hr⟩
  | get | put | create => cases he

/-- The later of two requests does not find the revision that the earlier one expected. -/
theorem Moment.not_expected {s₀ : Buckets} {acts : List (Act (clients L))} {t u : ℕ}
    {c c' : KvCall L} {res res' : KvResult L} {pre pre' mid : List (Act (clients L))}
    {ch ch' : KvChoice} {req req' : KvRequest} {answer : req.Answer} {answer' : req'.Answer}
    (hm : Moment s₀ acts t c res pre ch req answer)
    (hm' : Moment s₀ acts u c' res' pre' ch' req' answer')
    (hpre : pre' = pre ++ .step t ch :: mid) {b k : Bytes} {r : ℕ} (hkeeps : Keeps b acts)
    (he : req.expects = some (b, k, r)) (he' : req'.expects = some (b, k, r)) : False := by
  have hr := hm.yields.expects_pos he
  obtain ⟨-, hafter⟩ := apply_expects hm.applied he
  obtain ⟨⟨kv, hb, hrev⟩, -⟩ := apply_expects hm'.applied he'
  obtain ⟨kv', hb', hrep⟩ := hm'.later hpre hkeeps
    (P := fun kv => kv.Replaced k r) (fun h => h.ages hr) hafter
  cases hb.symm.trans hb'
  exact hrep.2 hrev

/-- The revision that a call expects of a key. -/
def KvCall.expects : KvCall L → Option (Bytes × Bytes × ℕ)
  | .updateKV b k _ r => some (b, k, r)
  | .deleteKV b k (some r) => some (b, k, r)
  | .update req => some (req.bucket, req.key, req.revision)
  | .delete ⟨b, k, some r⟩ => some (b, k, r)
  | _ => none

theorem Yields.expects_eq {c : KvCall L} {req : KvRequest} {answer : req.Answer}
    {res : KvResult L} (hy : Yields L c req answer res) : req.expects = c.expects := by
  cases hy with
  | @deleteKV _ _ n => cases n <;> rfl
  | @delete req =>
      obtain ⟨b, k, n⟩ := req
      cases n <;> rfl
  | _ => rfl

end

/-- No lost update. As long as a bucket is not deleted, of all the updates and deletions that
expect one revision of one key at most one succeeds, in every run of any number of
clients: once one of them has succeeded, no other one has. -/
theorem kv_update_exclusive (L : FlowLib) (s₀ : Buckets) (acts : List (Act (clients L)))
    {b k : Bytes} {r : ℕ} (hkeeps : Keeps b acts) {t u : ℕ} (htu : t ≠ u)
    {th th' : Thread (clients L)} {res : KvResult L}
    (ht : ((World.init (M := clients L) s₀).run acts).threads[t]? = some th)
    (hu : ((World.init (M := clients L) s₀).run acts).threads[u]? = some th')
    (hexp : th.call.expects = some (b, k, r)) (hexp' : th'.call.expects = some (b, k, r))
    (hres : th.rest.result? = some (.ok res)) :
    ∀ res', th'.rest.result? ≠ some (.ok res') := by
  intro res' hres'
  obtain ⟨pre, ch, req, answer, hm⟩ := exists_moment ht hres
  obtain ⟨pre', ch', req', answer', hm'⟩ := exists_moment hu hres'
  rw [← hm.yields.expects_eq] at hexp
  rw [← hm'.yields.expects_eq] at hexp'
  obtain ⟨post, hacts⟩ := hm.at_step
  obtain ⟨post', hacts'⟩ := hm'.at_step
  have hne : (Act.step t ch : Act (clients L)) ≠ .step u ch' := by
    intro heq
    cases heq
    exact htu rfl
  rcases step_order hne (hacts.symm.trans hacts') with ⟨mid, hpre⟩ | ⟨mid, hpre⟩
  · exact hm.not_expected hm' hpre hkeeps hexp hexp'
  · exact hm'.not_expected hm hpre hkeeps hexp' hexp

theorem keeps_rivalUpdates : Keeps (L := plainLib) [98] rivalUpdates := by
  intro a ha heq
  subst heq
  simp [rivalUpdates, kvSteps] at ha

/-- Of the two updates of `rivalUpdates` the first one has succeeded and the second one has
not. -/
theorem kv_update_exclusive_rivalUpdates :
    ∃ th th' res, (noBuckets.run rivalUpdates).threads[2]? = some th ∧
      (noBuckets.run rivalUpdates).threads[3]? = some th' ∧
      th.call.expects = some ([98], [107], 1) ∧ th'.call.expects = some ([98], [107], 1) ∧
      th.rest.result? = some (.ok res) ∧ ∀ res', th'.rest.result? ≠ some (.ok res') :=
  ⟨_, _, _, rfl, rfl, rfl, rfl, rfl,
    kv_update_exclusive plainLib (fun _ => none) rivalUpdates keeps_rivalUpdates (t := 2) (u := 3)
      (by decide) rfl rfl rfl rfl rfl⟩

/-! ### Reading what was written -/

section
variable {L : FlowLib}

/-- The bucket, key and contents that a call writes. -/
def KvCall.writes : KvCall L → Option (Bytes × Bytes × Bytes)
  | .putKV b k v | .createKV b k v _ | .updateKV b k v _ => some (b, k, v)
  | .put req => (marshalKVValue L req.value).toOption.map fun data => (req.bucket, req.key, data)
  | .create req =>
      (marshalKVValue L req.value).toOption.map fun data => (req.bucket, req.key, data)
  | .update req =>
      (marshalKVValue L req.value).toOption.map fun data => (req.bucket, req.key, data)
  | _ => none

/-- The revision that a write has got. -/
def KvResult.written? : KvResult L → Option ℕ
  | .revision r => some r
  | .wrote resp => some resp.revision
  | _ => none

/-- The request wrote `v` under `k`, as the next revision `r` of the bucket. -/
def Writes (s s' : Buckets) (clock : ℤ) (b k v : Bytes) (r : ℕ) : Prop :=
  ∃ kv, s b = some kv ∧ r = kv.seq + 1 ∧ s' = s.set b (kv.write k (some ⟨v, clock⟩))

theorem writes_put {s s' : Buckets} {clock : ℤ} {b k v : Bytes} {r : ℕ}
    (h : s.apply clock (.put b k v) = some (s', r)) : Writes s s' clock b k v r := by
  obtain ⟨kv, hb, heq⟩ := Option.map_eq_some_iff.mp h
  cases heq
  exact ⟨kv, hb, rfl, rfl⟩

theorem writes_create {s s' : Buckets} {clock : ℤ} {b k v : Bytes} {ttl : ℤ} {r : ℕ}
    (h : s.apply clock (.create b k v ttl) = some (s', r)) : Writes s s' clock b k v r := by
  obtain ⟨kv₁, hkv, heq⟩ := Option.map_eq_some_iff.mp h
  obtain ⟨kv, hb, hc⟩ := Option.bind_eq_some_iff.mp hkv
  cases heq
  obtain ⟨-, rfl⟩ := Store.create_eq_some hc
  exact ⟨kv, hb, rfl, rfl⟩

theorem writes_update {s s' : Buckets} {clock : ℤ} {b k v : Bytes} {n r : ℕ}
    (h : s.apply clock (.update b k v n) = some (s', r)) : Writes s s' clock b k v r := by
  obtain ⟨kv₁, hkv, heq⟩ := Option.map_eq_some_iff.mp h
  obtain ⟨kv, hb, hc⟩ := Option.bind_eq_some_iff.mp hkv
  cases heq
  obtain ⟨-, rfl⟩ := Store.writeAt_eq_some hc
  exact ⟨kv, hb, rfl, rfl⟩

theorem Moment.writes {s₀ : Buckets} {acts pre : List (Act (clients L))} {t : ℕ} {c : KvCall L}
    {res : KvResult L} {ch : KvChoice} {req : KvRequest} {answer : req.Answer}
    (hm : Moment s₀ acts t c res pre ch req answer) {b k v : Bytes} {r : ℕ}
    (hw : c.writes = some (b, k, v)) (hr : res.written? = some r) :
    Writes ((World.init (M := clients L) s₀).run pre).state
      ((World.init (M := clients L) s₀).run (pre ++ [.step t ch])).state ch.clock b k v r := by
  obtain ⟨-, happ, hy⟩ := hm
  cases hy with
  | putKV =>
      cases hw
      cases hr
      exact writes_put happ
  | createKV =>
      cases hw
      cases hr
      exact writes_create happ
  | updateKV =>
      cases hw
      cases hr
      exact writes_update happ
  | put hdata =>
      simp only [KvCall.writes, hdata, Except.toOption, Option.map_some] at hw
      cases hw
      cases hr
      exact writes_put happ
  | create hdata =>
      simp only [KvCall.writes, hdata, Except.toOption, Option.map_some] at hw
      cases hw
      cases hr
      exact writes_create happ
  | update _ hdata =>
      simp only [KvCall.writes, hdata, Except.toOption, Option.map_some] at hw
      cases hw
      cases hr
      exact writes_update happ
  | getKV | deleteKV | found | missing | delete => cases hw

/-- What a get that has found its key has read. -/
theorem Moment.read {s₀ : Buckets} {acts pre : List (Act (clients L))} {t : ℕ} {q : KVGetRequest}
    {resp : KVGetResponse L} {ch : KvChoice} {req : KvRequest} {answer : req.Answer}
    (hm : Moment s₀ acts t (.get q) (.got resp) pre ch req answer) (hfound : resp.found = true) :
    ∃ kv v, ((World.init (M := clients L) s₀).run pre).state q.bucket = some kv ∧
      ((World.init (M := clients L) s₀).run (pre ++ [.step t ch])).state q.bucket = some kv ∧
      kv.cells q.key = some ⟨some v, resp.revision⟩ ∧
      (resp.value, resp.encoding) = decodeKVValue L v.data := by
  obtain ⟨-, happ, hy⟩ := hm
  cases hy with
  | missing => cases hfound
  | found e =>
      obtain ⟨kv, hb, heq⟩ := Option.map_eq_some_iff.mp happ
      obtain ⟨hs, he⟩ := Prod.mk.inj heq
      obtain ⟨⟨v, r⟩, hread, rfl⟩ := Option.map_eq_some_iff.mp he
      exact ⟨kv, v, hb, hs ▸ hb, Store.cells_of_read hread, rfl⟩

end

/-- A revision stands for one value. As long as the bucket is not deleted, a get that answers
with the revision which a put, create or update of the key has returned, answers with what
that call has written, whichever of the two came first to its end. -/
theorem kv_get_returns_written (L : FlowLib) (s₀ : Buckets) (acts : List (Act (clients L)))
    {q : KVGetRequest} (hkeeps : Keeps q.bucket acts) {t u : ℕ} {th th' : Thread (clients L)}
    {resp : KVGetResponse L} {res' : KvResult L} {data : Bytes}
    (ht : ((World.init (M := clients L) s₀).run acts).threads[t]? = some th)
    (hu : ((World.init (M := clients L) s₀).run acts).threads[u]? = some th')
    (hcall : th.call = .get q) (hres : th.rest.result? = some (.ok (.got resp)))
    (hfound : resp.found = true) (hres' : th'.rest.result? = some (.ok res'))
    (hwrites : th'.call.writes = some (q.bucket, q.key, data))
    (hrev : res'.written? = some resp.revision) :
    (resp.value, resp.encoding) = decodeKVValue L data := by
  obtain ⟨pre, ch, req, answer, hm⟩ := exists_moment ht hres
  obtain ⟨pre', ch', req', answer', hm'⟩ := exists_moment hu hres'
  rw [hcall] at hm
  obtain ⟨kv, v, hb, hb₁, hcell, hvalue⟩ := hm.read hfound
  obtain ⟨kv', hb', hr, hs'⟩ := hm'.writes hwrites hrev
  obtain ⟨post, hacts⟩ := hm.at_step
  obtain ⟨post', hacts'⟩ := hm'.at_step
  have hne : (Act.step t ch : Act (clients L)) ≠ .step u ch' := by
    intro heq
    cases heq
    cases ht.symm.trans hu
    rw [hcall] at hwrites
    cases hwrites
  rcases step_order hne (hacts.symm.trans hacts') with ⟨mid, hpre⟩ | ⟨mid, hpre⟩
  · -- a revision that has been read is not given out again
    obtain ⟨kv₂, hb₂, hle⟩ := hm'.later hpre hkeeps (P := fun kv => resp.revision ≤ kv.seq)
      (fun h hages => Nat.le_trans h hages.seq) ⟨kv, hb₁, (kv.le_seq _ _ hcell).2⟩
    cases hb'.symm.trans hb₂
    omega
  · -- what was written is still recorded under its revision
    obtain ⟨kv₂, hb₂, hrec⟩ := hm.later hpre hkeeps
      (P := fun kv => kv.Recorded q.key (some ⟨data, ch'.clock⟩) resp.revision)
      (fun h hages => h.ages hages) ⟨_, by rw [hs']; exact Function.update_self ..,
        hr ▸ Store.recorded_write kv' q.key _⟩
    cases hb.symm.trans hb₂
    have hv := hrec.2.2 _ hcell rfl
    cases hv
    exact hvalue

/-- The get of `rivalUpdates` has read what was put. -/
theorem kv_get_returns_written_rivalUpdates :
    ∃ th th' resp res', (noBuckets.run rivalUpdates).threads[1]? = some th ∧
      (noBuckets.run rivalUpdates).threads[0]? = some th' ∧
      th.rest.result? = some (.ok (.got resp)) ∧ resp.found = true ∧
      th'.rest.result? = some (.ok res') ∧ res'.written? = some resp.revision ∧
      (resp.value, resp.encoding) = decodeKVValue plainLib [49] :=
  ⟨_, _, _, _, rfl, rfl, rfl, rfl, rfl, rfl,
    kv_get_returns_written plainLib (fun _ => none) rivalUpdates (q := ⟨[98], [107]⟩)
      keeps_rivalUpdates (t := 1) (u := 0) rfl rfl rfl rfl rfl rfl rfl rfl⟩

end TransportNats.KeyValue
