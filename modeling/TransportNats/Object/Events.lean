import TransportNats.Object.Store

/-!
Events of an object store.

`consumeObjectEvents` gets the metadata of a version from the watcher and, if the
binding asks for data, reads the object by its name afterwards. In between other
clients may put it again, and the read then returns their bytes under the old
metadata. If at every read the version that was reported is still the latest of
its object, every event is that of one version, metadata and data alike.
-/

namespace TransportNats.Object

open Interleaving Program TransportNats.Stream

/-! ### The consumer -/

structure ObjectBinding where
  bucket : String
  pattern : Bytes
  includeData : Bool := false
  maxBytes : ℤ := defaultMaxBytes

def objectEventFromInfo (b : ObjectBinding) (info : ObjectInfo) : ObjectEvent where
  bucket := b.bucket
  name := info.name
  type := if info.deleted then .objectDelete else .objectPut
  size := info.size
  chunks := info.chunks
  timestamp := info.modTime

/-- The event of a version, with the data that a read by its name returns. -/
def loadEvent (b : ObjectBinding) (info : ObjectInfo) : Obj ObjectEvent := do
  if b.includeData ∧ (objectEventFromInfo b info).type = .objectPut then
    match ← readObjectBytes b.bucket info.name b.maxBytes with
    | .ok data => return { objectEventFromInfo b info with data := some data }
    | .error _ => return objectEventFromInfo b info
  else return objectEventFromInfo b info

/-- The first rounds of the loop, which ends when the channel is closed or the
context is done. -/
def consumeObjectEvents (b : ObjectBinding) (pattern : Bytes) : ℕ → Obj Unit
  | 0 => pure ()
  | rounds + 1 => do
      match ← request (.next b.bucket) with
      | none => return ()
      | some update =>
          match ← request .ctxErr with
          | some _ => return ()
          | none =>
              match update with
              | none => consumeObjectEvents b pattern rounds
              | some info =>
                  if objectNameMatches info.name pattern then
                    let ev ← loadEvent b info
                    let _ ← request (.execute ev)
                    consumeObjectEvents b pattern rounds
                  else consumeObjectEvents b pattern rounds

/-- As `mountObjectStore` starts it: no pattern stands for all names. -/
def watchObjectStore (b : ObjectBinding) (rounds : ℕ) : Obj Unit :=
  consumeObjectEvents b (if b.pattern = [] then tailToken else b.pattern) rounds

/-- What other clients do. -/
inductive ObjectEnv
  | put (bucket : String) (name data : Bytes) (stamp : Stamp)
  | delete (bucket : String) (name : Bytes) (modTime : ℤ)

def ObjectEnv.apply (s : ObjectState) : ObjectEnv → ObjectState
  | .put bucket name data stamp => s.put bucket name data stamp
  | .delete bucket name modTime => s.delete bucket name modTime

/-- Consumers of one binding, each for a number of rounds, and other clients that
put and delete objects. -/
@[reducible] def watching (b : ObjectBinding) : System where
  sig := objectSig
  State := ObjectState
  Call := ℕ
  Result := Unit
  Choice := ObjectChoice
  Env := ObjectEnv
  program := watchObjectStore b
  exec := exec
  enter _ s := some s
  env e s := e.apply s

/-! ### What the consumer does -/

/-- The metadata that the watcher has delivered last. -/
def reported : ObjectHist → Option ObjectInfo
  | [] => none
  | ⟨.next _, some (some info)⟩ :: _ => some info
  | _ :: h => reported h

/-- The event is that of the metadata delivered last, and its data, if it has any,
was read under that name since. -/
def EventOf (b : ObjectBinding) (h : ObjectHist) (ev : ObjectEvent) : Prop :=
  ∃ info, reported h = some info ∧
    (ev = objectEventFromInfo b info ∨
      ∃ content h', ⟨.get b.bucket info.name, .ok content⟩ :: h' <:+ h ∧
        reported h' = some info ∧
        ev = { objectEventFromInfo b info with data := some content })

def watchGuard (b : ObjectBinding) (h : ObjectHist) : ObjectOp → Prop
  | .next bucket => bucket = b.bucket
  | .execute ev => EventOf b h ev
  | _ => True

section
variable {b : ObjectBinding} {h : ObjectHist}

/-- The answer to a read is all of the object, or an error. -/
theorem guarded_readObjectBytes {name : Bytes} {info : ObjectInfo} (maxBytes : ℤ)
    (hinfo : reported h = some info) :
    Guarded (S := objectSig) (watchGuard b)
      (fun h' r => reported h' = some info ∧ ∀ data, r = .ok data →
        ∃ h'', ⟨.get b.bucket name, .ok data⟩ :: h'' <:+ h' ∧ reported h'' = some info)
      h (readObjectBytes b.bucket name maxBytes) := by
  unfold readObjectBytes request
  split
  · exact ⟨hinfo, by simp⟩
  · rw [guarded_perform_bind]
    refine ⟨trivial, fun r => ?_⟩
    cases r with
    | error err => exact ⟨hinfo, by simp⟩
    | ok content =>
        dsimp only
        rw [guarded_perform_bind]
        refine ⟨trivial, fun readErr => ?_⟩
        rw [guarded_perform_bind]
        refine ⟨trivial, fun closeErr => ?_⟩
        cases readErr with
        | some readErr => exact ⟨hinfo, by simp⟩
        | none =>
            cases closeErr with
            | some closeErr => exact ⟨hinfo, by simp⟩
            | none =>
                dsimp only
                split
                · exact ⟨hinfo, by simp⟩
                · rename_i hfits
                  refine ⟨hinfo, ?_⟩
                  rintro _ ⟨⟩
                  rw [take_readLimit hfits]
                  exact ⟨h, (List.suffix_cons _ _).trans (List.suffix_cons _ _), hinfo⟩

theorem guarded_loadEvent {info : ObjectInfo} (hinfo : reported h = some info) :
    Guarded (S := objectSig) (watchGuard b) (EventOf b) h (loadEvent b info) := by
  unfold loadEvent
  split
  · refine (guarded_readObjectBytes b.maxBytes hinfo).bind ?_
    rintro h' (err | data) ⟨hinfo', hdata⟩
    · exact ⟨info, hinfo', .inl rfl⟩
    · obtain ⟨h'', hsuf, hinfo''⟩ := hdata data rfl
      exact ⟨info, hinfo', .inr ⟨data, h'', hsuf, hinfo'', rfl⟩⟩
  · exact ⟨info, hinfo, .inl rfl⟩

theorem guarded_consumeObjectEvents (pattern : Bytes) (rounds : ℕ) :
    Guarded (S := objectSig) (watchGuard b) (fun _ _ => True) h
      (consumeObjectEvents b pattern rounds) := by
  induction rounds generalizing h with
  | zero => trivial
  | succ rounds ih =>
      unfold consumeObjectEvents request
      rw [guarded_perform_bind]
      refine ⟨rfl, fun r => ?_⟩
      cases r with
      | none => trivial
      | some update =>
          dsimp only
          rw [guarded_perform_bind]
          refine ⟨trivial, fun r => ?_⟩
          cases r with
          | some err => trivial
          | none =>
              cases update with
              | none => exact ih
              | some info =>
                  dsimp only
                  split
                  · refine (guarded_loadEvent rfl).bind fun h' ev hev => ?_
                    rw [guarded_perform_bind]
                    exact ⟨hev, fun _ => ih⟩
                  · exact ih

end

def watch (b : ObjectBinding) : Contract (watching b) where
  guard _ := watchGuard b
  post _ _ _ := True
  sound _ _ := True
  program _ := guarded_consumeObjectEvents _ _
  answer _ _ _ := trivial
  stable _ _ _ := trivial

/-! ### What the answers mean -/

/-- Versions stay where they are. -/
def Extends (s s' : ObjectState) : Prop :=
  ∀ (bucket : String) (i : ℕ) (v : Version), (s bucket).versions[i]? = some v →
    (s' bucket).versions[i]? = some v

theorem Extends.refl (s : ObjectState) : Extends s s := fun _ _ _ h => h

theorem extends_push (s : ObjectState) (bucket : String) (info : ObjectInfo) (data : Bytes) :
    Extends s (Function.update s bucket ((s bucket).push info data)) := by
  intro bucket' i v h
  by_cases hb : bucket' = bucket
  · subst hb
    rw [Function.update_self, Bucket.push]
    exact List.getElem?_append_left (List.getElem?_eq_some_iff.mp h).1 ▸ h
  · rwa [Function.update_of_ne hb]

theorem extends_receive (s : ObjectState) (bucket : String) (skip : ℕ) :
    Extends s (s.receive bucket skip).1 := by
  intro bucket' i v h
  unfold ObjectState.receive
  split
  · by_cases hb : bucket' = bucket
    · subst hb
      simpa using h
    · simpa [Function.update_of_ne hb] using h
  · exact h

theorem extends_exec (ch : ObjectChoice) (s : ObjectState) (o : ObjectOp) :
    Extends s (exec ch s o).1 := by
  cases o with
  | get bucket name =>
      simp only [exec]
      split <;> exact .refl s
  | putBytes bucket name data =>
      simp only [exec]
      split
      · exact .refl s
      · exact extends_push _ _ _ _
  | next bucket =>
      simp only [exec]
      split
      · exact .refl s
      · exact extends_receive _ _ _
  | _ => exact .refl s

theorem extends_moves {b : ObjectBinding} {w w' : World (watching b)} {a : Act (watching b)}
    (hm : w.Moves a w') : Extends w.state w'.state := by
  cases hm with
  | idle => exact .refl _
  | enter h =>
      cases h
      exact .refl _
  | perform => exact extends_exec _ _ _
  | env e =>
      cases e with
      | put => exact extends_push _ _ _ _
      | delete => exact extends_push _ _ _ _

/-- The latest version of an object stands at the place that its metadata names. -/
theorem getElem?_latest {b : Bucket} {name : Bytes} {v : Version} (h : b.latest name = some v) :
    b.versions[v.info.nuid]? = some v := by
  obtain ⟨i, hi⟩ := List.mem_iff_getElem?.mp (List.mem_reverse.mp (List.mem_of_find?_eq_some h))
  rwa [b.numbered hi]

/-- What an answer says about the versions: metadata is that of a version, and what
was read are the bytes of the version that was reported before. -/
def Fact (s : ObjectState) (h : ObjectHist) : Answered objectSig → Prop
  | ⟨.next bucket, some (some info)⟩ =>
      ∃ v, (s bucket).versions[info.nuid]? = some v ∧ v.info = info
  | ⟨.get bucket _, .ok content⟩ =>
      ∀ info, reported h = some info →
        ∃ v, (s bucket).versions[info.nuid]? = some v ∧ v.data = content
  | _ => True

theorem Fact.later {s s' : ObjectState} (hs : Extends s s') {h : ObjectHist}
    {x : Answered objectSig} (hx : Fact s h x) : Fact s' h x := by
  obtain ⟨o, r⟩ := x
  cases o with
  | next bucket =>
      rcases r with _ | _ | info
      · trivial
      · trivial
      · obtain ⟨v, hv, hinfo⟩ := hx
        exact ⟨v, hs _ _ _ hv, hinfo⟩
  | get bucket name =>
      cases r with
      | error err => trivial
      | ok content =>
          intro info hinfo
          obtain ⟨v, hv, hdata⟩ := hx info hinfo
          exact ⟨v, hs _ _ _ hv, hdata⟩
  | _ => trivial

/-- The version that is read is the one that was reported. -/
def Current (s : ObjectState) (h : ObjectHist) : ObjectOp → Prop
  | .get bucket name => ((s bucket).latest name).map (·.info.nuid) = (reported h).map (·.nuid)
  | _ => True

instance (s : ObjectState) (h : ObjectHist) : (o : ObjectOp) → Decidable (Current s h o)
  | .get _ _ => inferInstanceAs (Decidable (_ = _))
  | .ctxErr | .ensureConn | .ensureJetStream | .objectStore _ | .copyErr | .close
  | .putBytes _ _ _ | .next _ | .execute _ => inferInstanceAs (Decidable True)

theorem fact_receive (s : ObjectState) (bucket : String) (skip : ℕ) (h : ObjectHist) :
    Fact s h ⟨.next bucket, (s.receive bucket skip).2⟩ := by
  unfold ObjectState.receive
  split
  · rename_i v hv
    exact ⟨v, by rwa [(s bucket).numbered hv], rfl⟩
  · trivial

theorem fact_content {s : ObjectState} {bucket : String} {name : Bytes} {h : ObjectHist}
    (hcur : Current s h (.get bucket name)) :
    Fact s h ⟨.get bucket name, (s bucket).content name⟩ := by
  unfold Bucket.content
  split
  · trivial
  · rename_i v hv
    split
    · trivial
    · intro info hinfo
      simp only [Current, hv, hinfo, Option.map_some, Option.some.injEq] at hcur
      exact ⟨v, hcur ▸ getElem?_latest hv, rfl⟩

theorem fact_exec (ch : ObjectChoice) {s : ObjectState} {h : ObjectHist} {o : ObjectOp}
    (hcur : Current s h o) : Fact (exec ch s o).1 h ⟨o, (exec ch s o).2⟩ := by
  cases o with
  | get bucket name =>
      simp only [exec]
      split
      · trivial
      · exact fact_content hcur
  | next bucket =>
      simp only [exec]
      split
      · trivial
      · exact (fact_receive s bucket ch.skip h).later (extends_receive s bucket ch.skip)
  | _ => trivial

/-! ### Whole events -/

section
variable {b : ObjectBinding}

/-- The action performs no read, or one of the version that was reported. -/
def readsReported (w : World (watching b)) : Act (watching b) → Bool
  | .step t _ =>
      match w.threads[t]? with
      | some ⟨_, h, .call o _⟩ => Current w.state h o
      | _ => true
  | .spawn _ | .env _ => true

def ReadsReported (w : World (watching b)) (a : Act (watching b)) : Prop :=
  readsReported w a = true

instance (w : World (watching b)) (a : Act (watching b)) : Decidable (ReadsReported w a) :=
  inferInstanceAs (Decidable (_ = _))

/-- If the action dispatches an event with data, it is the event of the version
that the watcher has reported, with the data of that version. -/
def Intact (w : World (watching b)) (a : Act (watching b)) : Prop :=
  ∀ t ch c h ev k bytes, a = .step t ch → w.threads[t]? = some ⟨c, h, .call (.execute ev) k⟩ →
    ev.data = some bytes → ∃ v ∈ (w.state b.bucket).versions, reported h = some v.info ∧
      ev = { objectEventFromInfo b v.info with data := some v.data }

/-- Every thread's answers mean what they say. -/
structure Told (w : World (watching b)) : Prop where
  ok : (watch b).Ok w
  facts : ∀ (t : ℕ) (th : Thread (watching b)), w.threads[t]? = some th →
    ∀ {x h}, x :: h <:+ th.hist → Fact w.state h x

theorem told_moves {w w' : World (watching b)} {a : Act (watching b)} (hm : w.Moves a w')
    (hC : ReadsReported w a) (hw : Told w) : Told w' where
  ok := (watch b).ok_moves hm hw.ok
  facts := by
    have hext := extends_moves hm
    refine hm.forall_threads (P := fun s th => ∀ {x h}, x :: h <:+ th.hist → Fact s h x)
      hw.facts (fun th hth x h hx => (hth hx).later hext)
      (fun c x h hx => by simp [Thread.start] at hx) ?_
    rintro t ch c h o k rfl ht hs x h' hx
    rcases List.suffix_cons_iff.mp hx with heq | hx
    · cases heq
      simp only [ReadsReported, readsReported, ht, decide_eq_true_eq] at hC
      exact hs ▸ fact_exec ch hC
    · exact (hw.facts _ _ ht hx).later hext

theorem exists_next_of_reported {h : ObjectHist} {info : ObjectInfo}
    (hinfo : reported h = some info) :
    ∃ bucket h', ⟨.next bucket, some (some info)⟩ :: h' <:+ h := by
  fun_induction reported h with
  | case1 => cases hinfo
  | case2 bucket info' h =>
      cases hinfo
      exact ⟨bucket, h, List.suffix_refl _⟩
  | case3 x h _ ih =>
      obtain ⟨bucket, h', hsuf⟩ := ih hinfo
      exact ⟨bucket, h', hsuf.trans (List.suffix_cons _ _)⟩

theorem Told.intact {w : World (watching b)} {a : Act (watching b)} (hw : Told w) :
    Intact w a := by
  rintro t ch c h ev k bytes rfl ht hbytes
  obtain ⟨info, hinfo, rfl | ⟨content, h', hread, hinfo', rfl⟩⟩ := hw.ok.guard ht
  · cases hbytes
  · obtain ⟨bucket, h'', hnext⟩ := exists_next_of_reported hinfo
    obtain rfl : bucket = b.bucket := (hw.ok t _ ht).allowed hnext
    obtain ⟨v, hv, hvinfo⟩ := hw.facts _ _ ht hnext
    obtain ⟨v', hv', rfl⟩ := hw.facts _ _ ht hread info hinfo'
    obtain rfl := Option.some.inj (hv.symm.trans hv')
    exact ⟨v, List.mem_of_getElem? hv, hvinfo ▸ hinfo, by rw [hvinfo]⟩

/-- If every read finds the version that was reported still the latest of its
object, no event is torn. -/
theorem events_intact (s : ObjectState) (acts : List (Act (watching b)))
    (hread : World.Always ReadsReported (World.init (M := watching b) s) acts) :
    World.Always Intact (World.init (M := watching b) s) acts :=
  have hinit : Told (World.init (M := watching b) s) :=
    ⟨(watch b).ok_init s, fun t th ht => by simp [World.init] at ht⟩
  hread.imp told_moves (fun _ hw => hw.intact) hinit

end

/-! ### A put between the notice and the read -/

def sampleObject : ObjectBinding := { bucket := "B", pattern := [], includeData := true }

def noObjects : World (watching sampleObject) := World.init fun _ => .empty

/-- Another client puts the object `a`. -/
def putsObject (data : Bytes) : Act (watching sampleObject) := .env (.put "B" [97] data {})

/-- The consumer receives the metadata of the first version. -/
def noticeRun : List (Act (watching sampleObject)) :=
  [.spawn 1, putsObject [1], .step 0 {}, .step 0 {}]

/-- It reads the object, and its next step is to dispatch the event. -/
def readRun : List (Act (watching sampleObject)) := [.step 0 {}, .step 0 {}, .step 0 {}]

theorem events_intact_undisturbed :
    (noObjects.run (noticeRun ++ readRun)).performs? (.step 0 {}) =
      some (1, .execute ⟨"B", [97], .objectPut, 1, 0, 0, some [1]⟩) ∧
    World.Always ReadsReported noObjects (noticeRun ++ readRun ++ [.step 0 {}]) ∧
    World.Always Intact noObjects (noticeRun ++ readRun ++ [.step 0 {}]) :=
  have hread : World.Always ReadsReported noObjects (noticeRun ++ readRun ++ [.step 0 {}]) := by
    decide +kernel
  ⟨rfl, hread, events_intact _ _ hread⟩

/-- If two bytes are put in between, the event of the version of one byte carries
the two bytes. -/
theorem torn_event :
    (noObjects.run (noticeRun ++ putsObject [2, 2] :: readRun)).performs? (.step 0 {}) =
      some (1, .execute ⟨"B", [97], .objectPut, 1, 0, 0, some [2, 2]⟩) ∧
    ¬ World.Always Intact noObjects
      (noticeRun ++ putsObject [2, 2] :: readRun ++ [.step 0 {}]) := by
  have hdispatch : (noObjects.run (noticeRun ++ putsObject [2, 2] :: readRun)).performs?
      (.step 0 {}) = some (1, .execute ⟨"B", [97], .objectPut, 1, 0, 0, some [2, 2]⟩) := rfl
  refine ⟨hdispatch, fun hintact => ?_⟩
  obtain ⟨t, ch, h, k, hstep, ht⟩ := World.exists_of_performs? hdispatch
  obtain ⟨v, hv, -, hev⟩ := (World.always_append.mp hintact).2.1 t ch 1 h _ k _ hstep ht rfl
  have hnone : ∀ v ∈ ((noObjects.run (noticeRun ++ putsObject [2, 2] :: readRun)).state
      "B").versions, ¬ (v.info.size = 1 ∧ v.data = [2, 2]) := by decide +kernel
  simp only [ObjectEvent.mk.injEq, Option.some.injEq] at hev
  exact hnone v hv ⟨hev.2.2.2.1.symm, hev.2.2.2.2.2.2.symm⟩

end TransportNats.Object
