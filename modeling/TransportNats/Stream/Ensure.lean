import TransportNats.Stream.Subject
import TransportNats.Library.World

/-!
Provisioning a stream.

`ensureStream` reads the configuration of a stream, adds the subjects that no
configured subject covers, writes the whole configuration back and reads it
again to see the result. A mutex keeps the calls of one transport apart, but
nothing keeps a second process from writing between the read and the write, and
what it has added is then overwritten.
-/

namespace TransportNats.Stream

open Interleaving Program

/-! ### Configurations -/

inductive StorageType
  | fileStorage | memoryStorage
  deriving DecidableEq

inductive RetentionPolicy
  | limitsPolicy | interestPolicy | workQueuePolicy
  deriving DecidableEq

inductive DiscardPolicy
  | discardOld | discardNew
  deriving DecidableEq

/-- `nats.StreamConfig`, as far as `ensureStream` sets it. -/
structure StreamConfig where
  name : String
  subjects : List Bytes
  storage : StorageType := .fileStorage
  retention : RetentionPolicy := .limitsPolicy
  discard : DiscardPolicy := .discardOld
  /-- In nanoseconds: seven days. -/
  maxAge : ℤ := 7 * 24 * 3600 * 1000000000
  deriving DecidableEq

/-- What `WithStreamConfigModifier` was given. -/
abbrev Modifier := Option (StreamConfig → StreamConfig)

/-- The configuration with which a missing stream is created. -/
def newConfig (modifier : Modifier) (name : String) (subjects : List Bytes) : StreamConfig :=
  let cfg : StreamConfig := { name := name, subjects := subjects }
  match modifier with
  | some modify => modify cfg
  | none => cfg

/-- A subject is configured as it is, or covered by a configured one. -/
def found (configured : List Bytes) (subject : Bytes) : Bool :=
  configured.any fun c => c = subject || subjectPatternCovers c subject

/-- One round of the loop over the requested subjects; the flag is `updated`. -/
def addSubject (acc : List Bytes × Bool) (subject : Bytes) : List Bytes × Bool :=
  if found acc.1 subject then acc else (acc.1 ++ [subject], true)

def mergeSubjects (configured subjects : List Bytes) : List Bytes × Bool :=
  subjects.foldl addSubject (configured, false)

/-! ### The call -/

/-- What leaves the process, and the mutex `streamConfigMu` of a transport. -/
inductive StreamOp
  | lock (transport : ℕ)
  | unlock (transport : ℕ)
  | streamInfo (name : String)
  | addStream (cfg : StreamConfig)
  | updateStream (cfg : StreamConfig)

@[reducible] def StreamOp.Ret : StreamOp → Type
  | .lock _ | .unlock _ => Unit
  | .streamInfo _ => Except Err StreamConfig
  | .addStream _ | .updateStream _ => Option Err

abbrev streamSig : Signature := ⟨StreamOp, StreamOp.Ret⟩

abbrev Provision := Program streamSig

def lockStreamConfig (transport : ℕ) : Provision Unit := .perform (S := streamSig) (.lock transport)

def unlockStreamConfig (transport : ℕ) : Provision Unit :=
  .perform (S := streamSig) (.unlock transport)

def streamInfo (name : String) : Provision (Except Err StreamConfig) :=
  .perform (S := streamSig) (.streamInfo name)

def addStream (cfg : StreamConfig) : Provision (Option Err) :=
  .perform (S := streamSig) (.addStream cfg)

def updateStream (cfg : StreamConfig) : Provision (Option Err) :=
  .perform (S := streamSig) (.updateStream cfg)

/-- The loop of `ensureStream`. -/
def provision (modifier : Modifier) (name : String) (subjects : List Bytes) :
    ℕ → Provision (Option Err)
  | 0 => pure
      (some (.app .conflict "nats: stream configuration changed repeatedly during provisioning"))
  | rounds + 1 => do
      match ← streamInfo name with
      | .error err =>
          if err.is (.nats .errStreamNotFound) then
            match ← addStream (newConfig modifier name subjects) with
            | none => return none
            | some addErr =>
                if addErr.is (.nats .errStreamNameAlreadyInUse) then
                  provision modifier name subjects rounds
                else return some (mapError addErr)
          else return some (mapError err)
      | .ok config =>
          let merged := mergeSubjects config.subjects subjects
          if merged.2 then
            match ← updateStream { config with subjects := merged.1 } with
            | some updateErr => return some (mapError updateErr)
            | none => provision modifier name subjects rounds
          else return none

/-- The result is the returned error. -/
def ensureStream (transport : ℕ) (modifier : Modifier) (name : String) (subjects : List Bytes) :
    Provision (Option Err) := do
  if subjects = [] then return none
  else
    lockStreamConfig transport
    let err ← provision modifier name subjects 3
    unlockStreamConfig transport
    return err

/-! ### The server -/

/-- The streams of the server, each under its own name, and the transports whose
mutex is held. -/
structure Server where
  streams : String → Option StreamConfig
  named : ∀ {name cfg}, streams name = some cfg → cfg.name = name
  locked : List ℕ

/-- A request fails on the way, before or after the server has applied it, or
because the server refuses it. -/
inductive StreamFault
  | ok
  | dropped (err : Err)
  | lost (err : Err)

namespace Server

/-- The whole configuration of a stream is replaced. -/
def put (s : Server) (cfg : StreamConfig) : Server where
  streams := Function.update s.streams cfg.name (some cfg)
  named {name cfg'} h := by
    by_cases hn : name = cfg.name
    · subst hn
      rw [Function.update_self] at h
      rw [← Option.some.inj h]
    · rw [Function.update_of_ne hn] at h
      exact s.named h
  locked := s.locked

theorem streams_put_self (s : Server) (cfg : StreamConfig) :
    (s.put cfg).streams cfg.name = some cfg := Function.update_self ..

theorem streams_put_ne (s : Server) {cfg : StreamConfig} {name : String} (h : name ≠ cfg.name) :
    (s.put cfg).streams name = s.streams name := Function.update_of_ne h ..

/-- A request whose outcome without faults is `r`. -/
def request (s : Server) (fault : StreamFault) (r : Server × Option Err) : Server × Option Err :=
  match fault with
  | .ok => r
  | .dropped err => (s, some err)
  | .lost err => (r.1, some err)

/-- Creating a stream again with the configuration it has is no error. -/
def add (s : Server) (cfg : StreamConfig) : Server × Option Err :=
  match s.streams cfg.name with
  | none => (s.put cfg, none)
  | some cfg' =>
      if cfg' = cfg then (s, none)
      else (s, some (.sentinel (.nats .errStreamNameAlreadyInUse)))

def update (s : Server) (cfg : StreamConfig) : Server × Option Err :=
  match s.streams cfg.name with
  | none => (s, some (.sentinel (.nats .errStreamNotFound)))
  | some _ => (s.put cfg, none)

def info (s : Server) (fault : StreamFault) (name : String) : Except Err StreamConfig :=
  match fault with
  | .dropped err | .lost err => .error err
  | .ok =>
      match s.streams name with
      | some cfg => .ok cfg
      | none => .error (.sentinel (.nats .errStreamNotFound))

def op (fault : StreamFault) (s : Server) : (o : StreamOp) → Server × o.Ret
  | .lock transport => ({ s with locked := transport :: s.locked }, ())
  | .unlock transport => ({ s with locked := s.locked.erase transport }, ())
  | .streamInfo name => (s, s.info fault name)
  | .addStream cfg => s.request fault (s.add cfg)
  | .updateStream cfg => s.request fault (s.update cfg)

end Server

/-- A call of `ensureStream` by one of the transports. -/
structure EnsureCall where
  transport : ℕ
  name : String
  subjects : List Bytes

/-- Any number of transports, each with its own modifier, and any number of
calls of each. Nobody else writes configurations. -/
@[reducible] def provisioning (modifier : ℕ → Modifier) : System where
  sig := streamSig
  State := Server
  Call := EnsureCall
  Result := Option Err
  Choice := StreamFault
  Env := Empty
  program c := ensureStream c.transport (modifier c.transport) c.name c.subjects
  exec := Server.op
  enter _ s := some s
  env e _ := e.elim

/-! ### Merging -/

theorem subset_addSubject (acc : List Bytes × Bool) (subject : Bytes) :
    acc.1 ⊆ (addSubject acc subject).1 := by
  unfold addSubject
  split
  · exact List.Subset.refl _
  · exact List.subset_append_left _ _

/-- A set flag is never cleared. -/
theorem addSubject_updated {acc : List Bytes × Bool} {subject : Bytes}
    (h : (addSubject acc subject).2 = false) :
    addSubject acc subject = acc ∧ found acc.1 subject = true := by
  unfold addSubject at h ⊢
  split
  · exact ⟨rfl, ‹_›⟩
  · rename_i hno
    rw [if_neg hno] at h
    cases h

theorem subset_foldl_addSubject (subjects : List Bytes) (acc : List Bytes × Bool) :
    acc.1 ⊆ (subjects.foldl addSubject acc).1 := by
  induction subjects generalizing acc with
  | nil => exact List.Subset.refl _
  | cons subject subjects ih => exact List.Subset.trans (subset_addSubject acc subject) (ih _)

theorem subset_mergeSubjects (configured subjects : List Bytes) :
    configured ⊆ (mergeSubjects configured subjects).1 :=
  subset_foldl_addSubject subjects (configured, false)

theorem found_of_foldl {subjects : List Bytes} {acc : List Bytes × Bool}
    (h : (subjects.foldl addSubject acc).2 = false) :
    (subjects.foldl addSubject acc) = acc ∧ ∀ subject ∈ subjects, found acc.1 subject = true := by
  induction subjects generalizing acc with
  | nil => exact ⟨rfl, by simp⟩
  | cons subject subjects ih =>
      obtain ⟨heq, hfound⟩ := ih h
      rw [List.foldl_cons] at h ⊢
      rw [heq] at h ⊢
      obtain ⟨hacc, hsubject⟩ := addSubject_updated h
      rw [hacc] at hfound ⊢
      exact ⟨rfl, List.forall_mem_cons.mpr ⟨hsubject, hfound⟩⟩

/-- Nothing to update means that every subject was found. -/
theorem found_of_merged {configured subjects : List Bytes}
    (h : (mergeSubjects configured subjects).2 = false) :
    ∀ subject ∈ subjects, found configured subject = true :=
  (found_of_foldl h).2

theorem found_mono {configured configured' : List Bytes} (h : configured ⊆ configured')
    {subject : Bytes} (hf : found configured subject = true) :
    found configured' subject = true := by
  obtain ⟨c, hc, hsub⟩ := List.any_eq_true.mp hf
  exact List.any_eq_true.mpr ⟨c, h hc, hsub⟩

/-! ### What one call may do -/

abbrev StreamHist := History streamSig

section
variable {modifier : Modifier} {name : String} {subjects : List Bytes} {h : StreamHist}

/-- A call updates the configuration that it has just read, and only adds to its
subjects. -/
def ensureGuard (name : String) (h : StreamHist) : StreamOp → Prop
  | .updateStream cfg => ∃ read h', h = ⟨.streamInfo name, .ok read⟩ :: h' ∧
      cfg.name = read.name ∧ read.subjects ⊆ cfg.subjects
  | _ => True

/-- A call that returns no error has seen all its subjects configured, or has
created the stream. -/
def ensurePost (modifier : Modifier) (name : String) (subjects : List Bytes) (h : StreamHist)
    (err : Option Err) : Prop :=
  err = none → subjects = [] ∨
    (∃ read, ⟨.streamInfo name, .ok read⟩ ∈ h ∧
      ∀ subject ∈ subjects, found read.subjects subject = true) ∨
    ⟨.addStream (newConfig modifier name subjects), none⟩ ∈ h

theorem ensurePost.cons {err : Option Err} (hp : ensurePost modifier name subjects h err)
    (x : Answered streamSig) : ensurePost modifier name subjects (x :: h) err := by
  intro herr
  rcases hp herr with hp | ⟨read, hr, hf⟩ | hp
  · exact .inl hp
  · exact .inr (.inl ⟨read, List.mem_cons_of_mem _ hr, hf⟩)
  · exact .inr (.inr (List.mem_cons_of_mem _ hp))

theorem guarded_provision (rounds : ℕ) :
    Guarded (S := streamSig) (ensureGuard name) (ensurePost modifier name subjects) h
      (provision modifier name subjects rounds) := by
  induction rounds generalizing h with
  | zero => exact nofun
  | succ rounds ih =>
      unfold provision streamInfo addStream updateStream
      rw [guarded_perform_bind]
      refine ⟨trivial, fun r => ?_⟩
      cases r with
      | error err =>
          dsimp only
          split
          · rw [guarded_perform_bind]
            refine ⟨trivial, fun r => ?_⟩
            cases r with
            | none => exact fun _ => .inr (.inr List.mem_cons_self)
            | some addErr =>
                dsimp only
                split
                · exact ih
                · exact nofun
          · exact nofun
      | ok config =>
          dsimp only
          split
          · rw [guarded_perform_bind]
            refine ⟨⟨config, h, rfl, rfl, subset_mergeSubjects _ _⟩, fun r => ?_⟩
            cases r with
            | some updateErr => exact nofun
            | none => exact ih
          · rename_i hupdated
            have hmerged := found_of_merged (Bool.eq_false_of_not_eq_true hupdated)
            exact fun _ => .inr (.inl ⟨config, List.mem_cons_self, hmerged⟩)

theorem guarded_ensureStream (transport : ℕ) :
    Guarded (S := streamSig) (ensureGuard name) (ensurePost modifier name subjects) h
      (ensureStream transport modifier name subjects) := by
  unfold ensureStream lockStreamConfig unlockStreamConfig
  split
  · exact fun _ => .inl ‹_›
  · rw [guarded_perform_bind]
    refine ⟨trivial, fun _ => (guarded_provision 3).bind fun h' err hp => ?_⟩
    exact ⟨trivial, fun _ => hp.cons _⟩

end

/-- Every call keeps its guard, in every run. -/
def ensuring (modifier : ℕ → Modifier) : Contract (provisioning modifier) where
  guard c := ensureGuard c.name
  post c := ensurePost (modifier c.transport) c.name c.subjects
  sound _ _ := True
  program _ := guarded_ensureStream _
  answer _ _ _ := trivial
  stable _ _ _ := trivial

/-! ### Subjects are kept -/

/-- The subject is configured for the stream, or covered by one that is, as `ensureStream`
sees it: to `subjectPatternCovers` a `*` covers also a `>` at the end, which matches more. -/
def Captured (s : Server) (name : String) (subject : Bytes) : Prop :=
  ∃ cfg, s.streams name = some cfg ∧ found cfg.subjects subject = true

section
variable {modifier : ℕ → Modifier}

/-- Every subject of a call that has returned nil is captured. -/
def SubjectsKept (w : World (provisioning modifier)) : Prop :=
  ∀ (t : ℕ) (th : Thread (provisioning modifier)), w.threads[t]? = some th →
    th.rest.result? = some none → ∀ subject ∈ th.call.subjects,
      Captured w.state th.call.name subject

/-- The action overwrites a configuration that is not the one its call has read. A request
that does not reach the server overwrites nothing. -/
def overwrites (w : World (provisioning modifier)) : Act (provisioning modifier) → Bool
  | .step _ (.dropped _) => false
  | .step t _ =>
      match w.threads[t]? with
      | some ⟨_, ⟨.streamInfo name, .ok read⟩ :: _, .call (.updateStream _) _⟩ =>
          w.state.streams name ≠ some read
      | _ => false
  | .spawn _ | .env _ => false

/-- A configuration is updated only as it was read. -/
def UpdatesAsRead (w : World (provisioning modifier)) (a : Act (provisioning modifier)) : Prop :=
  overwrites w a = false

instance (w : World (provisioning modifier)) (a : Act (provisioning modifier)) :
    Decidable (UpdatesAsRead w a) := inferInstanceAs (Decidable (_ = _))

/-- A modifier that leaves the name of a stream alone and its subjects captured. -/
def Faithful (modifier : Modifier) : Prop :=
  ∀ name subjects, (newConfig modifier name subjects).name = name ∧
    ∀ subject ∈ subjects, found (newConfig modifier name subjects).subjects subject = true

/-- Streams stay, and their subjects only become more. -/
def Server.Grows (s s' : Server) : Prop :=
  ∀ name cfg, s.streams name = some cfg →
    ∃ cfg', s'.streams name = some cfg' ∧ cfg.subjects ⊆ cfg'.subjects

theorem Server.Grows.of_eq {s s' : Server} (h : s'.streams = s.streams) : s.Grows s' := by
  intro name cfg hcfg
  exact ⟨cfg, by rw [h, hcfg], List.Subset.refl _⟩

theorem Server.grows_put {s : Server} {cfg : StreamConfig}
    (h : ∀ old, s.streams cfg.name = some old → old.subjects ⊆ cfg.subjects) :
    s.Grows (s.put cfg) := by
  intro name old hold
  by_cases hn : name = cfg.name
  · subst hn
    exact ⟨cfg, Server.streams_put_self s cfg, h old hold⟩
  · exact ⟨old, by rw [Server.streams_put_ne s hn, hold], List.Subset.refl _⟩

theorem Server.grows_add (s : Server) (cfg : StreamConfig) : s.Grows (s.add cfg).1 := by
  unfold Server.add
  split
  · rename_i hnone
    exact Server.grows_put fun old hold => by cases hnone.symm.trans hold
  · split <;> exact .of_eq rfl

theorem Server.grows_update {s : Server} {cfg : StreamConfig}
    (h : ∀ old, s.streams cfg.name = some old → old.subjects ⊆ cfg.subjects) :
    s.Grows (s.update cfg).1 := by
  unfold Server.update
  split
  · exact .of_eq rfl
  · exact Server.grows_put h

theorem Server.grows_request {s : Server} {r : Server × Option Err} (fault : StreamFault)
    (h : s.Grows r.1) : s.Grows (s.request fault r).1 := by
  cases fault with
  | ok | lost => exact h
  | dropped => exact .of_eq rfl

/-- What an answer of the server says about the streams from then on. -/
structure Means (s : Server) (x : Answered streamSig) : Prop where
  read : ∀ {name cfg}, x = ⟨.streamInfo name, .ok cfg⟩ →
    ∃ cfg', s.streams name = some cfg' ∧ cfg.subjects ⊆ cfg'.subjects
  added : ∀ {cfg}, x = ⟨.addStream cfg, none⟩ →
    ∃ cfg', s.streams cfg.name = some cfg' ∧ cfg.subjects ⊆ cfg'.subjects

theorem Means.later {s s' : Server} {x : Answered streamSig} (hx : Means s x)
    (h : s.Grows s') : Means s' x where
  read hread := by
    obtain ⟨cfg₁, h₁, hsub₁⟩ := hx.read hread
    obtain ⟨cfg₂, h₂, hsub₂⟩ := h _ _ h₁
    exact ⟨cfg₂, h₂, List.Subset.trans hsub₁ hsub₂⟩
  added hadded := by
    obtain ⟨cfg₁, h₁, hsub₁⟩ := hx.added hadded
    obtain ⟨cfg₂, h₂, hsub₂⟩ := h _ _ h₁
    exact ⟨cfg₂, h₂, List.Subset.trans hsub₁ hsub₂⟩

theorem streams_of_info {s : Server} {fault : StreamFault} {name : String} {cfg : StreamConfig}
    (h : s.info fault name = .ok cfg) : s.streams name = some cfg := by
  unfold Server.info at h
  split at h
  · cases h
  · cases h
  · split at h
    · rename_i hs
      rw [hs, Except.ok.inj h]
    · cases h

theorem streams_of_add {s : Server} {fault : StreamFault} {cfg : StreamConfig}
    (h : (s.request fault (s.add cfg)).2 = none) :
    (s.request fault (s.add cfg)).1.streams cfg.name = some cfg := by
  cases fault with
  | dropped | lost => cases h
  | ok =>
      simp only [Server.request, Server.add] at h ⊢
      split at h
      · exact Server.streams_put_self s cfg
      · rename_i cfg' hs
        split at h
        · rename_i heq
          rw [if_pos heq, hs, heq]
        · cases h

theorem means_op (fault : StreamFault) (s : Server) (o : StreamOp) :
    Means (s.op fault o).1 ⟨o, (s.op fault o).2⟩ where
  read {name cfg} h := by
    cases o with
    | streamInfo name' =>
        obtain ⟨hn, hr⟩ := Answered.mk.inj h
        cases hn
        exact ⟨cfg, streams_of_info (eq_of_heq hr), List.Subset.refl _⟩
    | _ => cases congrArg Answered.op h
  added {cfg} h := by
    cases o with
    | addStream cfg' =>
        obtain ⟨hn, hr⟩ := Answered.mk.inj h
        cases hn
        exact ⟨cfg, streams_of_add (eq_of_heq hr), List.Subset.refl _⟩
    | _ => cases congrArg Answered.op h

/-- An action that overwrites nothing unread loses no subject. -/
theorem moves_grows {w w' : World (provisioning modifier)} {a : Act (provisioning modifier)}
    (hm : w.Moves a w') (hC : UpdatesAsRead w a) (hw : (ensuring modifier).Ok w) :
    w.state.Grows w'.state := by
  cases hm with
  | idle => exact .of_eq rfl
  | enter h =>
      cases h
      exact .of_eq rfl
  | @perform t fault c h o k ht =>
      cases o with
      | lock | unlock | streamInfo => exact .of_eq rfl
      | addStream cfg => exact Server.grows_request fault (Server.grows_add _ _)
      | updateStream cfg =>
          obtain ⟨read, h', rfl, hname, hsub⟩ := hw.guard ht
          cases fault with
          | dropped => exact .of_eq rfl
          | ok | lost =>
              simp only [UpdatesAsRead, overwrites, ht, decide_eq_false_iff_not, not_not] at hC
              have hread : w.state.streams cfg.name = some read := by
                rw [hname, w.state.named hC, hC]
              refine Server.grows_request _ (Server.grows_update fun old hold => ?_)
              obtain rfl := Option.some.inj (hread.symm.trans hold)
              exact hsub
  | env e => exact e.elim

/-- Every thread's answers mean what they say, and so what it has returned. -/
structure Kept (w : World (provisioning modifier)) : Prop where
  ok : (ensuring modifier).Ok w
  means : ∀ (t : ℕ) (th : Thread (provisioning modifier)), w.threads[t]? = some th →
    ∀ x ∈ th.hist, Means w.state x

theorem kept_moves {w w' : World (provisioning modifier)} {a : Act (provisioning modifier)}
    (hm : w.Moves a w') (hC : UpdatesAsRead w a) (hw : Kept w) : Kept w' where
  ok := (ensuring modifier).ok_moves hm hw.ok
  means := by
    have hgrows := moves_grows hm hC hw.ok
    refine hm.forall_threads (P := fun s th => ∀ x ∈ th.hist, Means s x) hw.means
      (fun th hth x hx => (hth x hx).later hgrows) (fun c x hx => by cases hx) ?_
    intro t fault c h o k _ ht hs x hx
    rcases List.mem_cons.mp hx with rfl | hx
    · exact hs ▸ means_op fault w.state o
    · exact (hw.means _ _ ht x hx).later hgrows

theorem Kept.subjectsKept (hmod : ∀ i, Faithful (modifier i))
    {w : World (provisioning modifier)} (hw : Kept w) : SubjectsKept w := by
  intro t th ht hres subject hsubject
  rcases hw.ok.post ht hres rfl with hnil | ⟨read, hread, hfound⟩ | hadd
  · rw [hnil] at hsubject
    cases hsubject
  · obtain ⟨cfg, hcfg, hsub⟩ := (hw.means t th ht _ hread).read rfl
    exact ⟨cfg, hcfg, found_mono hsub (hfound subject hsubject)⟩
  · obtain ⟨hname, hfound⟩ := hmod th.call.transport th.call.name th.call.subjects
    obtain ⟨cfg, hcfg, hsub⟩ := (hw.means t th ht _ hadd).added rfl
    rw [hname] at hcfg
    exact ⟨cfg, hcfg, found_mono hsub (hfound subject hsubject)⟩

/-- If modifiers keep what is requested, and no call updates a configuration
other than the one it has read, then in every state every subject of every call
that has returned nil is captured. -/
theorem subjects_kept (modifier : ℕ → Modifier) (hmod : ∀ i, Faithful (modifier i)) (s : Server)
    (acts : List (Act (provisioning modifier)))
    (hread : World.Always UpdatesAsRead (World.init (M := provisioning modifier) s) acts) :
    SubjectsKept ((World.init (M := provisioning modifier) s).run acts) :=
  have hinit : Kept (World.init (M := provisioning modifier) s) :=
    ⟨(ensuring modifier).ok_init s, fun t th ht => by simp [World.init] at ht⟩
  (World.run_invariant_of_always kept_moves hinit hread).subjectsKept hmod

end

/-! ### Two processes -/

theorem faithful_none : Faithful none := by
  intro name subjects
  refine ⟨rfl, fun subject hsubject => ?_⟩
  exact List.any_eq_true.mpr ⟨subject, hsubject, by simp⟩

/-- A server without streams. -/
def Server.empty : Server := ⟨fun _ => none, by simp, []⟩

/-- Transports without a modifier. -/
@[reducible] def plain : ℕ → Modifier := fun _ => none

/-- One process asks for the subject `a`, another one for `b`. -/
def firstCall : EnsureCall := ⟨0, "S", [[97]]⟩

def secondCall : EnsureCall := ⟨1, "S", [[98]]⟩

/-- Both find the stream missing; the first one creates it, and the second one
goes round again and updates it. -/
def mergedRun : List (Act (provisioning plain)) :=
  [.spawn firstCall, .spawn secondCall, .step 0 .ok, .step 1 .ok, .step 0 .ok, .step 1 .ok,
    .step 0 .ok, .step 0 .ok, .step 1 .ok, .step 1 .ok, .step 1 .ok, .step 1 .ok, .step 1 .ok]

theorem subjects_kept_merged :
    World.Always UpdatesAsRead (World.init (M := provisioning plain) .empty) mergedRun ∧
      ((World.init (M := provisioning plain) .empty).run mergedRun).threads.map
        (·.rest.result?) = [some none, some none] ∧
      (((World.init (M := provisioning plain) .empty).run mergedRun).state.streams "S").map
        (·.subjects) = some [[97], [98]] ∧
      SubjectsKept ((World.init (M := provisioning plain) .empty).run mergedRun) :=
  have hread : World.Always UpdatesAsRead (World.init (M := provisioning plain) .empty)
      mergedRun := by decide +kernel
  ⟨hread, by decide +kernel, by decide +kernel,
    subjects_kept plain (fun _ => faithful_none) .empty mergedRun hread⟩

/-- The action takes a mutex that is held. -/
def breaksMutex (w : World (provisioning plain)) (a : Act (provisioning plain)) : Bool :=
  match w.performs? a with
  | some (_, .lock transport) => w.state.locked.contains transport
  | _ => false

/-- A stream with the subject `x`. -/
def sampleServer : Server := Server.empty.put { name := "S", subjects := [[120]] }

/-- Both read the configuration; the first one updates it, reads it again and
returns nil, and then the second one sends its update. -/
def overwrittenRun : List (Act (provisioning plain)) :=
  [.spawn firstCall, .spawn secondCall, .step 0 .ok, .step 1 .ok, .step 0 .ok, .step 1 .ok,
    .step 0 .ok, .step 0 .ok, .step 0 .ok, .step 1 .ok]

/-- No mutex is broken, the first call has returned nil for `a`, and the stream
is left with `x` and `b`. -/
theorem subject_overwritten :
    World.Always (fun w a => breaksMutex w a = false)
        (World.init (M := provisioning plain) sampleServer) overwrittenRun ∧
      (((World.init (M := provisioning plain) sampleServer).run overwrittenRun).threads[0]?.map
        fun th => (th.call.subjects, th.rest.result?)) = some ([[97]], some none) ∧
      (((World.init (M := provisioning plain) sampleServer).run overwrittenRun).state.streams
        "S").map (·.subjects) = some [[120], [98]] ∧
      found [[120], [98]] [97] = false ∧
      ¬ SubjectsKept ((World.init (M := provisioning plain) sampleServer).run overwrittenRun) := by
  have hcfg : (((World.init (M := provisioning plain) sampleServer).run
      overwrittenRun).state.streams "S").map (·.subjects) = some [[120], [98]] := by
    decide +kernel
  refine ⟨by decide +kernel, by decide +kernel, hcfg, by decide, fun hkept => ?_⟩
  obtain ⟨cfg, hs, hf⟩ := hkept 0 _ rfl rfl [97] List.mem_cons_self
  rw [show cfg.subjects = [[120], [98]] by
    have := congrArg (Option.map StreamConfig.subjects) hs
    exact Option.some.inj (this.symm.trans hcfg)] at hf
  revert hf
  decide

end TransportNats.Stream
