import TransportNats.Stream.Ensure

/-!
One transport provisions one stream.

`streamConfigMu` puts the calls of `ensureStream` by one transport one after the
other. If nobody else writes the configuration and the server takes what it is
sent, a call reads, writes at most once and reads again to find everything in
place; the limit of three rounds is never what ends it. A stream that is missing
is created with the requested subjects as they are. To an existing one only those
are added that nothing before them covers, which `additions` lists.
-/

namespace TransportNats.Stream

open Interleaving Program

/-! ### What is added -/

/-- The requested subjects that are not found among the configured ones and
those added before. -/
def additions (configured : List Bytes) : List Bytes → List Bytes
  | [] => []
  | subject :: subjects =>
      if found configured subject then additions configured subjects
      else subject :: additions (configured ++ [subject]) subjects

theorem foldl_addSubject (subjects configured : List Bytes) (updated : Bool) :
    subjects.foldl addSubject (configured, updated) =
      (configured ++ additions configured subjects,
        updated || !(additions configured subjects).isEmpty) := by
  induction subjects generalizing configured updated with
  | nil => simp [additions]
  | cons subject subjects ih =>
      rw [List.foldl_cons, addSubject]
      cases hfound : found configured subject with
      | true => simp [additions, hfound, ih]
      | false => simp [additions, hfound, ih]

theorem mergeSubjects_eq (configured subjects : List Bytes) :
    mergeSubjects configured subjects = (configured ++ additions configured subjects,
      !(additions configured subjects).isEmpty) :=
  foldl_addSubject subjects configured false

/-- What is added was requested, and nothing before it covers it. -/
theorem additions_new {configured subjects pre post : List Bytes} {subject : Bytes}
    (h : additions configured subjects = pre ++ subject :: post) :
    subject ∈ subjects ∧ found (configured ++ pre) subject = false := by
  induction subjects generalizing configured pre with
  | nil => simp [additions] at h
  | cons first subjects ih =>
      rw [additions] at h
      split at h
      · exact ⟨List.mem_cons_of_mem _ (ih h).1, (ih h).2⟩
      · rename_i hfound
        cases pre with
        | nil =>
            obtain ⟨rfl, -⟩ := List.cons.inj h
            exact ⟨List.mem_cons_self, by simpa using hfound⟩
        | cons p pre =>
            obtain ⟨rfl, hrest⟩ := List.cons.inj h
            obtain ⟨hmem, hnew⟩ := ih hrest
            rw [List.append_assoc] at hnew
            exact ⟨List.mem_cons_of_mem _ hmem, hnew⟩

theorem found_self {configured : List Bytes} {subject : Bytes} (h : subject ∈ configured) :
    found configured subject = true :=
  List.any_eq_true.mpr ⟨subject, h, by simp⟩

/-- With the additions every requested subject is found. -/
theorem found_additions {configured subjects : List Bytes} {subject : Bytes}
    (h : subject ∈ subjects) :
    found (configured ++ additions configured subjects) subject = true := by
  induction subjects generalizing configured with
  | nil => cases h
  | cons first subjects ih =>
      rw [additions]
      rcases List.mem_cons.mp h with rfl | h
      · split
        · rename_i hfound
          exact found_mono (List.subset_append_left _ _) hfound
        · exact found_self (by simp)
      · split
        · exact ih h
        · rw [List.append_cons]
          exact ih h

theorem additions_eq_nil {configured subjects : List Bytes}
    (h : ∀ subject ∈ subjects, found configured subject = true) :
    additions configured subjects = [] := by
  induction subjects with
  | nil => rfl
  | cons first subjects ih =>
      rw [additions, if_pos (h first List.mem_cons_self)]
      exact ih fun subject hsubject => h subject (List.mem_cons_of_mem _ hsubject)

/-- The configuration with the additions. -/
def StreamConfig.extended (cfg : StreamConfig) (subjects : List Bytes) : StreamConfig :=
  { cfg with subjects := cfg.subjects ++ additions cfg.subjects subjects }

/-! ### A transport on its own -/

/-- The server, the configurations written to it, the latest first, and the
number of times that it was asked for one. -/
structure Session where
  server : Server
  writes : List StreamConfig
  asked : ℕ

/-- The server takes what it is sent, and reports what was last written, unless
the request for it fails with the error that `down` gives. -/
def serve (down : ℕ → Option Err) (s : Session) : (o : StreamOp) → Session × o.Ret
  | .lock transport => ({ s with server := (s.server.op .ok (.lock transport)).1 }, ())
  | .unlock transport => ({ s with server := (s.server.op .ok (.unlock transport)).1 }, ())
  | .streamInfo name =>
      ({ s with asked := s.asked + 1 },
        match down s.asked with
        | some err => .error err
        | none => s.server.info .ok name)
  | .addStream cfg =>
      ({ s with server := (s.server.add cfg).1, writes := cfg :: s.writes }, (s.server.add cfg).2)
  | .updateStream cfg =>
      ({ s with server := (s.server.update cfg).1, writes := cfg :: s.writes },
        (s.server.update cfg).2)

/-- A call of `ensureStream` with nobody else at work. -/
def ensure (modifier : Modifier) (down : ℕ → Option Err) (transport : ℕ) (name : String)
    (s : Session) (subjects : List Bytes) : Session × Option Err :=
  (ensureStream transport modifier name subjects).alone (serve down) s

/-- No request fails. -/
def up : ℕ → Option Err := fun _ => none

/-- Calls by a transport without a modifier, one after the other, of which no
request fails. -/
def ensureAll (transport : ℕ) (name : String) (s : Session) (calls : List (List Bytes)) :
    Session :=
  calls.foldl (fun s subjects => (ensure none up transport name s subjects).1) s

section
variable {transport : ℕ} {name : String} {subjects : List Bytes} {s : Session}

theorem info_of_streams {server : Server} {cfg : StreamConfig}
    (h : server.streams name = some cfg) : server.info .ok name = .ok cfg := by
  simp only [Server.info, h]

theorem info_of_missing {server : Server} (h : server.streams name = none) :
    server.info .ok name = .error (.sentinel (.nats .errStreamNotFound)) := by
  simp only [Server.info, h]

/-- A round that finds everything in place. -/
theorem alone_provision_settled {cfg : StreamConfig} (hcfg : s.server.streams name = some cfg)
    (hfound : ∀ subject ∈ subjects, found cfg.subjects subject = true) (rounds : ℕ) :
    (provision none name subjects (rounds + 1)).alone (serve up) s =
      ({ s with asked := s.asked + 1 }, none) := by
  unfold provision streamInfo
  rw [alone_perform_bind]
  simp only [serve, up, info_of_streams hcfg, mergeSubjects_eq, additions_eq_nil hfound]
  rfl

/-- A round that creates the stream. -/
theorem alone_provision_missing (hnone : s.server.streams name = none) (rounds : ℕ) :
    (provision none name subjects (rounds + 1)).alone (serve up) s =
      (⟨s.server.put (newConfig none name subjects), newConfig none name subjects :: s.writes,
        s.asked + 1⟩, none) := by
  unfold provision streamInfo addStream
  rw [alone_perform_bind]
  have hadd : s.server.add (newConfig none name subjects) =
      (s.server.put (newConfig none name subjects), none) := by
    simp only [Server.add, show (newConfig none name subjects).name = name from rfl, hnone]
  simp only [serve, up, info_of_missing hnone]
  rw [if_pos (by decide), alone_perform_bind]
  simp only [serve, hadd]
  rfl

/-- A round that adds subjects, and the one that finds them in place. -/
theorem alone_provision_extend {cfg : StreamConfig} (hcfg : s.server.streams name = some cfg)
    (hnew : additions cfg.subjects subjects ≠ []) (rounds : ℕ) :
    (provision none name subjects (rounds + 2)).alone (serve up) s =
      (⟨s.server.put (cfg.extended subjects), cfg.extended subjects :: s.writes, s.asked + 2⟩,
        none) := by
  have hname : (cfg.extended subjects).name = name := (s.server.named hcfg : cfg.name = name)
  have hupdate : s.server.update (cfg.extended subjects) =
      (s.server.put (cfg.extended subjects), none) := by
    simp only [Server.update, hname, hcfg]
  have hstreams : (s.server.put (cfg.extended subjects)).streams name =
      some (cfg.extended subjects) := hname ▸ Server.streams_put_self _ _
  rw [provision]
  unfold streamInfo updateStream
  rw [alone_perform_bind]
  simp only [serve, up, info_of_streams hcfg]
  rw [mergeSubjects_eq, if_pos (by simpa using hnew), alone_perform_bind]
  simp only [serve, StreamConfig.extended] at hupdate ⊢
  simp only [hupdate]
  exact alone_provision_settled hstreams (fun subject hsubject => found_additions hsubject) rounds

/-- Everything that an undisturbed call can do. -/
inductive Ensured (name : String) (subjects : List Bytes) (s s' : Session) : Prop
  | settled (captured : ∀ subject ∈ subjects, Captured s.server name subject)
      (server : s'.server = s.server) (writes : s'.writes = s.writes)
  | created (requested : subjects ≠ []) (missing : s.server.streams name = none)
      (server : s'.server = s.server.put (newConfig none name subjects))
      (writes : s'.writes = newConfig none name subjects :: s.writes)
  | extended {cfg : StreamConfig} (configured : s.server.streams name = some cfg)
      (new : additions cfg.subjects subjects ≠ [])
      (server : s'.server = s.server.put (cfg.extended subjects))
      (writes : s'.writes = cfg.extended subjects :: s.writes)

theorem provision_ensured (name : String) (s : Session) (hne : subjects ≠ []) (rounds : ℕ) :
    ((provision none name subjects (rounds + 2)).alone (serve up) s).2 = none ∧
      Ensured name subjects s
        ((provision none name subjects (rounds + 2)).alone (serve up) s).1 := by
  cases hcfg : s.server.streams name with
  | none =>
      rw [alone_provision_missing hcfg]
      exact ⟨rfl, .created hne hcfg rfl rfl⟩
  | some cfg =>
      by_cases hnew : additions cfg.subjects subjects = []
      · have hfound : ∀ subject ∈ subjects, found cfg.subjects subject = true := by
          intro subject hsubject
          have h : found (cfg.subjects ++ additions cfg.subjects subjects) subject = true :=
            found_additions hsubject
          rwa [hnew, List.append_nil] at h
        rw [alone_provision_settled hcfg hfound]
        exact ⟨rfl, .settled (fun subject h => ⟨cfg, hcfg, hfound subject h⟩) rfl rfl⟩
      · rw [alone_provision_extend hcfg hnew]
        exact ⟨rfl, .extended hcfg hnew rfl rfl⟩

/-- The mutex is taken before the loop and given back behind it. -/
theorem ensure_eq {modifier : Modifier} {down : ℕ → Option Err} (hne : subjects ≠ []) :
    ensure modifier down transport name s subjects =
      ((serve down ((provision modifier name subjects 3).alone (serve down)
          (serve down s (.lock transport)).1).1 (.unlock transport)).1,
        ((provision modifier name subjects 3).alone (serve down)
          (serve down s (.lock transport)).1).2) := by
  unfold ensure ensureStream lockStreamConfig unlockStreamConfig
  rw [if_neg hne, alone_perform_bind, alone_bind]
  rfl

theorem Ensured.unlock {s' : Session}
    (h : Ensured name subjects (serve up s (.lock transport)).1 s') :
    Ensured name subjects s (serve up s' (.unlock transport)).1 := by
  cases h with
  | settled captured server writes =>
      refine .settled captured ?_ writes
      simp [serve, Server.op, server]
  | created requested missing server writes =>
      refine .created requested missing ?_ writes
      simp [serve, Server.op, server, Server.put]
  | extended hcfg new server writes =>
      refine .extended hcfg new ?_ writes
      simp [serve, Server.op, server, Server.put]

theorem ensure_ensured (transport : ℕ) (name : String) (s : Session) (subjects : List Bytes) :
    (ensure none up transport name s subjects).2 = none ∧
      Ensured name subjects s (ensure none up transport name s subjects).1 := by
  by_cases hnil : subjects = []
  · unfold ensure ensureStream
    rw [if_pos hnil]
    exact ⟨rfl, .settled (by simp [hnil]) rfl rfl⟩
  · obtain ⟨herr, hensured⟩ :=
      provision_ensured name (serve up s (.lock transport)).1 hnil 1
    rw [ensure_eq hnil]
    exact ⟨herr, hensured.unlock⟩

/-! ### Whole sequences of calls -/

theorem Captured.later {server server' : Server} {subject : Bytes}
    (h : Captured server name subject) (hgrows : server.Grows server') :
    Captured server' name subject := by
  obtain ⟨cfg, hcfg, hfound⟩ := h
  obtain ⟨cfg', hcfg', hsub⟩ := hgrows name cfg hcfg
  exact ⟨cfg', hcfg', found_mono hsub hfound⟩

section
variable {s' : Session}

theorem streams_put_extended {server : Server} {cfg : StreamConfig}
    (hcfg : server.streams name = some cfg) :
    (server.put (cfg.extended subjects)).streams name = some (cfg.extended subjects) := by
  have hname : (cfg.extended subjects).name = name := (server.named hcfg : cfg.name = name)
  exact hname ▸ Server.streams_put_self _ _

theorem Ensured.grows (h : Ensured name subjects s s') : s.server.Grows s'.server := by
  cases h with
  | settled _ server => exact .of_eq (by rw [server])
  | created _ missing server =>
      rw [server]
      exact Server.grows_put fun old hold => by cases missing.symm.trans hold
  | @extended cfg hcfg _ server =>
      have hname : (cfg.extended subjects).name = name := (s.server.named hcfg : cfg.name = name)
      rw [server]
      refine Server.grows_put fun old hold => ?_
      rw [hname, hcfg] at hold
      cases hold
      exact List.subset_append_left _ _

theorem Ensured.captured (h : Ensured name subjects s s') :
    ∀ subject ∈ subjects, Captured s'.server name subject := by
  intro subject hsubject
  cases h with
  | settled captured server => exact server ▸ captured subject hsubject
  | created _ _ server =>
      rw [server]
      exact ⟨newConfig none name subjects, Server.streams_put_self _ (newConfig none name subjects),
        found_self hsubject⟩
  | @extended cfg hcfg _ server =>
      rw [server]
      exact ⟨cfg.extended subjects, streams_put_extended hcfg, found_additions hsubject⟩

/-- The configuration of a stream that is there gets the additions and is else
as it was. -/
theorem Ensured.streams (h : Ensured name subjects s s') {old : StreamConfig}
    (hold : s.server.streams name = some old) :
    s'.server.streams name = some (old.extended subjects) := by
  cases h with
  | settled captured server =>
      have hfound : ∀ subject ∈ subjects, found old.subjects subject = true := by
        intro subject hsubject
        obtain ⟨cfg, hcfg, hfound⟩ := captured subject hsubject
        cases hold.symm.trans hcfg
        exact hfound
      rw [server, hold, StreamConfig.extended, additions_eq_nil hfound, List.append_nil]
  | created _ missing => cases missing.symm.trans hold
  | extended hcfg _ server =>
      cases hold.symm.trans hcfg
      rw [server, streams_put_extended hold]

end

/-- A call whose subjects are captured writes nothing. -/
theorem Ensured.unchanged {s' : Session} (h : Ensured name subjects s s')
    (hcaptured : ∀ subject ∈ subjects, Captured s.server name subject) :
    s'.server = s.server ∧ s'.writes = s.writes := by
  cases h with
  | settled _ server writes => exact ⟨server, writes⟩
  | created requested missing =>
      obtain ⟨subject, hsubject⟩ := List.exists_mem_of_ne_nil subjects requested
      obtain ⟨cfg, hcfg, -⟩ := hcaptured subject hsubject
      cases missing.symm.trans hcfg
  | extended hcfg new =>
      refine absurd (additions_eq_nil fun subject hsubject => ?_) new
      obtain ⟨cfg', hcfg', hfound⟩ := hcaptured subject hsubject
      cases hcfg.symm.trans hcfg'
      exact hfound

theorem grows_ensureAll (transport : ℕ) (name : String) (s : Session)
    (calls : List (List Bytes)) :
    s.server.Grows (ensureAll transport name s calls).server := by
  induction calls generalizing s with
  | nil => exact .of_eq rfl
  | cons subjects calls ih =>
      intro name' cfg hcfg
      obtain ⟨cfg₁, h₁, hsub₁⟩ := (ensure_ensured transport name s subjects).2.grows name' cfg hcfg
      obtain ⟨cfg₂, h₂, hsub₂⟩ := ih (ensure none up transport name s subjects).1 name' cfg₁ h₁
      exact ⟨cfg₂, h₂, List.Subset.trans hsub₁ hsub₂⟩

theorem captured_ensureAll {transport : ℕ} {calls : List (List Bytes)} {subject : Bytes}
    (hcall : subjects ∈ calls) (hsubject : subject ∈ subjects) :
    Captured (ensureAll transport name s calls).server name subject := by
  induction calls generalizing s with
  | nil => cases hcall
  | cons first calls ih =>
      rcases List.mem_cons.mp hcall with rfl | hcall
      · have hfirst := (ensure_ensured transport name s subjects).2.captured subject hsubject
        exact hfirst.later (grows_ensureAll _ _ _ _)
      · exact ih hcall

/-- What one call, by its returned error and by the session it leaves, has to have
done. -/
structure Provisioned (name : String) (subjects : List Bytes) (s s' : Session)
    (err : Option Err) : Prop where
  returns : err = none
  writes : s'.writes = s.writes ∨ ∃ cfg, s'.writes = cfg :: s.writes
  captured : ∀ subject ∈ subjects, Captured s'.server name subject
  extended : ∀ old, s.server.streams name = some old →
    ∃ added, s'.server.streams name = some { old with subjects := old.subjects ++ added } ∧
      ∀ pre subject post, added = pre ++ subject :: post →
        subject ∈ subjects ∧ found (old.subjects ++ pre) subject = false
  created : s.server.streams name = none → subjects ≠ [] →
    s'.server.streams name = some (newConfig none name subjects)

theorem Ensured.provisioned {s' : Session} (h : Ensured name subjects s s') :
    Provisioned name subjects s s' none where
  returns := rfl
  writes := by
    cases h with
    | settled _ _ writes => exact .inl writes
    | created _ _ _ writes => exact .inr ⟨_, writes⟩
    | extended _ _ _ writes => exact .inr ⟨_, writes⟩
  captured := h.captured
  extended old hold :=
    ⟨additions old.subjects subjects, h.streams hold, fun _ _ _ hadded => additions_new hadded⟩
  created hnone hne := by
    cases h with
    | settled captured =>
        obtain ⟨subject, hsubject⟩ := List.exists_mem_of_ne_nil subjects hne
        obtain ⟨cfg, hcfg, -⟩ := captured subject hsubject
        cases hnone.symm.trans hcfg
    | created _ _ server =>
        rw [server]
        exact Server.streams_put_self _ (newConfig none name subjects)
    | extended hcfg => cases hnone.symm.trans hcfg

end

/-- In every sequence of calls of `ensureStream` for one stream by one transport,
with no other writer and a server that takes what it is sent, each call returns
nil after at most one write, captures what was requested, adds to a stream that
is there only what was requested and not found before, creates a missing one as
requested, and makes all calls so far redundant. -/
theorem single_writer (transport : ℕ) (name : String) (s : Session) (calls : List (List Bytes))
    (subjects : List Bytes) :
    Provisioned name subjects (ensureAll transport name s calls)
        (ensure none up transport name (ensureAll transport name s calls) subjects).1
        (ensure none up transport name (ensureAll transport name s calls) subjects).2 ∧
      ∀ earlier ∈ calls ++ [subjects],
        (ensure none up transport name (ensureAll transport name s (calls ++ [subjects]))
            earlier).1.server =
          (ensureAll transport name s (calls ++ [subjects])).server ∧
        (ensure none up transport name (ensureAll transport name s (calls ++ [subjects]))
            earlier).1.writes =
          (ensureAll transport name s (calls ++ [subjects])).writes := by
  refine ⟨?_, fun earlier hearlier => ?_⟩
  · obtain ⟨herr, hensured⟩ :=
      ensure_ensured transport name (ensureAll transport name s calls) subjects
    rw [herr]
    exact hensured.provisioned
  · refine (ensure_ensured transport name _ earlier).2.unchanged fun subject hsubject => ?_
    exact captured_ensureAll hearlier hsubject

/-- A server without streams, and nothing written. -/
def Session.empty : Session := ⟨.empty, [], 0⟩

/-- A missing stream is created with `a.*` and `a.b`, of which the first one
covers the second. -/
theorem created_with_covered :
    ((ensure none up 0 "S" .empty [[97, 46, 42], [97, 46, 98]]).1.server.streams "S").map
        (·.subjects) = some [[97, 46, 42], [97, 46, 98]] ∧
      found [[97, 46, 42]] [97, 46, 98] = true := by
  decide +kernel

end TransportNats.Stream
