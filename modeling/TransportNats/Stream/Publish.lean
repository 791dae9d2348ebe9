import TransportNats.Stream.Provision
import TransportNats.Delivery.Handler

/-!
Durable publishing and the cache of verified streams.

`PublishDurable` provisions the two streams of its binding, the work stream and
the one for dead letters, unless `verifiedStreams` says that this was done. The
cache remembers the name of the stream and the subject in one string, joined by
a colon. What is not in the key, the dead-letter subject, or cannot be read off
it, where the name ends and the subject begins, can differ between two bindings
with one key; the second one is then published without its streams.
-/

namespace TransportNats.Stream

open Interleaving Program Delivery

/-! ### The call -/

/-- What can fail in one call besides the provisioning itself. -/
structure Outcome where
  connErr : Option Err := none
  jetStreamErr : Option Err := none
  /-- The error of the n-th request for a configuration, if it fails. -/
  down : ℕ → Option Err := up
  marshalErr : Option Err := none
  publishErr : Option Err := none

/-- A transport and its server. Each publish step is recorded with the binding and
with the server that it met. -/
structure Publisher where
  session : Session
  verifiedStreams : List String
  published : List (DurableBinding × Server)

/-- The dead-letter stream of a work stream. -/
def deadLetterStream (stream : String) : String := stream ++ "_DLQ"

def ensureDurableInfra (modifier : Modifier) (transport : ℕ) (down : ℕ → Option Err) (s : Session)
    (b : DurableBinding) : Session × Option Err :=
  let work := ensure modifier down transport b.stream s [bytesOf b.subject]
  match work.2 with
  | some err => (work.1, some err)
  | none =>
      ensure modifier down transport (deadLetterStream b.stream) work.1
        [bytesOf b.deadLetterSubject]

def cacheKey (b : DurableBinding) : String := b.stream ++ ":" ++ b.subject

/-- The part of `PublishDurable` that consults the cache. -/
def verify (modifier : Modifier) (transport : ℕ) (down : ℕ → Option Err) (p : Publisher)
    (b : DurableBinding) : Publisher × Option Err :=
  if cacheKey b ∈ p.verifiedStreams then (p, none)
  else
    let infra := ensureDurableInfra modifier transport down p.session b
    match infra.2 with
    | some infraErr => ({ p with session := infra.1 }, some infraErr)
    | none =>
        ({ p with session := infra.1, verifiedStreams := cacheKey b :: p.verifiedStreams }, none)

/-- The publish step, and what is left of the call before it. -/
def publish (out : Outcome) (p : Publisher) (b : DurableBinding) : Publisher × Option Err :=
  match out.marshalErr with
  | some marshalErr =>
      (p, some (.appOf .internal "failed to marshal durable nats payload" marshalErr))
  | none =>
      ({ p with published := (b, p.session.server) :: p.published }, out.publishErr.map mapError)

def publishDurable (modifier : Modifier) (transport : ℕ) (out : Outcome) (p : Publisher)
    (b : DurableBinding) : Publisher × Option Err :=
  match validateDurableBinding b with
  | some err => (p, some err)
  | none =>
      match out.connErr with
      | some err => (p, some err)
      | none =>
          match out.jetStreamErr with
          | some err => (p, some err)
          | none =>
              match (verify modifier transport out.down p b).2 with
              | some err => ((verify modifier transport out.down p b).1, some err)
              | none => publish out (verify modifier transport out.down p b).1 b

/-- Calls one after the other, each with what happens to it. -/
def publishAll (modifier : Modifier) (transport : ℕ) (p : Publisher)
    (calls : List (Outcome × DurableBinding)) : Publisher :=
  calls.foldl (fun p call => (publishDurable modifier transport call.1 p call.2).1) p

/-! ### Provisioning that returns nil -/

section
variable {modifier : Modifier} {down : ℕ → Option Err} {transport : ℕ} {name : String}
  {subjects : List Bytes}

theorem Server.Grows.trans {s₁ s₂ s₃ : Server} (h : s₁.Grows s₂) (h' : s₂.Grows s₃) :
    s₁.Grows s₃ := by
  intro name cfg hcfg
  obtain ⟨cfg₁, h₁, hsub₁⟩ := h name cfg hcfg
  obtain ⟨cfg₂, h₂, hsub₂⟩ := h' name cfg₁ h₁
  exact ⟨cfg₂, h₂, List.Subset.trans hsub₁ hsub₂⟩

theorem streams_of_serve {s : Session} {cfg : StreamConfig}
    (h : (serve down s (.streamInfo name)).2 = .ok cfg) : s.server.streams name = some cfg := by
  simp only [serve] at h
  split at h
  · cases h
  · exact streams_of_info h

/-- Configured subjects stay, and after a result of nil the requested ones are
captured. -/
structure Captures (name : String) (subjects : List Bytes) (s : Session)
    (r : Session × Option Err) : Prop where
  grows : s.server.Grows r.1.server
  captured : r.2 = none → ∀ subject ∈ subjects, Captured r.1.server name subject

theorem Captures.error {s s' : Session} (h : s.server.Grows s'.server) (err : Err) :
    Captures name subjects s (s', some err) := ⟨h, fun hnone => by cases hnone⟩

theorem Captures.after {s s' : Session} {r : Session × Option Err}
    (h : Captures name subjects s' r) (hgrows : s.server.Grows s'.server) :
    Captures name subjects s r := ⟨hgrows.trans h.grows, h.captured⟩

/-- Requests for a configuration may fail; the loop still captures what it says. -/
theorem provision_captures (hmod : Faithful modifier) (down : ℕ → Option Err) (rounds : ℕ)
    (s : Session) :
    Captures name subjects s
      ((provision modifier name subjects rounds).alone (serve down) s) := by
  induction rounds generalizing s with
  | zero => exact .error (.of_eq rfl) _
  | succ rounds ih =>
      have hread : ∀ cfg, (serve down s (.streamInfo name)).2 = .ok cfg →
          s.server.streams name = some cfg := fun _ h => streams_of_serve h
      have hserver : (serve down s (.streamInfo name)).1.server = s.server := rfl
      unfold provision streamInfo addStream updateStream
      rw [alone_perform_bind]
      generalize (serve down s (.streamInfo name)).2 = r at hread ⊢
      generalize (serve down s (.streamInfo name)).1 = s₁ at hserver ⊢
      have hsame : s.server.Grows s₁.server := .of_eq (by rw [hserver])
      cases r with
      | error err =>
          dsimp only
          split
          · obtain ⟨hname, hfound⟩ := hmod name subjects
            have hgrows := Server.grows_add s₁.server (newConfig modifier name subjects)
            rw [alone_perform_bind]
            cases hadd : (serve down s₁ (.addStream (newConfig modifier name subjects))).2 with
            | none =>
                refine ⟨hsame.trans hgrows, fun _ subject hsubject => ?_⟩
                have hstreams := @streams_of_add s₁.server .ok _ hadd
                rw [hname] at hstreams
                exact ⟨_, hstreams, hfound subject hsubject⟩
            | some addErr =>
                dsimp only
                split
                · exact (ih _).after (hsame.trans hgrows)
                · exact .error (hsame.trans hgrows) _
          · exact .error hsame _
      | ok config =>
          have hconfig := hread config rfl
          rw [← hserver] at hconfig
          dsimp only
          split
          · have hgrows : s₁.server.Grows (s₁.server.update
                { config with subjects := (mergeSubjects config.subjects subjects).1 }).1 := by
              refine Server.grows_update fun old hold => ?_
              cases hconfig.symm.trans (s₁.server.named hconfig ▸ hold)
              exact subset_mergeSubjects _ _
            rw [alone_perform_bind]
            split
            · exact .error (hsame.trans hgrows) _
            · exact (ih _).after (hsame.trans hgrows)
          · rename_i hupdated
            have hmerged := found_of_merged (Bool.eq_false_of_not_eq_true hupdated)
            exact ⟨hsame, fun _ subject hsubject => ⟨config, hconfig, hmerged subject hsubject⟩⟩

theorem ensure_captures (hmod : Faithful modifier) (s : Session) :
    Captures name subjects s (ensure modifier down transport name s subjects) := by
  by_cases hnil : subjects = []
  · unfold ensure ensureStream
    rw [if_pos hnil, hnil]
    exact ⟨.of_eq rfl, by simp⟩
  · rw [ensure_eq hnil]
    -- the mutex does not touch the streams
    have hloop : Captures name subjects (serve down s (.lock transport)).1
        ((provision modifier name subjects 3).alone (serve down)
          (serve down s (.lock transport)).1) := provision_captures hmod down 3 _
    exact ⟨hloop.grows, hloop.captured⟩

end

/-! ### What the cache stands for -/

/-- Both streams of the binding are there and take its subjects. -/
structure Provides (server : Server) (b : DurableBinding) : Prop where
  work : Captured server b.stream (bytesOf b.subject)
  deadLetter : Captured server (deadLetterStream b.stream) (bytesOf b.deadLetterSubject)

/-- Bindings with one cache key have one stream and one dead-letter subject. -/
def KeysAgree (bindings : List DurableBinding) : Prop :=
  ∀ b ∈ bindings, ∀ b' ∈ bindings, cacheKey b = cacheKey b' →
    b.stream = b'.stream ∧ b.deadLetterSubject = b'.deadLetterSubject

section
variable {modifier : Modifier} {b b' : DurableBinding}

theorem Provides.later {server server' : Server} (h : Provides server b)
    (hgrows : server.Grows server') : Provides server' b :=
  ⟨h.work.later hgrows, h.deadLetter.later hgrows⟩

theorem ensureDurableInfra_provides (hmod : Faithful modifier) (transport : ℕ)
    (down : ℕ → Option Err) (s : Session) :
    s.server.Grows (ensureDurableInfra modifier transport down s b).1.server ∧
      ((ensureDurableInfra modifier transport down s b).2 = none →
        Provides (ensureDurableInfra modifier transport down s b).1.server b) := by
  have hwork : Captures b.stream [bytesOf b.subject] s
      (ensure modifier down transport b.stream s [bytesOf b.subject]) := ensure_captures hmod s
  unfold ensureDurableInfra
  dsimp only
  generalize ensure modifier down transport b.stream s [bytesOf b.subject] = work at hwork
  cases herr : work.2 with
  | some err => exact ⟨hwork.grows, fun h => by cases h⟩
  | none =>
      have hdead : Captures (deadLetterStream b.stream) [bytesOf b.deadLetterSubject] work.1
          (ensure modifier down transport (deadLetterStream b.stream) work.1
            [bytesOf b.deadLetterSubject]) := ensure_captures hmod work.1
      refine ⟨hwork.grows.trans hdead.grows, fun hnone => ⟨?_, ?_⟩⟩
      · exact (hwork.captured herr _ (List.mem_singleton_self _)).later hdead.grows
      · exact hdead.captured hnone _ (List.mem_singleton_self _)

theorem subject_eq_of_cacheKey (h : cacheKey b = cacheKey b') (hstream : b.stream = b'.stream) :
    b.subject = b'.subject := by
  unfold cacheKey at h
  rw [hstream] at h
  exact String.toList_inj.mp (by simpa using congrArg String.toList h)

/-- Every key of the cache belongs to a binding whose streams are there, and what
was published met its streams. -/
structure Sound (bindings : List DurableBinding) (p : Publisher) : Prop where
  verified : ∀ key ∈ p.verifiedStreams,
    ∃ b ∈ bindings, cacheKey b = key ∧ Provides p.session.server b
  published : ∀ x ∈ p.published, Provides x.2 x.1

theorem verify_sound {bindings : List DurableBinding} {p : Publisher} (hmod : Faithful modifier)
    (transport : ℕ) (down : ℕ → Option Err) (hagree : KeysAgree bindings) (hb : b ∈ bindings)
    (hp : Sound bindings p) :
    Sound bindings (verify modifier transport down p b).1 ∧
      ((verify modifier transport down p b).2 = none →
        Provides (verify modifier transport down p b).1.session.server b) := by
  unfold verify
  split
  · rename_i hcached
    refine ⟨hp, fun _ => ?_⟩
    obtain ⟨b', hb', hkey, hprovides⟩ := hp.verified _ hcached
    obtain ⟨hstream, hdead⟩ := hagree b' hb' b hb hkey
    have hsubject := subject_eq_of_cacheKey hkey hstream
    exact ⟨hstream ▸ hsubject ▸ hprovides.work, hstream ▸ hdead ▸ hprovides.deadLetter⟩
  · obtain ⟨hgrows, hprovides⟩ :=
      ensureDurableInfra_provides (b := b) hmod transport down p.session
    have hkept : ∀ key ∈ p.verifiedStreams, ∃ b' ∈ bindings, cacheKey b' = key ∧
        Provides (ensureDurableInfra modifier transport down p.session b).1.server b' := by
      intro key hkey
      obtain ⟨b', hb', hk, hprov⟩ := hp.verified key hkey
      exact ⟨b', hb', hk, hprov.later hgrows⟩
    dsimp only
    split
    · exact ⟨⟨hkept, hp.published⟩, fun h => by cases h⟩
    · rename_i hnone
      refine ⟨⟨fun key hkey => ?_, hp.published⟩, fun _ => hprovides hnone⟩
      rcases List.mem_cons.mp hkey with rfl | hkey
      · exact ⟨b, hb, rfl, hprovides hnone⟩
      · exact hkept key hkey

theorem publishDurable_sound {bindings : List DurableBinding} {p : Publisher}
    (hmod : Faithful modifier) (transport : ℕ) (out : Outcome) (hagree : KeysAgree bindings)
    (hb : b ∈ bindings) (hp : Sound bindings p) :
    Sound bindings (publishDurable modifier transport out p b).1 := by
  obtain ⟨hsound, hprovides⟩ := verify_sound hmod transport out.down hagree hb hp
  unfold publishDurable publish
  repeat' split
  · exact hp
  · exact hp
  · exact hp
  · exact hsound
  · exact hsound
  · refine ⟨hsound.verified, fun x hx => ?_⟩
    rcases List.mem_cons.mp hx with rfl | hx
    · exact hprovides ‹_›
    · exact hsound.published x hx

theorem publishAll_sound {bindings : List DurableBinding} {p : Publisher}
    (hmod : Faithful modifier) (transport : ℕ) {calls : List (Outcome × DurableBinding)}
    (hagree : KeysAgree bindings) (hcalls : ∀ call ∈ calls, call.2 ∈ bindings)
    (hp : Sound bindings p) : Sound bindings (publishAll modifier transport p calls) := by
  induction calls generalizing p with
  | nil => exact hp
  | cons call calls ih =>
      refine ih (fun c hc => hcalls c (List.mem_cons_of_mem _ hc)) ?_
      exact publishDurable_sound hmod transport call.1 hagree (hcalls call List.mem_cons_self) hp

end

/-- A transport that has not published yet. -/
def Publisher.fresh (s : Session) : Publisher := ⟨s, [], []⟩

/-- In every sequence of `PublishDurable` calls in which equal cache keys mean
equal streams and dead-letter subjects, by a transport whose modifier keeps what
is requested, each publish step meets both streams of its binding. -/
theorem published_provided (modifier : Modifier) (hmod : Faithful modifier) (transport : ℕ)
    (s : Session) (calls : List (Outcome × DurableBinding))
    (hagree : KeysAgree (calls.map (·.2))) :
    ∀ x ∈ (publishAll modifier transport (.fresh s) calls).published, Provides x.2 x.1 := by
  have hfresh : Sound (calls.map (·.2)) (.fresh s) :=
    ⟨by simp [Publisher.fresh], by simp [Publisher.fresh]⟩
  exact (publishAll_sound hmod transport hagree (fun _ h => List.mem_map_of_mem h)
    hfresh).published

/-- Orders for the stream `S`, with a subject for its dead letters. -/
def orders (deadLetterSubject : String) : DurableBinding where
  stream := "S"
  subject := "orders"
  durable := "w"
  deadLetterSubject := deadLetterSubject
  maxDeliver := .one
  ackWait := 1
  retryDelay := 1
  maxAckPending := 1

/-- Twice the same binding: the second call finds it in the cache. -/
theorem published_provided_twice :
    (publishAll none 0 (.fresh .empty) [({}, orders "dead.a"), ({}, orders "dead.a")]).published.map
        (·.1.deadLetterSubject) = ["dead.a", "dead.a"] ∧
      ∀ x ∈ (publishAll none 0 (.fresh .empty)
        [({}, orders "dead.a"), ({}, orders "dead.a")]).published, Provides x.2 x.1 := by
  refine ⟨by decide +kernel, published_provided none faithful_none 0 .empty
    [({}, orders "dead.a"), ({}, orders "dead.a")] ?_⟩
  intro b hb b' hb' _
  simp only [List.map_cons, List.map_nil, List.mem_cons, List.not_mem_nil, or_false, or_self]
    at hb hb'
  subst hb hb'
  exact ⟨rfl, rfl⟩

/-- With the same stream and subject and another subject for dead letters, the
second call is published although the dead-letter stream does not take its
subject. -/
theorem published_without_deadLetter :
    cacheKey (orders "dead.a") = cacheKey (orders "dead.b") ∧
      validateDurableBinding (orders "dead.b") = none ∧
      (∃ x ∈ (publishAll none 0 (.fresh .empty)
          [({}, orders "dead.a"), ({}, orders "dead.b")]).published,
        x.1.stream = "S" ∧ x.1.deadLetterSubject = "dead.b" ∧
          (x.2.streams "S_DLQ").map (·.subjects) = some [bytesOf "dead.a"]) ∧
      found [bytesOf "dead.a"] (bytesOf "dead.b") = false ∧
      ¬ ∀ x ∈ (publishAll none 0 (.fresh .empty)
        [({}, orders "dead.a"), ({}, orders "dead.b")]).published, Provides x.2 x.1 := by
  have hmet : ∃ x ∈ (publishAll none 0 (.fresh .empty)
      [({}, orders "dead.a"), ({}, orders "dead.b")]).published,
      x.1.stream = "S" ∧ x.1.deadLetterSubject = "dead.b" ∧
        (x.2.streams "S_DLQ").map (·.subjects) = some [bytesOf "dead.a"] := by decide +kernel
  have hmissing : found [bytesOf "dead.a"] (bytesOf "dead.b") = false := by decide +kernel
  refine ⟨by decide +kernel, by decide +kernel, hmet, hmissing, fun hall => ?_⟩
  obtain ⟨x, hx, hstream, hdead, hsubjects⟩ := hmet
  obtain ⟨cfg, hcfg, hfound⟩ := (hall x hx).deadLetter
  rw [hstream] at hcfg
  rw [show x.2.streams "S_DLQ" = some cfg from hcfg] at hsubjects
  have hsubjects : cfg.subjects = [bytesOf "dead.a"] := Option.some.inj hsubjects
  rw [hsubjects, hdead, hmissing] at hfound
  cases hfound

end TransportNats.Stream
