import TransportNats.Stream.Publish
import TransportNats.Library.Moments

/-!
Setting up pull consumers.

Before a fetch loop starts, its streams are provisioned, a pull subscription is
opened with the policies of the binding as options, and the limit that the
server itself would put on deliveries is lifted: the handlers count deliveries,
and a message whose dead letter could not be published must come back. The limit
is lifted by reading the configuration of the consumer and writing it back, with
nothing to keep other processes from doing the same at the same time. They all
write the same limit, so that none of them can bring an old one back, and the
rest of a configuration is always what somebody has asked for. The server takes
a configuration as it is asked for, but for the ack wait: where there are
back-offs, it is the first of them.
-/

namespace TransportNats.Subscription

open Interleaving Program Delivery TransportNats.Stream

/-! ### Options -/

/-- A consumer binding with the fields that only its set-up reads. -/
structure ConsumerSpec extends ConsumerBinding where
  filterSubjects : List String := []
  rateLimitBits : ℕ := 0
  headersOnly : Bool := false

/-- `nats.ConsumerConfig`, as far as the options set it; the policies are those
of the client library under the names of the bindings. -/
structure ConsumerConfig where
  durable : String
  filterSubject : String
  filterSubjects : List String := []
  deliverPolicy : DeliverPolicy := .deliverAll
  optStartSeq : ℕ := 0
  optStartTime : Option ℤ := none
  ackPolicy : AckPolicy := .ackExplicit
  ackWait : ℤ := 0
  maxDeliver : ℤ := 0
  maxAckPending : ℤ := 0
  replayPolicy : ReplayPolicy := .replayInstant
  backOff : List ℤ := []
  rateLimit : ℕ := 0
  headersOnly : Bool := false
  deriving DecidableEq

/-- The configuration without a limit on deliveries. -/
def ConsumerConfig.unlimited (config : ConsumerConfig) : ConsumerConfig :=
  { config with maxDeliver := -1 }

/-- What the server makes of a configuration: the first back-off, if there are any, takes
the place of the ack wait. -/
def ConsumerConfig.completed (config : ConsumerConfig) : ConsumerConfig :=
  { config with ackWait := config.backOff.head?.getD config.ackWait }

namespace ConsumerConfig

theorem completed_completed (config : ConsumerConfig) :
    config.completed.completed = config.completed := by
  cases hb : config.backOff <;> simp [completed, hb]

theorem completed_unlimited (config : ConsumerConfig) :
    config.unlimited.completed = config.completed.unlimited := rfl

end ConsumerConfig

/-- The options of `PullSubscribe` that are in use. -/
inductive SubOpt
  | bindStream (stream : String)
  | ackWait (wait : ℤ)
  | maxDeliver (n : ℤ)
  | maxAckPending (n : ℤ)
  | consumerFilterSubjects (subjects : List String)
  | ackNone | ackAll | ackExplicit
  | deliverAll | deliverLast | deliverNew | deliverLastPerSubject
  | startSequence (seq : ℕ)
  | startTime (time : Option ℤ)
  | replayInstant | replayOriginal
  | backOff (delays : List ℤ)
  | rateLimit (bits : ℕ)
  | headersOnly

/-- What a subscription asks for: a consumer of a stream. -/
structure SubOpts where
  stream : String := ""
  cfg : ConsumerConfig

/-- What an option of the client library sets. -/
def SubOpt.apply (s : SubOpts) : SubOpt → SubOpts
  | .bindStream stream => { s with stream := stream }
  | .ackWait wait => { s with cfg.ackWait := wait }
  | .maxDeliver n => { s with cfg.maxDeliver := n }
  | .maxAckPending n => { s with cfg.maxAckPending := n }
  | .consumerFilterSubjects subjects => { s with cfg.filterSubjects := subjects }
  | .ackNone => { s with cfg.ackPolicy := .ackNone }
  | .ackAll => { s with cfg.ackPolicy := .ackAll }
  | .ackExplicit => { s with cfg.ackPolicy := .ackExplicit }
  | .deliverAll => { s with cfg.deliverPolicy := .deliverAll }
  | .deliverLast => { s with cfg.deliverPolicy := .deliverLast }
  | .deliverNew => { s with cfg.deliverPolicy := .deliverNew }
  | .deliverLastPerSubject => { s with cfg.deliverPolicy := .deliverLastPerSubject }
  | .startSequence seq =>
      { s with cfg.deliverPolicy := .deliverByStartSequence, cfg.optStartSeq := seq }
  | .startTime time =>
      { s with cfg.deliverPolicy := .deliverByStartTime, cfg.optStartTime := time }
  | .replayInstant => { s with cfg.replayPolicy := .replayInstant }
  | .replayOriginal => { s with cfg.replayPolicy := .replayOriginal }
  | .backOff delays => { s with cfg.backOff := delays }
  | .rateLimit bits => { s with cfg.rateLimit := bits }
  | .headersOnly => { s with cfg.headersOnly := true }

/-- What `PullSubscribe` asks the server for. -/
def resolve (subject durable : String) (opts : List SubOpt) : SubOpts :=
  opts.foldl SubOpt.apply { cfg := { durable := durable, filterSubject := subject } }

def applyAckPolicyOpts (opts : List SubOpt) : AckPolicy → List SubOpt
  | .ackNone => opts ++ [.ackNone]
  | .ackAll => opts ++ [.ackAll]
  | .ackExplicit => opts ++ [.ackExplicit]
  | .invalid _ => opts ++ [.ackExplicit]

def applyDeliverPolicyOpts (opts : List SubOpt) (b : ConsumerSpec) : List SubOpt :=
  match b.deliverPolicy with
  | .deliverLast => opts ++ [.deliverLast]
  | .deliverNew => opts ++ [.deliverNew]
  | .deliverByStartSequence => opts ++ [.startSequence b.optStartSeq]
  | .deliverByStartTime => opts ++ [.startTime b.optStartTime]
  | .deliverLastPerSubject => opts ++ [.deliverLastPerSubject]
  | .deliverAll => opts ++ [.deliverAll]
  | .invalid _ => opts ++ [.deliverAll]

def applyReplayPolicyOpts (opts : List SubOpt) : ReplayPolicy → List SubOpt
  | .replayOriginal => opts ++ [.replayOriginal]
  | .replayInstant => opts ++ [.replayInstant]
  | .invalid _ => opts ++ [.replayInstant]

/-- The options that `openConsumerSubscription` collects. -/
def consumerOptions (b : ConsumerSpec) : List SubOpt :=
  let opts := [.bindStream b.stream, .ackWait b.ackWait, .maxDeliver (-1),
    .maxAckPending b.maxAckPending]
  let opts := if b.filterSubjects ≠ [] then opts ++ [.consumerFilterSubjects b.filterSubjects]
    else opts
  let opts := applyAckPolicyOpts opts b.ackPolicy
  let opts := applyDeliverPolicyOpts opts b
  let opts := applyReplayPolicyOpts opts b.replayPolicy
  let opts := if b.backOff ≠ [] then opts ++ [.backOff b.backOff] else opts
  let opts := if 0 < b.rateLimitBits then opts ++ [.rateLimit b.rateLimitBits] else opts
  if b.headersOnly then opts ++ [.headersOnly] else opts

def durableOptions (b : DurableBinding) : List SubOpt :=
  [.bindStream b.stream, .ackExplicit, .ackWait b.ackWait, .maxDeliver (-1),
    .maxAckPending b.maxAckPending]

/-! ### Requests -/

inductive SubscribeOp
  | stream (o : StreamOp)
  | pullSubscribe (subject durable : String) (opts : List SubOpt)
  | consumerInfo (stream durable : String)
  | updateConsumer (stream : String) (config : ConsumerConfig)
  | unsubscribe (sub : ℕ)
  | appendSub (sub : ℕ)
  | goFetchLoop (sub : ℕ)

@[reducible] def SubscribeOp.Ret : SubscribeOp → Type
  | .stream o => o.Ret
  | .pullSubscribe _ _ _ => Except Err ℕ
  | .consumerInfo _ _ => Except Err ConsumerConfig
  | .updateConsumer _ _ => Option Err
  | .unsubscribe _ => Option Err
  | .appendSub _ | .goFetchLoop _ => Unit

abbrev subscribeSig : Signature := ⟨SubscribeOp, SubscribeOp.Ret⟩

abbrev Subscribe := Program subscribeSig

/-- The requests of `ensureStream` as requests of the set-up. -/
def streamEmbedding : Embedding streamSig subscribeSig where
  op := .stream
  down _ r := r
  up _ r := r
  up_down _ _ := rfl

def pullSubscribe (subject durable : String) (opts : List SubOpt) : Subscribe (Except Err ℕ) :=
  .perform (S := subscribeSig) (.pullSubscribe subject durable opts)

def consumerInfo (stream durable : String) : Subscribe (Except Err ConsumerConfig) :=
  .perform (S := subscribeSig) (.consumerInfo stream durable)

def updateConsumer (stream : String) (config : ConsumerConfig) : Subscribe (Option Err) :=
  .perform (S := subscribeSig) (.updateConsumer stream config)

def unsubscribe (sub : ℕ) : Subscribe (Option Err) :=
  .perform (S := subscribeSig) (.unsubscribe sub)

def appendSub (sub : ℕ) : Subscribe Unit := .perform (S := subscribeSig) (.appendSub sub)

def goFetchLoop (sub : ℕ) : Subscribe Unit := .perform (S := subscribeSig) (.goFetchLoop sub)

/-! ### The calls -/

def ensureUnlimitedConsumerDeliveries (stream durable : String) : Subscribe (Option Err) := do
  match ← consumerInfo stream durable with
  | .error err => return some (mapError err)
  | .ok config =>
      if config.maxDeliver = -1 then return none
      else
        match ← updateConsumer stream { config with maxDeliver := -1 } with
        | some err => return some (mapError err)
        | none => return none

/-- The lines that `openConsumerSubscription` and `subscribeDurable` share. -/
def openUnlimited (stream subject durable : String) (opts : List SubOpt) :
    Subscribe (Except Err ℕ) := do
  match ← pullSubscribe subject durable opts with
  | .error err => return .error (mapError err)
  | .ok sub =>
      match ← ensureUnlimitedConsumerDeliveries stream durable with
      | some err =>
          let _ ← unsubscribe sub
          return .error err
      | none => return .ok sub

/-- With filters the subject of the binding itself is not subscribed to. -/
def subscribedSubject (b : ConsumerSpec) : String :=
  if b.filterSubjects ≠ [] then "" else b.subject

def openConsumerSubscription (b : ConsumerSpec) : Subscribe (Except Err ℕ) :=
  openUnlimited b.stream (subscribedSubject b) b.durable (consumerOptions b)

/-- The subjects that the stream of a consumer must take. -/
def consumedSubjects (b : ConsumerSpec) : List String :=
  if b.filterSubjects ≠ [] then b.filterSubjects else [b.subject]

/-- `ensureStream` of a transport with its modifier. -/
def ensureStreamOf (transport : ℕ) (modifier : Modifier) (name : String)
    (subjects : List String) : Subscribe (Option Err) :=
  (ensureStream transport modifier name (subjects.map bytesOf)).lift streamEmbedding

def ensureConsumerInfra (transport : ℕ) (modifier : Modifier) (b : ConsumerSpec) :
    Subscribe (Option Err) := do
  match ← ensureStreamOf transport modifier b.stream (consumedSubjects b) with
  | some err => return some err
  | none =>
      if b.deadLetterSubject ≠ "" then
        ensureStreamOf transport modifier (deadLetterStream b.stream) [b.deadLetterSubject]
      else return none

def ensureDurableInfra (transport : ℕ) (modifier : Modifier) (b : DurableBinding) :
    Subscribe (Option Err) := do
  match ← ensureStreamOf transport modifier b.stream [b.subject] with
  | some err => return some err
  | none => ensureStreamOf transport modifier (deadLetterStream b.stream) [b.deadLetterSubject]

/-- What both kinds of set-up do with their subscription. -/
def startFetching (opened : Except Err ℕ) : Subscribe (Option Err) :=
  match opened with
  | .error err => return some err
  | .ok sub => do
      appendSub sub
      goFetchLoop sub
      return none

def subscribeConsumer (transport : ℕ) (modifier : Modifier) (b : ConsumerSpec) :
    Subscribe (Option Err) := do
  match validateConsumerBinding b.toConsumerBinding with
  | some err => return some err
  | none =>
      match ← ensureConsumerInfra transport modifier b with
      | some err => return some err
      | none => openConsumerSubscription b >>= startFetching

def subscribeDurable (transport : ℕ) (modifier : Modifier) (b : DurableBinding) :
    Subscribe (Option Err) := do
  match validateDurableBinding b with
  | some err => return some err
  | none =>
      match ← ensureDurableInfra transport modifier b with
      | some err => return some err
      | none => openUnlimited b.stream b.subject b.durable (durableOptions b) >>= startFetching

/-! ### Both kinds of binding -/

inductive PullBinding
  | consumer (b : ConsumerSpec)
  | durable (b : DurableBinding)

namespace PullBinding

def validate : PullBinding → Option Err
  | .consumer b => validateConsumerBinding b.toConsumerBinding
  | .durable b => validateDurableBinding b

def stream : PullBinding → String
  | .consumer b => b.stream
  | .durable b => b.stream

/-- The name of the durable consumer. -/
def name : PullBinding → String
  | .consumer b => b.durable
  | .durable b => b.durable

def subjects : PullBinding → List String
  | .consumer b => consumedSubjects b
  | .durable b => [b.subject]

def deadLetterSubject : PullBinding → String
  | .consumer b => b.deadLetterSubject
  | .durable b => b.deadLetterSubject

/-- The consumer that a binding asks for: its own policies, with deliveries limited
by the handlers only. -/
def wanted : PullBinding → ConsumerConfig
  | .consumer b =>
      { durable := b.durable
        filterSubject := if b.filterSubjects = [] then b.subject else ""
        filterSubjects := b.filterSubjects
        deliverPolicy := b.deliverPolicy
        optStartSeq := if b.deliverPolicy = .deliverByStartSequence then b.optStartSeq else 0
        optStartTime := if b.deliverPolicy = .deliverByStartTime then b.optStartTime else none
        ackPolicy := b.ackPolicy
        ackWait := b.ackWait
        maxDeliver := -1
        maxAckPending := b.maxAckPending
        replayPolicy := b.replayPolicy
        backOff := b.backOff
        rateLimit := b.rateLimitBits
        headersOnly := b.headersOnly }
  | .durable b =>
      { durable := b.durable
        filterSubject := b.subject
        ackWait := b.ackWait
        maxDeliver := -1
        maxAckPending := b.maxAckPending }

theorem durable_wanted (B : PullBinding) : B.wanted.durable = B.name := by
  cases B <;> rfl

theorem maxDeliver_wanted (B : PullBinding) : B.wanted.maxDeliver = -1 := by
  cases B <;> rfl

end PullBinding

/-! ### The server -/

/-- The streams and the durable consumers of the server, each under its own name and
complete, and how many subscriptions have been opened. -/
structure Cluster where
  server : Server
  consumers : String → String → Option ConsumerConfig
  named : ∀ {stream durable config}, consumers stream durable = some config →
    config.durable = durable
  complete : ∀ {stream durable config}, consumers stream durable = some config →
    config.completed = config
  opened : ℕ

/-- `upsert` says whether `PullSubscribe` writes its configuration although
there is a consumer, which it does if it did not see it yet. -/
structure SubscribeChoice where
  fault : StreamFault := .ok
  upsert : Bool := false

namespace Cluster

def put (s : Cluster) (stream : String) (config : ConsumerConfig) : Cluster where
  server := s.server
  consumers stream' durable :=
    if stream' = stream ∧ durable = config.durable then some config.completed
    else s.consumers stream' durable
  named {stream' durable config'} h := by
    split at h
    · rename_i heq
      rw [← Option.some.inj h, heq.2]
      rfl
    · exact s.named h
  complete {stream' durable config'} h := by
    split at h
    · rw [← Option.some.inj h, config.completed_completed]
    · exact s.complete h
  opened := s.opened

/-- The consumer exists afterwards; if it did before, it may be replaced. -/
def subscribe (s : Cluster) (upsert : Bool) (asked : SubOpts) : Cluster :=
  if upsert ∨ s.consumers asked.stream asked.cfg.durable = none then s.put asked.stream asked.cfg
  else s

def info (s : Cluster) (stream durable : String) : StreamFault → Except Err ConsumerConfig
  | .dropped err | .lost err => .error err
  | .ok =>
      match s.consumers stream durable with
      | some config => .ok config
      | none => .error (.sentinel (.nats .errConsumerNotFound))

def op (ch : SubscribeChoice) (s : Cluster) : (o : SubscribeOp) → Cluster × o.Ret
  | .stream o =>
      let r := s.server.op ch.fault o
      ({ s with server := r.1 }, r.2)
  | .pullSubscribe subject durable opts =>
      let s' := s.subscribe ch.upsert (resolve subject durable opts)
      match ch.fault with
      | .ok => ({ s' with opened := s.opened + 1 }, .ok s.opened)
      | .dropped err => (s, .error err)
      | .lost err => (s', .error err)
  | .consumerInfo stream durable => (s, s.info stream durable ch.fault)
  | .updateConsumer stream config =>
      match ch.fault with
      | .ok => (s.put stream config, none)
      | .dropped err => (s, some err)
      | .lost err => (s.put stream config, some err)
  | .unsubscribe _ =>
      (s, match ch.fault with
        | .ok => none
        | .dropped err | .lost err => some err)
  | .appendSub _ | .goFetchLoop _ => (s, ())

end Cluster

structure SubscribeCall where
  transport : ℕ
  binding : PullBinding

/-- Any number of transports that set up any number of consumers. Nobody else
writes or deletes streams and consumers. -/
@[reducible] def subscriptions (modifier : ℕ → Modifier) : System where
  sig := subscribeSig
  State := Cluster
  Call := SubscribeCall
  Result := Option Err
  Choice := SubscribeChoice
  Env := Empty
  program c :=
    match c.binding with
    | .consumer b => subscribeConsumer c.transport (modifier c.transport) b
    | .durable b => subscribeDurable c.transport (modifier c.transport) b
  exec := Cluster.op
  enter _ s := some s
  env e _ := e.elim

/-! ### Options say what the binding says -/

section
variable {opts : List SubOpt} {s : SubOpts}

theorem foldl_applyAckPolicyOpts {p : AckPolicy} (hp : ∀ code, p ≠ .invalid code) :
    (applyAckPolicyOpts opts p).foldl SubOpt.apply s =
      { opts.foldl SubOpt.apply s with cfg.ackPolicy := p } := by
  cases p with
  | ackExplicit | ackNone | ackAll =>
      rw [applyAckPolicyOpts, List.foldl_append]
      rfl
  | invalid code => exact absurd rfl (hp code)

theorem foldl_applyReplayPolicyOpts {p : ReplayPolicy} (hp : ∀ code, p ≠ .invalid code) :
    (applyReplayPolicyOpts opts p).foldl SubOpt.apply s =
      { opts.foldl SubOpt.apply s with cfg.replayPolicy := p } := by
  cases p with
  | replayInstant | replayOriginal =>
      rw [applyReplayPolicyOpts, List.foldl_append]
      rfl
  | invalid code => exact absurd rfl (hp code)

theorem foldl_applyDeliverPolicyOpts {b : ConsumerSpec}
    (hp : ∀ code, b.deliverPolicy ≠ .invalid code) :
    (applyDeliverPolicyOpts opts b).foldl SubOpt.apply s =
      { opts.foldl SubOpt.apply s with
        cfg.deliverPolicy := b.deliverPolicy
        cfg.optStartSeq := if b.deliverPolicy = .deliverByStartSequence then b.optStartSeq
          else (opts.foldl SubOpt.apply s).cfg.optStartSeq
        cfg.optStartTime := if b.deliverPolicy = .deliverByStartTime then b.optStartTime
          else (opts.foldl SubOpt.apply s).cfg.optStartTime } := by
  unfold applyDeliverPolicyOpts
  cases hd : b.deliverPolicy with
  | invalid code => exact absurd hd (hp code)
  | _ =>
      rw [List.foldl_append]
      rfl

/-- An option that is there only if `p` holds. -/
theorem foldl_optional {p : Prop} [Decidable p] {opt : SubOpt} :
    (if p then opts ++ [opt] else opts).foldl SubOpt.apply s =
      if p then opt.apply (opts.foldl SubOpt.apply s) else opts.foldl SubOpt.apply s := by
  split
  · rw [List.foldl_append]
    rfl
  · rfl

end

/-- The policies of an accepted binding are among the named ones. -/
theorem policies_of_accepted {b : ConsumerBinding} (h : validateConsumerBinding b = none) :
    (∀ code, b.ackPolicy ≠ .invalid code) ∧ (∀ code, b.deliverPolicy ≠ .invalid code) ∧
      ∀ code, b.replayPolicy ≠ .invalid code := by
  simp only [validateConsumerBinding, check_eq_none] at h
  obtain ⟨-, -, -, hdeliver, hack, hreplay, -⟩ := h
  refine ⟨fun code hcode => ?_, fun code hcode => ?_, fun code hcode => ?_⟩
  · simp [hcode] at hack
  · simp [hcode] at hdeliver
  · simp [hcode] at hreplay

/-- The options of an accepted binding ask for the consumer that it describes. -/
theorem resolve_consumerOptions {b : ConsumerSpec}
    (h : validateConsumerBinding b.toConsumerBinding = none) :
    resolve (subscribedSubject b) b.durable (consumerOptions b) =
      ⟨b.stream, (PullBinding.consumer b).wanted⟩ := by
  obtain ⟨hack, hdeliver, hreplay⟩ := policies_of_accepted h
  simp only [resolve, consumerOptions, foldl_optional, foldl_applyReplayPolicyOpts hreplay,
    foldl_applyDeliverPolicyOpts hdeliver, foldl_applyAckPolicyOpts hack, List.foldl_cons,
    List.foldl_nil, SubOpt.apply, subscribedSubject, PullBinding.wanted]
  -- what is left out as an option has its default in the binding, too
  by_cases hf : b.filterSubjects = [] <;> by_cases hb : b.backOff = [] <;>
    by_cases hr : b.rateLimitBits = 0 <;> by_cases hh : b.headersOnly = true <;>
    simp [hf, hb, hr, hh, Nat.pos_iff_ne_zero]

/-! ### What a request can do -/

theorem consumers_of_info {s : Cluster} {stream durable : String} {fault : StreamFault}
    {config : ConsumerConfig} (h : s.info stream durable fault = .ok config) :
    s.consumers stream durable = some config := by
  cases fault with
  | dropped | lost => cases h
  | ok =>
      simp only [Cluster.info] at h
      split at h
      · rename_i hs
        rw [hs, Except.ok.inj h]
      · cases h

/-- The request, if it is applied, may ask for `config` as a consumer of `stream`. -/
inductive Writes : SubscribeOp → String → ConsumerConfig → Prop
  | subscribe (subject durable : String) (opts : List SubOpt) :
      Writes (.pullSubscribe subject durable opts) (resolve subject durable opts).stream
        (resolve subject durable opts).cfg
  | update (stream : String) (config : ConsumerConfig) :
      Writes (.updateConsumer stream config) stream config

/-- All that a request can do to the consumers. -/
theorem consumers_op (ch : SubscribeChoice) (s : Cluster) (o : SubscribeOp) :
    (s.op ch o).1.consumers = s.consumers ∨
      ∃ stream config, Writes o stream config ∧
        (s.op ch o).1.consumers = (s.put stream config).consumers := by
  cases o with
  | pullSubscribe subject durable opts =>
      have hsub : (s.subscribe ch.upsert (resolve subject durable opts)).consumers = s.consumers ∨
          ∃ stream config, Writes (.pullSubscribe subject durable opts) stream config ∧
            (s.subscribe ch.upsert (resolve subject durable opts)).consumers =
              (s.put stream config).consumers := by
        unfold Cluster.subscribe
        split
        · exact .inr ⟨_, _, .subscribe subject durable opts, rfl⟩
        · exact .inl rfl
      simp only [Cluster.op]
      cases ch.fault with
      | ok | lost => exact hsub
      | dropped => exact .inl rfl
  | updateConsumer stream config =>
      simp only [Cluster.op]
      cases ch.fault with
      | ok | lost => exact .inr ⟨stream, config, .update stream config, rfl⟩
      | dropped => exact .inl rfl
  | _ => exact .inl rfl

/-! ### What one call may do -/

abbrev SubscribeHist := History subscribeSig

section
variable {modifier : Modifier} {B : PullBinding} {h h' : SubscribeHist}

/-- A call of `ensureStream` for the subjects has returned nil. -/
def EnsuredOf (modifier : Modifier) (name : String) (subjects : List String)
    (h : SubscribeHist) : Prop :=
  ∃ hk : StreamHist, (∀ x ∈ hk, streamEmbedding.answered x ∈ h) ∧
    ensurePost modifier name (subjects.map bytesOf) hk none

/-- The streams of the binding have been provisioned. -/
structure Provisioned (modifier : Modifier) (B : PullBinding) (h : SubscribeHist) : Prop where
  accepted : B.validate = none
  work : EnsuredOf modifier B.stream B.subjects h
  deadLetter : B.deadLetterSubject ≠ "" →
    EnsuredOf modifier (deadLetterStream B.stream) [B.deadLetterSubject] h

/-- The call has seen its consumer without a limit, or has lifted the limit. -/
def Lifted (B : PullBinding) (h : SubscribeHist) : Prop :=
  ∃ read, ⟨.consumerInfo B.stream B.name, .ok read⟩ ∈ h ∧
    (read.maxDeliver = -1 ∨ ⟨.updateConsumer B.stream read.unlimited, none⟩ ∈ h)

def subscribeGuard (modifier : Modifier) (B : PullBinding) (h : SubscribeHist) :
    SubscribeOp → Prop
  | .pullSubscribe subject durable opts =>
      B.validate = none ∧ resolve subject durable opts = ⟨B.stream, B.wanted⟩
  | .updateConsumer stream config => stream = B.stream ∧
      ∃ read, ⟨.consumerInfo B.stream B.name, .ok read⟩ ∈ h ∧ config = read.unlimited
  | .goFetchLoop _ => Provisioned modifier B h ∧ Lifted B h
  | _ => True

theorem EnsuredOf.mono {name : String} {subjects : List String}
    (he : EnsuredOf modifier name subjects h) (hh : h <:+ h') :
    EnsuredOf modifier name subjects h' := by
  obtain ⟨hk, hmem, hpost⟩ := he
  exact ⟨hk, fun x hx => hh.subset (hmem x hx), hpost⟩

theorem Provisioned.mono (hp : Provisioned modifier B h) (hh : h <:+ h') :
    Provisioned modifier B h' :=
  ⟨hp.accepted, hp.work.mono hh, fun hsub => (hp.deadLetter hsub).mono hh⟩

theorem Lifted.mono (hl : Lifted B h) (hh : h <:+ h') : Lifted B h' := by
  obtain ⟨read, hread, hlift⟩ := hl
  exact ⟨read, hh.subset hread, hlift.imp_right fun hmem => hh.subset hmem⟩

theorem guarded_ensureStreamOf (transport : ℕ) (name : String) (subjects : List String) :
    Guarded (subscribeGuard modifier B)
      (fun h' err => h <:+ h' ∧ (err = none → EnsuredOf modifier name subjects h')) h
      (ensureStreamOf transport modifier name subjects) := by
  refine (guarded_ensureStream (h := []) transport).embed (fun _ _ _ => trivial) ?_
  intro hk err hpost
  refine ⟨List.suffix_append _ _, fun herr => ⟨hk, fun x hx => ?_, fun _ => hpost herr⟩⟩
  exact List.mem_append_left _ (List.mem_map_of_mem hx)

theorem guarded_ensureUnlimited (stream durable : String) (hstream : stream = B.stream)
    (hname : durable = B.name) :
    Guarded (subscribeGuard modifier B)
      (fun h' err => h <:+ h' ∧ (err = none → Lifted B h')) h
      (ensureUnlimitedConsumerDeliveries stream durable) := by
  subst hstream hname
  unfold ensureUnlimitedConsumerDeliveries consumerInfo updateConsumer
  rw [guarded_perform_bind]
  refine ⟨trivial, fun r => ?_⟩
  cases r with
  | error err => exact ⟨List.suffix_cons _ _, fun herr => by cases herr⟩
  | ok read =>
      dsimp only
      split
      · rename_i hfree
        exact ⟨List.suffix_cons _ _, fun _ => ⟨read, List.mem_cons_self, .inl hfree⟩⟩
      · rw [guarded_perform_bind]
        refine ⟨⟨rfl, read, List.mem_cons_self, rfl⟩, fun r => ?_⟩
        have hsuf : h <:+ ⟨.updateConsumer B.stream read.unlimited, r⟩ ::
            ⟨.consumerInfo B.stream B.name, .ok read⟩ :: h :=
          (List.suffix_cons _ _).trans (List.suffix_cons _ _)
        cases r with
        | some err => exact ⟨hsuf, fun herr => by cases herr⟩
        | none =>
            refine ⟨hsuf, fun _ => ⟨read, ?_, .inr List.mem_cons_self⟩⟩
            exact List.mem_cons_of_mem _ List.mem_cons_self

/-- From the provisioned streams to the fetch loop. -/
theorem guarded_start (hp : Provisioned modifier B h) {stream subject durable : String}
    {opts : List SubOpt} (hstream : stream = B.stream) (hname : durable = B.name)
    (hopts : resolve subject durable opts = ⟨B.stream, B.wanted⟩) :
    Guarded (subscribeGuard modifier B) (fun _ _ => True) h
      (openUnlimited stream subject durable opts >>= startFetching) := by
  have hopen : Guarded (subscribeGuard modifier B)
      (fun h' r => h <:+ h' ∧ ∀ sub, r = .ok sub → Lifted B h') h
      (openUnlimited stream subject durable opts) := by
    unfold openUnlimited pullSubscribe unsubscribe
    rw [guarded_perform_bind]
    refine ⟨⟨hp.accepted, hopts⟩, fun r => ?_⟩
    cases r with
    | error err => exact ⟨List.suffix_cons _ _, fun _ hok => by cases hok⟩
    | ok sub =>
        refine (guarded_ensureUnlimited stream durable hstream hname).bind fun h' err he => ?_
        have hsuf := (List.suffix_cons _ _).trans he.1
        cases err with
        | some err =>
            exact ⟨trivial, fun _ => ⟨hsuf.trans (List.suffix_cons _ _), fun _ hok => by cases hok⟩⟩
        | none => exact ⟨hsuf, fun _ _ => he.2 rfl⟩
  refine hopen.bind fun h' r he => ?_
  cases r with
  | error err => trivial
  | ok sub =>
      have hsuf : h' <:+ ⟨.appendSub sub, ()⟩ :: h' := List.suffix_cons _ _
      exact ⟨trivial, fun _ => ⟨⟨hp.mono (he.1.trans hsuf), (he.2 sub rfl).mono hsuf⟩,
        fun _ => trivial⟩⟩

theorem guarded_subscribeConsumer (transport : ℕ) (b : ConsumerSpec) :
    Guarded (subscribeGuard modifier (.consumer b)) (fun _ _ => True) h
      (subscribeConsumer transport modifier b) := by
  unfold subscribeConsumer
  split
  · trivial
  · rename_i hvalid
    have hinfra : Guarded (subscribeGuard modifier (.consumer b))
        (fun h' err => err = none → Provisioned modifier (.consumer b) h') h
        (ensureConsumerInfra transport modifier b) := by
      unfold ensureConsumerInfra
      refine (guarded_ensureStreamOf transport b.stream (consumedSubjects b)).bind
        fun h₁ err hwork => ?_
      cases err with
      | some err => exact fun herr => by cases herr
      | none =>
          dsimp only
          split
          · refine (guarded_ensureStreamOf transport _ _).mono (fun _ _ hG => hG) ?_
            exact fun h₂ err hdead herr =>
              ⟨hvalid, (hwork.2 rfl).mono hdead.1, fun _ => hdead.2 herr⟩
          · rename_i hsub
            exact fun _ => ⟨hvalid, hwork.2 rfl, fun hne => absurd hne hsub⟩
    refine hinfra.bind fun h' err hp => ?_
    cases err with
    | some err => trivial
    | none => exact guarded_start (hp rfl) rfl rfl (resolve_consumerOptions hvalid)

theorem guarded_subscribeDurable (transport : ℕ) (b : DurableBinding) :
    Guarded (subscribeGuard modifier (.durable b)) (fun _ _ => True) h
      (subscribeDurable transport modifier b) := by
  unfold subscribeDurable
  split
  · trivial
  · rename_i hvalid
    have hinfra : Guarded (subscribeGuard modifier (.durable b))
        (fun h' err => err = none → Provisioned modifier (.durable b) h') h
        (ensureDurableInfra transport modifier b) := by
      unfold ensureDurableInfra
      refine (guarded_ensureStreamOf transport b.stream [b.subject]).bind fun h₁ err hwork => ?_
      cases err with
      | some err => exact fun herr => by cases herr
      | none =>
          refine (guarded_ensureStreamOf transport _ _).mono (fun _ _ hG => hG) ?_
          exact fun h₂ err hdead herr =>
            ⟨hvalid, (hwork.2 rfl).mono hdead.1, fun _ => hdead.2 herr⟩
    refine hinfra.bind fun h' err hp => ?_
    cases err with
    | some err => trivial
    | none => exact guarded_start (hp rfl) rfl rfl rfl

end

/-! ### Every set-up in every run -/

section
variable {modifier : ℕ → Modifier}

/-- Every call keeps its guard, and what it reads is the consumer it asks for. -/
def subscribing (modifier : ℕ → Modifier) : Contract (subscriptions modifier) where
  guard c := subscribeGuard (modifier c.transport) c.binding
  post _ _ _ := True
  sound _ x := ∀ stream durable config, x = ⟨.consumerInfo stream durable, .ok config⟩ →
    config.durable = durable
  program c := by
    cases hb : c.binding with
    | consumer b =>
        simp only [hb]
        exact guarded_subscribeConsumer _ b
    | durable b =>
        simp only [hb]
        exact guarded_subscribeDurable _ b
  answer ch s o := by
    intro stream durable config hx
    cases o with
    | consumerInfo stream' durable' =>
        obtain ⟨ho, hr⟩ := Answered.mk.inj hx
        cases ho
        exact s.named (consumers_of_info (eq_of_heq hr))
    | _ => cases congrArg Answered.op hx
  stable _ _ hx := hx

/-- What a write of a call is made of. -/
theorem allowed_write {m : Modifier} {B : PullBinding} {h : SubscribeHist} {o : SubscribeOp}
    {stream : String} {config : ConsumerConfig} (hg : subscribeGuard m B h o)
    (hw : Writes o stream config) :
    stream = B.stream ∧ config.maxDeliver = -1 ∧
      (B.validate = none ∧ config = B.wanted ∨
        ∃ read, ⟨.consumerInfo B.stream B.name, .ok read⟩ ∈ h ∧ config = read.unlimited) := by
  cases hw with
  | subscribe subject durable opts =>
      obtain ⟨hvalid, hopts⟩ := hg
      rw [hopts]
      exact ⟨rfl, B.maxDeliver_wanted, .inl ⟨hvalid, rfl⟩⟩
  | update stream config =>
      obtain ⟨rfl, read, hread, rfl⟩ := hg
      exact ⟨rfl, rfl, .inr ⟨read, hread, rfl⟩⟩

/-- The server delivers the messages of the consumer without a limit. -/
def Unlimited (s : Cluster) (stream durable : String) : Prop :=
  ∃ config, s.consumers stream durable = some config ∧ config.maxDeliver = -1

/-- What an answer says about limits, for good. -/
structure Frees (s : Cluster) (x : Answered subscribeSig) : Prop where
  read : ∀ stream durable config, x = ⟨.consumerInfo stream durable, .ok config⟩ →
    config.maxDeliver = -1 → Unlimited s stream durable
  updated : ∀ stream config, x = ⟨.updateConsumer stream config, none⟩ →
    config.maxDeliver = -1 → Unlimited s stream config.durable

/-- Limits that a call has seen lifted are lifted. -/
structure Lasting (w : World (subscriptions modifier)) : Prop where
  ok : (subscribing modifier).Ok w
  frees : ∀ (t : ℕ) (th : Thread (subscriptions modifier)), w.threads[t]? = some th →
    ∀ x ∈ th.hist, Frees w.state x

theorem Lasting.unlimited {w : World (subscriptions modifier)} (hw : Lasting w) {t : ℕ}
    {th : Thread (subscriptions modifier)} (ht : w.threads[t]? = some th)
    (hl : Lifted th.call.binding th.hist) :
    Unlimited w.state th.call.binding.stream th.call.binding.name := by
  obtain ⟨read, hread, hfree | hupdated⟩ := hl
  · exact (hw.frees t th ht _ hread).read _ _ _ rfl hfree
  · have hname : read.durable = th.call.binding.name :=
      (hw.ok t th ht).sound _ hread _ _ _ rfl
    rw [← hname]
    exact (hw.frees t th ht _ hupdated).updated _ read.unlimited rfl rfl

/-- A consumer of orders that dead-letters. -/
def ordersWorker : PullBinding :=
  .consumer
    { stream := "O", subject := "o.*", durable := "W", maxDeliver := .one, ackWait := 1
      maxAckPending := 1, deadLetterSubject := "dead" }

/-- No streams, and a consumer with a limit. -/
def limitedCluster : Cluster where
  server := .empty
  consumers stream durable :=
    if stream = "O" ∧ durable = "W" then
      some { durable := "W", filterSubject := "o.*", ackWait := 1, maxDeliver := 4,
             maxAckPending := 1 }
    else none
  named {stream durable config} h := by
    split at h
    · rename_i heq
      rw [← Option.some.inj h, heq.2]
    · cases h
  complete {stream durable config} h := by
    split at h
    · rw [← Option.some.inj h]
      rfl
    · cases h
  opened := 0

/-- Two transports set up the same consumer. Both read its configuration before
either of them writes it back. -/
def racingSetups : List (Act (subscriptions plain)) :=
  [.spawn ⟨0, ordersWorker⟩, .spawn ⟨1, ordersWorker⟩] ++ List.replicate 10 (.step 0 {}) ++
    List.replicate 8 (.step 1 {}) ++ List.replicate 3 (.step 0 {}) ++
    List.replicate 3 (.step 1 {})

/-- The configuration is the one from the start, but for its limit, or the one that an
accepted binding of some call asks for, completed. -/
def Stems (s₀ : Cluster) (w : World (subscriptions modifier)) (stream durable : String)
    (config : ConsumerConfig) : Prop :=
  (∃ old, s₀.consumers stream durable = some old ∧ (config = old ∨ config = old.unlimited)) ∨
    ∃ (t : ℕ) (th : Thread (subscriptions modifier)), w.threads[t]? = some th ∧
      th.call.binding.validate = none ∧ th.call.binding.stream = stream ∧
      th.call.binding.name = durable ∧ config = th.call.binding.wanted.completed

theorem Stems.later {s₀ : Cluster} {w w' : World (subscriptions modifier)}
    {a : Act (subscriptions modifier)} (hm : w.Moves a w') {stream durable : String}
    {config : ConsumerConfig} (h : Stems s₀ w stream durable config) :
    Stems s₀ w' stream durable config := by
  refine h.imp_right ?_
  rintro ⟨t, th, ht, hcall⟩
  obtain ⟨th', ht', hlater⟩ := hm.thread ht
  exact ⟨t, th', ht', by rw [hlater.call]; exact hcall⟩

theorem Stems.unlimited {s₀ : Cluster} {w : World (subscriptions modifier)}
    {stream durable : String} {config : ConsumerConfig}
    (h : Stems s₀ w stream durable config) : Stems s₀ w stream durable config.unlimited := by
  rcases h with ⟨old, hold, rfl | rfl⟩ | ⟨t, th, ht, hvalid, hstream, hname, rfl⟩
  · exact .inl ⟨_, hold, .inr rfl⟩
  · exact .inl ⟨_, hold, .inr rfl⟩
  · refine .inr ⟨t, th, ht, hvalid, hstream, hname, ?_⟩
    cases th.call.binding <;> rfl

/-- The server has nothing to add to it. -/
theorem Stems.complete {s₀ : Cluster} {w : World (subscriptions modifier)}
    {stream durable : String} {config : ConsumerConfig}
    (h : Stems s₀ w stream durable config) : config.completed = config := by
  rcases h with ⟨old, hold, rfl | rfl⟩ | ⟨t, th, -, -, -, -, rfl⟩
  · exact s₀.complete hold
  · rw [ConsumerConfig.completed_unlimited, s₀.complete hold]
  · exact ConsumerConfig.completed_completed _

/-- Where what is configured, and what a call has read, comes from. -/
structure Attributed (s₀ : Cluster) (w : World (subscriptions modifier)) : Prop where
  ok : (subscribing modifier).Ok w
  stored : ∀ {stream durable config}, w.state.consumers stream durable = some config →
    Stems s₀ w stream durable config
  read : ∀ (t : ℕ) (th : Thread (subscriptions modifier)), w.threads[t]? = some th →
    ∀ stream durable config, ⟨.consumerInfo stream durable, .ok config⟩ ∈ th.hist →
      Stems s₀ w stream durable config

/-- What a call writes stems from where its binding or its reading does. -/
theorem Attributed.write {s₀ : Cluster} {w : World (subscriptions modifier)}
    (hw : Attributed s₀ w) {t : ℕ} {c : SubscribeCall} {h : SubscribeHist} {o : SubscribeOp}
    {k : o.Ret → Subscribe (Option Err)} (ht : w.threads[t]? = some ⟨c, h, .call o k⟩)
    {stream : String} {config : ConsumerConfig} (hwrites : Writes o stream config) :
    Stems s₀ w stream config.durable config.completed := by
  obtain ⟨rfl, -, ⟨hvalid, rfl⟩ | ⟨read, hread, rfl⟩⟩ := allowed_write (hw.ok.guard ht) hwrites
  · exact .inr ⟨t, _, ht, hvalid, rfl, (PullBinding.durable_wanted _).symm, rfl⟩
  · have hname : read.durable = c.binding.name := (hw.ok t _ ht).sound _ hread _ _ _ rfl
    have hstems := hw.read t _ ht _ _ _ hread
    rw [ConsumerConfig.completed_unlimited, hstems.complete]
    rw [← hname] at hstems
    exact hstems.unlimited

theorem attributed_moves {s₀ : Cluster} {w w' : World (subscriptions modifier)}
    {a : Act (subscriptions modifier)} (hm : w.Moves a w') (hw : Attributed s₀ w) :
    Attributed s₀ w' where
  ok := (subscribing modifier).ok_moves hm hw.ok
  stored {stream durable config} hs := by
    refine Stems.later hm ?_
    cases hm with
    | idle => exact hw.stored hs
    | enter h =>
        cases h
        exact hw.stored hs
    | @perform t ch c h o k ht =>
        change (w.state.op ch o).1.consumers stream durable = some config at hs
        rcases consumers_op ch w.state o with heq | ⟨stream', config', hwrites, heq⟩
        · rw [heq] at hs
          exact hw.stored hs
        · rw [heq] at hs
          simp only [Cluster.put] at hs
          split at hs
          · rename_i hput
            obtain ⟨rfl, rfl⟩ := hput
            obtain rfl := Option.some.inj hs
            exact hw.write ht hwrites
          · exact hw.stored hs
    | env e => exact e.elim
  read := by
    have hm' := hm
    refine hm.forall_threads (P := fun s th => ∀ stream durable config,
      ⟨.consumerInfo stream durable, .ok config⟩ ∈ th.hist → Stems s₀ w' stream durable config)
      (fun t th ht stream durable config hx => (hw.read t th ht _ _ _ hx).later hm')
      (fun th hth => hth) (fun c _ _ _ hx => by cases hx) ?_
    intro t ch c h o k _ ht hs stream durable config hx
    refine Stems.later hm' ?_
    rcases List.mem_cons.mp hx with heq | hx
    · cases o with
      | consumerInfo stream' durable' =>
          obtain ⟨ho, hr⟩ := Answered.mk.inj heq
          cases ho
          exact hw.stored (consumers_of_info (eq_of_heq hr).symm)
      | _ => cases congrArg Answered.op heq
    · exact hw.read t _ ht _ _ _ hx

/-- In every run of any number of set-ups, every consumer has the configuration
from the start, but for the limit on deliveries, or exactly the one that an
accepted binding of one of the calls asks for, as the server completes it:
concurrent updates mix nothing up. -/
theorem consumers_attributed (modifier : ℕ → Modifier) (s₀ : Cluster)
    (acts : List (Act (subscriptions modifier))) (stream durable : String)
    (config : ConsumerConfig)
    (h : ((World.init (M := subscriptions modifier) s₀).run acts).state.consumers stream durable =
      some config) :
    Stems s₀ ((World.init (M := subscriptions modifier) s₀).run acts) stream durable config :=
  have hinit : Attributed s₀ (World.init (M := subscriptions modifier) s₀) :=
    ⟨(subscribing modifier).ok_init s₀, fun hs => .inl ⟨_, hs, .inl rfl⟩,
      fun t th ht => by simp [World.init] at ht⟩
  (World.run_invariant attributed_moves hinit acts).stored h

/-- After the race only the limit of the consumer has changed. -/
theorem consumers_attributed_racing :
    ((World.init (M := subscriptions plain) limitedCluster).run racingSetups).state.consumers
        "O" "W" = some { durable := "W", filterSubject := "o.*", ackWait := 1, maxDeliver := -1,
                         maxAckPending := 1 } ∧
      Stems limitedCluster ((World.init (M := subscriptions plain) limitedCluster).run racingSetups)
        "O" "W" { durable := "W", filterSubject := "o.*", ackWait := 1, maxDeliver := -1,
                  maxAckPending := 1 } :=
  ⟨rfl, consumers_attributed plain limitedCluster racingSetups "O" "W" _ rfl⟩

end

end TransportNats.Subscription
