import TransportNats.Idempotency.Endings

/-!
Whether the client learns what happened at the server.

A topic marks a reply with an error by a header, and the client looks for that
header. A micro service reports an error in the headers of the micro package,
which the client does not look at: the reply has an empty body and no marker,
and the client takes it for a success. So for a service, client and server agree
only about actions that succeed.

What the server has to tell is what became of its action. An idempotent topic
can fail to: if the renewal of its lease has failed, it reports that instead of
the action's own error, and after a success it reports the renewal, or a
completion that was refused, and not the result.
-/

namespace TransportNats.Rpc

open Interleaving Idempotency Program

section
variable {R : Runtime}

/-! ### Outcomes -/

/-- The action has succeeded, and its result can be marshalled. -/
def Marshalled (R : Runtime) (msg : Msg) (h : ExecHist R) : Prop :=
  ∃ v body, ⟨.executeDecoded msg, .value v⟩ ∈ h ∧ R.marshal v = .ok body

/-- The action has failed with an error of kind `k`, or its result could not be
marshalled, which is an internal error. -/
def ActionKind (R : Runtime) (P : Platform) (msg : Msg) (h : ExecHist R) (k : Kind) : Prop :=
  (∃ err, ⟨.executeDecoded msg, .failed err⟩ ∈ h ∧ k = P.kind err) ∨
    ∃ v err, ⟨.executeDecoded msg, .value v⟩ ∈ h ∧ R.marshal v = .error err ∧ k = .internal

/-- The action has succeeded and its result was marshalled, now or in one of the
successful `runs` so far whose stored result is replayed. -/
def Succeeded (R : Runtime) (runs : List (Msg × R.Value)) (msg : Msg) (h : ExecHist R) :
    Endpoint → Prop
  | .topic kind actionMeta | .request kind actionMeta =>
      Marshalled R msg h ∨
        ∃ cfg entry, actionMeta = some cfg ∧ Unexecuted R cfg msg kind h (.ok entry) ∧
          ∃ m v, (m, v) ∈ runs ∧ R.marshal v = .ok entry.body
  | .service => Marshalled R msg h

/-- The action has produced an error of kind `k`, or it was refused with one. -/
def ProducedKind (R : Runtime) (P : Platform) (msg : Msg) (h : ExecHist R) (k : Kind) :
    Endpoint → Prop
  | .topic kind actionMeta | .request kind actionMeta =>
      ActionKind R P msg h k ∨
        ∃ cfg err, actionMeta = some cfg ∧ Unexecuted R cfg msg kind h (.error err) ∧
          k = P.kind err
  | .service => ActionKind R P msg h k

/-- The client gets nil exactly if the action has succeeded and its result was
marshalled, and else an error of the kind that was produced. -/
def Agrees (R : Runtime) (P : Platform) (runs : List (Msg × R.Value)) (endpoint : Endpoint)
    (msg : Msg) (h : ExecHist R) (err : Option Err) : Prop :=
  (Succeeded R runs msg h endpoint → err = none) ∧
    (¬ Succeeded R runs msg h endpoint →
      ∃ e, err = some e ∧ ProducedKind R P msg h (P.kind e) endpoint)

/-- For a service, the action has succeeded and its result was marshalled. For a
topic or a request binding, no renewal of the lease has failed, or it has done so
with an error of the very kind of the action's; and no `Complete` was refused
after a success. -/
def Tellable (R : Runtime) (P : Platform) (msg : Msg) (h : ExecHist R) : Endpoint → Prop
  | .topic kind actionMeta | .request kind actionMeta =>
      (∀ err, ⟨.renewalError, some err⟩ ∈ h → ActionKind R P msg h (P.kind err)) ∧
        (Marshalled R msg h → ∀ cfg, actionMeta = some cfg → ¬ CompleteRefused R cfg msg kind h)
  | .service => Marshalled R msg h

/-! ### Micro services -/

theorem marshalled_singleton {msg : Msg} {outcome : Outcome R.Value} :
    Marshalled R msg [⟨.executeDecoded msg, outcome⟩] ↔
      ∃ v body, outcome = .value v ∧ R.marshal v = .ok body := by
  constructor
  · rintro ⟨v, body, hmem, hm⟩
    have heq := (Answered.mk.inj (List.mem_singleton.mp hmem)).2
    exact ⟨v, body, (eq_of_heq heq).symm, hm⟩
  · rintro ⟨v, body, rfl, hm⟩
    exact ⟨v, body, List.mem_singleton_self _, hm⟩

/-- The action is run once, and its outcome decides. -/
theorem returns_executeDecoded {α : Type} {msg : Msg} {f : Outcome R.Value → α} {h : ExecHist R}
    {a : α} (hret : (do return f (← executeDecoded msg) : Exec R α).Returns h a) :
    ∃ outcome, h = [⟨.executeDecoded msg, outcome⟩] ∧ a = f outcome := by
  cases hret with
  | @call _ _ outcome _ _ hret =>
      cases hret
      exact ⟨outcome, rfl, rfl⟩

/-- A service responds if its action has succeeded and the result was
marshalled, and only then. -/
theorem returns_microReply {msg : Msg} {h : ExecHist R} {r : MicroReply}
    (hret : (microReply R msg).Returns h r) :
    (∃ v payload, ⟨.executeDecoded msg, .value v⟩ ∈ h ∧ R.marshal v = .ok payload ∧
        r = .respond payload) ∨
      ¬ Marshalled R msg h ∧ ∀ payload, r ≠ .respond payload := by
  obtain ⟨outcome, rfl, rfl⟩ := returns_executeDecoded hret
  rw [marshalled_singleton]
  cases outcome with
  | panicked => exact .inr ⟨by simp, nofun⟩
  | failed err => exact .inr ⟨by simp, nofun⟩
  | value v =>
      cases hm : R.marshal v with
      | ok payload =>
          exact .inl ⟨v, payload, List.mem_singleton_self _, hm, by simp only [microResult, hm]⟩
      | error err => exact .inr ⟨by simp [hm], by simp [microResult, hm]⟩

/-! ### What the client makes of a reply -/

/-- The other packages keep their promises: `xerr.From` leaves an error of the
package as it is, the codec takes error responses back as they were, every public
error has a text, and an error made from a public one has the kind of the
original. -/
structure Client.Lawful (C : Client R) (P : Platform) : Prop where
  apps : ∀ k text err, P.kind (.appOf k text err) = k
  responses : ∀ r, ∃ b, R.marshalResponse r = .ok b ∧ C.unmarshalResponse b = .ok r
  texts : ∀ err, C.errorField (R.toPublic err) ≠ ""
  kinds : ∀ err, ∃ e, C.fromPublic (R.toPublic err) = some e ∧ P.kind e = P.kind err

variable {P : Platform} {C : Client R} {wire : WireReply} {replyTo requestID : String}

theorem topicWire_eq_some {body : Bytes} {err : Option Err}
    (h : topicWire P replyTo requestID (.returned body err) = some wire) :
    wire.data = body ∧ (wire.headerGet headerErrorMarker = "1" ↔ err.isSome) := by
  have hne := P.headerRequestID_ne
  simp only [topicWire] at h
  split at h
  · obtain rfl := Option.some.inj h
    refine ⟨rfl, ?_⟩
    cases err <;> by_cases hid : requestID = "" <;>
      simp [WireReply.headerGet, hid, hne]
  · cases h

/-- A marked reply with a public error is an error of its kind. -/
theorem request_of_error (hC : C.Lawful P) {err : Err}
    (hmark : wire.headerGet headerErrorMarker = "1") (hdata : wire.data = (encodeError R err).1)
    (data : Bytes) (resPtr : Option (Bytes → Except Err Unit)) :
    ∃ e, request C none (.ok data) (fun _ => .ok wire) resPtr = some e ∧ P.kind e = P.kind err := by
  obtain ⟨b, hb, hunmarshal⟩ := hC.responses (R.toPublic err)
  obtain ⟨e, he, hkind⟩ := hC.kinds err
  have hbody : wire.data = b := by
    rw [hdata, encodeError, hb]
  refine ⟨e, ?_, hkind⟩
  simp only [request, hmark, hbody, hunmarshal, he, if_pos (hC.texts err), if_true]

/-- An unmarked reply whose body can be unmarshalled is a success. -/
theorem request_of_unmarked (hmark : wire.headerGet headerErrorMarker ≠ "1") (data : Bytes)
    (resPtr : Option (Bytes → Except Err Unit))
    (hbody : wire.data = [] ∨ ∀ unmarshal, resPtr = some unmarshal → unmarshal wire.data = .ok ()) :
    request C none (.ok data) (fun _ => .ok wire) resPtr = none := by
  simp only [request, if_neg hmark]
  cases resPtr with
  | none => rfl
  | some unmarshal =>
      dsimp only
      split
      · rename_i hne
        rw [hbody.resolve_left hne unmarshal rfl]
      · rfl

/-! ### Topics -/

variable {msg : Msg} {h : ExecHist R} {runs : List (Msg × R.Value)}
  {resPtr : Option (Bytes → Except Err Unit)}

section
variable {kind : StoreKind} {actionMeta : Option IdempotencyConfig} {outcome : Outcome R.Value}
  {renewal : Option Err}

theorem marshalled_iff_of_ran (hran : Ran msg h outcome renewal) :
    Marshalled R msg h ↔ ∃ v body, outcome = .value v ∧ R.marshal v = .ok body := by
  simp only [Marshalled, hran.runs, true_and, eq_comm]

theorem actionKind_iff_of_ran (hran : Ran msg h outcome renewal) {k : Kind} :
    ActionKind R P msg h k ↔ (∃ err, outcome = .failed err ∧ k = P.kind err) ∨
      ∃ v err, outcome = .value v ∧ R.marshal v = .error err ∧ k = .internal := by
  simp only [ActionKind, hran.runs, true_and, eq_comm (b := outcome)]

/-- What is replayed or refused was not run. -/
theorem not_unexecuted_of_ran (hran : Ran msg h outcome renewal) {cfg : IdempotencyConfig}
    {res : Except Err IdempotencyEntry} : ¬ Unexecuted R cfg msg kind h res :=
  fun hu => (hu.aside _ ((hran.runs msg outcome).mpr ⟨rfl, rfl⟩)).1 msg rfl

theorem not_marshalled_of_actionKind (hran : Ran msg h outcome renewal) {k : Kind}
    (hk : ActionKind R P msg h k) : ¬ Marshalled R msg h := by
  intro hm
  obtain ⟨v, body, rfl, hv⟩ := (marshalled_iff_of_ran hran).mp hm
  rcases (actionKind_iff_of_ran hran).mp hk with ⟨err, hout, -⟩ | ⟨v', err, hout, hv', -⟩
  · cases hout
  · obtain rfl := Outcome.value.inj hout
    cases hv.symm.trans hv'

/-- If the action was run, an error agrees with it exactly if it has the kind of
the action's. -/
theorem agrees_error_iff (hran : Ran msg h outcome renewal) {e : Err} :
    Agrees R P runs (.topic kind actionMeta) msg h (some e) ↔ ActionKind R P msg h (P.kind e) := by
  constructor
  · rintro ⟨hnil, herr⟩
    obtain ⟨e', he, hk | ⟨cfg, err, -, hu, -⟩⟩ := herr fun hs => by cases hnil hs
    · obtain rfl := Option.some.inj he
      exact hk
    · exact absurd hu (not_unexecuted_of_ran hran)
  · intro hk
    refine ⟨fun hs => ?_, fun _ => ⟨e, rfl, .inl hk⟩⟩
    rcases hs with hm | ⟨cfg, entry, -, hu, -⟩
    · exact absurd hm (not_marshalled_of_actionKind hran hk)
    · exact absurd hu (not_unexecuted_of_ran hran)

/-- An error of the action itself can be told, unless a renewal has failed too. -/
theorem tellable_of_actionKind (hran : Ran msg h outcome none) {k : Kind}
    (hk : ActionKind R P msg h k) : Tellable R P msg h (.topic kind actionMeta) := by
  refine ⟨fun err hmem => ?_, fun hm => absurd hm (not_marshalled_of_actionKind hran hk)⟩
  cases (hran.renewals err).mp hmem

/-- What the client gets for an error of the handler of a topic. -/
theorem request_of_failReply (hC : C.Lawful P) {err : Err}
    (hwire : topicWire P replyTo requestID (failReply R err) = some wire)
    (data : Bytes) (resPtr : Option (Bytes → Except Err Unit)) :
    ∃ e, request C none (.ok data) (fun _ => .ok wire) resPtr = some e ∧
      P.kind e = P.kind err := by
  rw [failReply_eq] at hwire
  obtain ⟨hdata, hmark⟩ := topicWire_eq_some hwire
  exact request_of_error hC (hmark.mpr rfl) hdata data resPtr

/-- What the client gets for a body without an error. -/
theorem request_of_returned (hcodec : ∀ unmarshal, resPtr = some unmarshal → ∀ v body,
      R.marshal v = .ok body → unmarshal body = .ok ()) {v : R.Value} {body : Bytes}
    (hv : R.marshal v = .ok body)
    (hwire : topicWire P replyTo requestID (.returned body none) = some wire) (data : Bytes) :
    request C none (.ok data) (fun _ => .ok wire) resPtr = none := by
  obtain ⟨hdata, hmark⟩ := topicWire_eq_some hwire
  refine request_of_unmarked (fun h1 => by simpa using hmark.mp h1) data resPtr (.inr ?_)
  intro unmarshal hp
  rw [hdata]
  exact hcodec unmarshal hp v body hv

/-- An action that is not idempotent is run, and nothing else. -/
theorem ran_of_plain : Ran (R := R) msg [⟨.executeDecoded msg, outcome⟩] outcome none := by
  have hran : Ran (R := R) msg ([] ++ ([] ++ ⟨.executeDecoded msg, outcome⟩ :: [])) outcome none :=
    ran_of_unasked aside_nil aside_nil aside_nil
  exact hran

/-- Without idempotency a topic can tell every outcome. -/
theorem tellable_of_plain :
    Tellable R P msg [⟨.executeDecoded msg, outcome⟩] (.topic kind none) := by
  refine ⟨fun err hmem => ?_, fun _ cfg hcfg => ?_⟩
  · cases (ran_of_plain.renewals err).mp hmem
  · cases hcfg

-- from here on, the other packages keep their promises and the codec takes results back
variable (hC : C.Lawful P) (hcodec : ∀ unmarshal, resPtr = some unmarshal → ∀ v body,
  R.marshal v = .ok body → unmarshal body = .ok ()) {cfg : IdempotencyConfig} {r : Reply}

include hC hcodec

/-- The client of a topic whose handler has run the action. -/
theorem agrees_of_concludes (hret : (topicReply R kind (some cfg) msg).Returns h r)
    (hran : Ran msg h outcome renewal)
    (hend : Concludes R cfg msg kind h outcome renewal r)
    (hwire : topicWire P replyTo requestID r = some wire) :
    Agrees R P runs (.topic kind (some cfg)) msg h
        (request C none (.ok msg.data) (fun _ => .ok wire) resPtr) ↔
      Tellable R P msg h (.topic kind (some cfg)) := by
  cases hend with
  | panicked => cases hwire
  | @leaseLost _ err hne =>
      obtain ⟨e, he, hkind⟩ := request_of_failReply hC hwire msg.data resPtr
      rw [he, agrees_error_iff hran, hkind]
      constructor
      · intro hk
        refine ⟨fun err' hmem => ?_, fun hm => absurd hm (not_marshalled_of_actionKind hran hk)⟩
        obtain rfl := Option.some.inj ((hran.renewals err').mp hmem)
        exact hk
      · intro htell
        exact htell.1 err ((hran.renewals err).mpr rfl)
  | failed =>
      obtain ⟨e, he, hkind⟩ := request_of_failReply hC hwire msg.data resPtr
      have hk := (actionKind_iff_of_ran (P := P) hran).mpr (.inl ⟨_, rfl, hkind⟩)
      rw [he, agrees_error_iff hran]
      exact iff_of_true hk (tellable_of_actionKind hran hk)
  | unmarshalled hm =>
      obtain ⟨e, he, hkind⟩ := request_of_failReply hC hwire msg.data resPtr
      have hk := (actionKind_iff_of_ran (P := P) hran).mpr
        (.inr ⟨_, _, rfl, hm, hkind.trans (hC.apps _ _ _)⟩)
      rw [he, agrees_error_iff hran]
      exact iff_of_true hk (tellable_of_actionKind hran hk)
  | refused hm hc =>
      obtain ⟨e, he, -⟩ := request_of_failReply hC hwire msg.data resPtr
      have hmar := (marshalled_iff_of_ran hran).mpr ⟨_, _, rfl, hm⟩
      rw [he, agrees_error_iff hran]
      exact iff_of_false (fun hk => not_marshalled_of_actionKind hran hk hmar)
        fun htell => htell.2 hmar cfg rfl hc
  | completed hm =>
      rw [request_of_returned hcodec hm hwire]
      have hmar := (marshalled_iff_of_ran hran).mpr ⟨_, _, rfl, hm⟩
      refine iff_of_true ⟨fun _ => rfl, fun hno => absurd (.inl hmar) hno⟩ ⟨fun err hmem => ?_, ?_⟩
      · cases (hran.renewals err).mp hmem
      · rintro - cfg' hcfg hc
        obtain rfl := Option.some.inj hcfg
        obtain ⟨err, hr⟩ := hc.reply hret
        rw [failReply_eq] at hr
        cases hr

/-- The client of a topic whose handler has not run the action. -/
theorem agrees_of_unexecuted {res : Except Err IdempotencyEntry}
    (hu : Unexecuted R cfg msg kind h res)
    (hbody : ∀ entry, res = .ok entry → ∃ m v, (m, v) ∈ runs ∧ R.marshal v = .ok entry.body)
    (hwire : topicWire P replyTo requestID (unexecutedReply R res) = some wire) :
    Agrees R P runs (.topic kind (some cfg)) msg h
        (request C none (.ok msg.data) (fun _ => .ok wire) resPtr) ↔
      Tellable R P msg h (.topic kind (some cfg)) := by
  have hmar : ¬ Marshalled R msg h := by
    rintro ⟨v, body, hmem, -⟩
    exact (hu.aside _ hmem).1 msg rfl
  have htell : Tellable R P msg h (.topic kind (some cfg)) :=
    ⟨fun err hmem => absurd rfl (hu.aside _ hmem).2, fun hm => absurd hm hmar⟩
  refine iff_of_true ?_ htell
  cases res with
  | ok entry =>
      obtain ⟨m, v, hrun, hv⟩ := hbody entry rfl
      rw [request_of_returned hcodec hv hwire]
      exact ⟨fun _ => rfl, fun hno => absurd (.inr ⟨cfg, entry, rfl, hu, m, v, hrun, hv⟩) hno⟩
  | error err =>
      obtain ⟨e, he, hkind⟩ := request_of_failReply hC hwire msg.data resPtr
      rw [he]
      refine ⟨fun hs => ?_, fun _ => ⟨e, rfl, .inr ⟨cfg, err, rfl, hu, hkind⟩⟩⟩
      rcases hs with hm | ⟨cfg', entry, hcfg, hu', -⟩
      · exact absurd hm hmar
      · obtain rfl := Option.some.inj hcfg
        exact absurd hu hu'.not_refused

/-- The client of a topic whose action is not idempotent. -/
theorem agrees_of_plain
    (hwire : topicWire P replyTo requestID (directReply R outcome) = some wire) :
    Agrees R P runs (.topic kind none) msg [⟨.executeDecoded msg, outcome⟩]
      (request C none (.ok msg.data) (fun _ => .ok wire) resPtr) := by
  have hran : Ran (R := R) msg [⟨.executeDecoded msg, outcome⟩] outcome none := ran_of_plain
  cases outcome with
  | panicked => cases hwire
  | failed err =>
      obtain ⟨e, he, hkind⟩ := request_of_failReply hC hwire msg.data resPtr
      rw [he, agrees_error_iff hran, actionKind_iff_of_ran hran]
      exact .inl ⟨err, rfl, hkind⟩
  | value v =>
      simp only [directReply] at hwire
      split at hwire
      · rename_i body hm
        rw [request_of_returned hcodec hm hwire]
        have hmar := (marshalled_iff_of_ran hran).mpr ⟨_, _, rfl, hm⟩
        exact ⟨fun _ => rfl, fun hno => absurd (.inl hmar) hno⟩
      · rename_i err hm
        obtain ⟨e, he, hkind⟩ := request_of_failReply hC hwire msg.data resPtr
        rw [he, agrees_error_iff hran, actionKind_iff_of_ran hran]
        exact .inr ⟨v, err, rfl, hm, hkind.trans (hC.apps _ _ _)⟩

/-- What a client makes of the reply of a topic whose handler returned `r`. -/
theorem agrees_topic (hret : (topicReply R kind actionMeta msg).Returns h r)
    (hbody : ∀ body, r = .returned body none →
      ∃ m v, (m, v) ∈ runs ∧ R.marshal v = .ok body)
    (hwire : topicWire P replyTo requestID r = some wire) :
    Agrees R P runs (.topic kind actionMeta) msg h
        (request C none (.ok msg.data) (fun _ => .ok wire) resPtr) ↔
      Tellable R P msg h (.topic kind actionMeta) := by
  cases actionMeta with
  | none =>
      obtain ⟨outcome, rfl, rfl⟩ := returns_executeDecoded hret
      exact iff_of_true (agrees_of_plain hC hcodec hwire) tellable_of_plain
  | some cfg =>
      rcases endsAs_of_returns hret with ⟨res, hu, rfl⟩ | ⟨_, _, hran, hend⟩
      · refine agrees_of_unexecuted hC hcodec hu (fun entry hres => ?_) hwire
        subst hres
        exact hbody entry.body rfl
      · exact agrees_of_concludes hC hcodec hret hran hend hwire

end

/-! ### Agreement -/

/-- What a client makes of the reply of a service. -/
theorem agrees_service (hcodec : ∀ unmarshal, resPtr = some unmarshal → ∀ v body,
      R.marshal v = .ok body → unmarshal body = .ok ())
    {r : MicroReply} (hret : (microReply R msg).Returns h r) (hwire : microWire P r = some wire) :
    Agrees R P runs .service msg h (request C none (.ok msg.data) (fun _ => .ok wire) resPtr) ↔
      Tellable R P msg h .service := by
  have hunmarked : wire.headerGet headerErrorMarker ≠ "1" ∧
      (wire.data = [] ∨ r = .respond wire.data) := by
    cases r with
    | panicked => cases hwire
    | respond payload =>
        cases hwire
        exact ⟨by simp [WireReply.headerGet], .inr rfl⟩
    | execFailed err =>
        cases hwire
        exact ⟨by simp [WireReply.headerGet, microError, headerErrorMarker], .inl rfl⟩
    | marshalFailed =>
        cases hwire
        exact ⟨by simp [WireReply.headerGet, microError, headerErrorMarker], .inl rfl⟩
  rcases returns_microReply hret with ⟨v, payload, hmem, hm, rfl⟩ | ⟨hno, hne⟩
  · have hdata : payload = wire.data := by
      cases hwire
      rfl
    have hnone := request_of_unmarked (C := C) hunmarked.1 msg.data resPtr
      (.inr fun unmarshal hp => hcodec unmarshal hp v _ (hdata ▸ hm))
    rw [hnone]
    have hsucc : Marshalled R msg h := ⟨v, payload, hmem, hm⟩
    exact iff_of_true ⟨fun _ => rfl, fun hn => absurd hsucc hn⟩ hsucc
  · -- the client does not see the error
    have hempty := hunmarked.2.resolve_right (hne _)
    rw [request_of_unmarked (C := C) hunmarked.1 msg.data resPtr (.inl hempty)]
    refine iff_of_false (fun hagree => ?_) hno
    obtain ⟨e, he, -⟩ := hagree.2 hno
    cases he

/-- Agreement of client and server. In every run over stores that only
executions write to, a client whose request was answered gets nil exactly if the
action has succeeded and its result was marshalled, and else an error of the kind
that the action has produced or was refused with, if and only if the outcome is
one that the endpoint can tell. -/
theorem agrees_iff_tellable (R : Runtime) (P : Platform) (C : Client R) (hC : C.Lawful P)
    (resPtr : Option (Bytes → Except Err Unit))
    (hcodec : ∀ unmarshal, resPtr = some unmarshal → ∀ v body, R.marshal v = .ok body →
      unmarshal body = .ok ())
    (clock : I64) (issued : List String) (acts : List (Act (executor R))) (t : ℕ)
    (th : Thread (executor R)) (endpoint : Endpoint) (msg : Msg) (a : Answer)
    (replyTo requestID : String) (wire : WireReply)
    (ht : ((World.init (ExecState.fresh clock issued)).run acts).threads[t]? = some th)
    (hcall : th.call = .serve endpoint msg) (hres : th.rest.result? = some (.answered a))
    (hwire : a.wire P replyTo requestID = some wire) :
    Agrees R P ((World.init (ExecState.fresh clock issued)).run acts).state.runs endpoint msg
        th.hist (request C none (.ok msg.data) (fun _ => .ok wire) resPtr) ↔
      Tellable R P msg th.hist endpoint := by
  have hw := World.run_invariant replayable_moves (replayable_init (R := R) clock issued) acts
  have hpost := hw.ok.post ht hres
  rw [hcall] at hpost
  have htopic : ∀ {kind actionMeta r},
      (topicReply R kind actionMeta msg).Returns th.hist r → Served R msg th.hist r →
      topicWire P replyTo requestID r = some wire →
      (Agrees R P ((World.init (ExecState.fresh clock issued)).run acts).state.runs
          (.topic kind actionMeta) msg th.hist
          (request C none (.ok msg.data) (fun _ => .ok wire) resPtr) ↔
        Tellable R P msg th.hist (.topic kind actionMeta)) := by
    intro kind actionMeta r hret hserved hwire
    refine agrees_topic hC hcodec hret (fun body hr => ?_) hwire
    subst hr
    rcases hserved with ⟨v, hmem, hv⟩ | ⟨entry, rfl, -, hsaw⟩
    · exact ⟨msg, v, (hw.ok _ _ ht).sound _ hmem rfl, hv⟩
    · obtain ⟨m, v, hrun, hv, -⟩ := hw.seen _ _ ht hsaw
      exact ⟨m, v, hrun, hv⟩
  cases endpoint with
  | topic kind actionMeta =>
      cases a with
      | topic r => exact htopic hpost.1 hpost.2 hwire
      | service r => exact hpost.elim
  | request kind actionMeta =>
      cases a with
      | topic r => exact htopic hpost.1 hpost.2 hwire
      | service r => exact hpost.elim
  | service =>
      cases a with
      | topic r => exact hpost.elim
      | service r => exact agrees_service hcodec hpost hwire

end

/-! ### A failing action -/

def kinds : List Kind :=
  [.badRequest, .unauthorized, .forbidden, .notFound, .conflict, .tooManyRequests, .timeout,
    .canceled, .unavailable, .internal]

def kindOf : Err → Kind
  | .app k _ | .appOf k _ _ => k
  | _ => .internal

/-- A runtime whose error responses are kinds, each marshalled as one byte. -/
def codedRuntime : Runtime :=
  { Runtime.plain with
    Response := Kind
    toPublic := kindOf
    marshalResponse := fun k => .ok [(kinds.idxOf k).toUInt8]
    jsonResponse := fun _ => .ok [] }

def codedPlatform : Platform where
  kind := kindOf
  kindText _ := "kind"
  text _ := "text"
  headerRequestID := "X-Request-ID"
  headerRequestID_ne := by decide

def codedClient : Client codedRuntime where
  unmarshalResponse
    | [c] =>
        match kinds[c.toNat]? with
        | some k => .ok k
        | none => .error (.other "unknown kind" none)
    | _ => .error (.other "not an error response" none)
  errorField _ := "error"
  fromPublic k := some (.app k "")
  string _ := ""

theorem codedClient_lawful : codedClient.Lawful codedPlatform where
  apps _ _ _ := rfl
  responses k := by cases k <;> exact ⟨_, rfl, rfl⟩
  texts _ := show "error" ≠ "" by decide
  kinds _ := ⟨_, rfl, rfl⟩

/-- One request, whose action fails. -/
def failedRequest (endpoint : Endpoint) : List (Act (executor codedRuntime)) :=
  [.spawn (.serve endpoint sampleMsg), .step 0 { outcome := .failed (.app .notFound "no order") }]

/-- The client of a topic gets an error of the kind of the action's. -/
theorem agrees_iff_tellable_topic :
    ∃ th wire,
      ((World.init (ExecState.fresh .zero [])).run
        (failedRequest (.topic .legacy none))).threads[0]? = some th ∧
      request codedClient none (.ok sampleMsg.data) (fun _ => .ok wire) none =
        some (.app .notFound "") ∧
      Agrees codedRuntime codedPlatform [] (.topic .legacy none) sampleMsg th.hist
        (request codedClient none (.ok sampleMsg.data) (fun _ => .ok wire) none) :=
  ⟨_, ⟨[(headerErrorMarker, "1")], [3]⟩, rfl, rfl,
    (agrees_iff_tellable codedRuntime codedPlatform codedClient codedClient_lawful none nofun .zero
      [] (failedRequest (.topic .legacy none)) 0 _ (.topic .legacy none) sampleMsg _ "inbox" "" _
      rfl rfl rfl rfl).mpr tellable_of_plain⟩

/-- The client of a service gets nil, although the action has failed. -/
theorem service_error_taken_for_success :
    ∃ th wire,
      ((World.init (ExecState.fresh .zero [])).run (failedRequest .service)).threads[0]? =
        some th ∧
      th.hist = [⟨.executeDecoded sampleMsg, .failed (.app .notFound "no order")⟩] ∧
      th.rest.result? = some (.answered (.service (.execFailed (.app .notFound "no order")))) ∧
      microWire codedPlatform (.execFailed (.app .notFound "no order")) = some wire ∧
      request codedClient none (.ok sampleMsg.data) (fun _ => .ok wire) none = none ∧
      ¬ Agrees codedRuntime codedPlatform [] .service sampleMsg th.hist
        (request codedClient none (.ok sampleMsg.data) (fun _ => .ok wire) none) := by
  have hnot : ¬ Marshalled codedRuntime sampleMsg
      [⟨.executeDecoded sampleMsg, .failed (.app .notFound "no order")⟩] := by
    simp [marshalled_singleton]
  refine ⟨_, _, rfl, rfl, rfl, rfl, rfl, fun hagree => ?_⟩
  obtain ⟨e, he, -⟩ := hagree.2 hnot
  cases he

end TransportNats.Rpc
