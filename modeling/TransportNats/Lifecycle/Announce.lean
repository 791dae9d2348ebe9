import TransportNats.Lifecycle.Listen

/-!
When `nats.listen` announces readiness.

The announcement of an invocation is truthful if the run that it has started has
connected, has mounted the actions of that invocation and has flushed. A run
signals success only then: that is a property of its own program. With the
invariant of `Listen` the signal that the invocation waits for is that of its own
run, provided that at each `Mount` of an invocation no other invocation is under
way and no success has been signalled.

Without the proviso it fails: a second invocation after a first that has ended
announces readiness while its run has not begun.
-/

namespace TransportNats.Lifecycle

open Interleaving

/-! ### What a run has done when it signals -/

/-- The latest a run of `Do` has done is to connect, to read and mount `actions`,
and to flush. -/
def Served (signals : ℕ) (ctx : Ctx) (actions : List Action) (h : History lifecycleSig) : Prop :=
  ∃ runCancel nc connecting mounting h₀,
    (ensureConn signals (some (runCancel :: ctx))).Returns connecting (.ok nc) ∧
      (mountActions (runCancel :: ctx) nc actions).Returns mounting none ∧
      h = ⟨.external (.flush nc), none⟩ :: (mounting ++ ⟨.pool .readActions, actions⟩ ::
        ⟨.pool .ensureJetStream, none⟩ :: (connecting ++ h₀))

/-- Success is signalled only by a run that serves. -/
def SignalsServed (signals : ℕ) (ctx : Ctx) (h : History lifecycleSig) (o : Op) : Prop :=
  o = .ready (.signalReady none) → ∃ actions, Served signals ctx actions h

theorem ListenMarks.live_afterPool {q : ListenMarks} (hq : q.live = false) (o : PoolOp)
    (r : o.Ret) : (q.afterPool o r).live = false := by
  cases o with
  | sendDone id err => simp [ListenMarks.afterPool, ListenMarks.live]
  | _ => exact hq

/-- The operations on the signal leave marks that concern the signal only. -/
theorem ListenMarks.afterReady_eq (q : ListenMarks) (o : ReadyOp) (r : o.Ret) :
    ∃ awaited told signalled,
      q.afterReady o r = { q with awaited := awaited, told := told, signalled := signalled } ∧
        (o = .signalReady none ∨ signalled = q.signalled) := by
  cases o with
  | signalReady err =>
      cases err
      · exact ⟨_, _, _, rfl, .inl rfl⟩
      · exact ⟨_, _, _, rfl, .inr rfl⟩
  | awaitReady ctx => cases r <;> exact ⟨_, _, _, rfl, .inr rfl⟩
  | readReadyErr => cases r <;> exact ⟨_, _, _, rfl, .inr rfl⟩

/-- Who is not a live run does not signal. -/
theorem not_signals_of_accepts {α : Type} {Q : Marks → α → Prop} {m : Marks} {p : Routine α}
    (hp : marking.Accepts Q m p) (hm : m.listen.live = false) {signals : ℕ} {ctx : Ctx}
    {h : History lifecycleSig} :
    p.Guarded (SignalsServed signals ctx) (fun _ _ => True) h := by
  induction p generalizing m h with
  | ret a => trivial
  | call o k ih =>
      refine ⟨?_, fun r => ih r (hp.2 r) ?_⟩
      · rintro rfl
        exact absurd (hm.symm.trans (Marks.allows_signalReady hp.1).2.1) Bool.false_ne_true
      · cases o with
        | pool o => exact ListenMarks.live_afterPool hm o r
        | ready o =>
            obtain ⟨awaited, told, signalled, hafter, -⟩ := m.listen.afterReady_eq o r
            exact (congrArg ListenMarks.live hafter).trans hm
        | link o => exact hm
        | external o => exact hm

section
variable {signals : ℕ} {ctx : Ctx} {h : History lifecycleSig}

theorem signalsServed_failReady (err : Err) :
    (failReady err).Guarded (SignalsServed signals ctx) (fun _ _ => True) h :=
  ⟨nofun, fun panicked => by cases panicked <;> trivial⟩

theorem signalsServed_cancelled (runCancel : Token) (err : Err) :
    Program.Guarded (SignalsServed signals ctx) (fun _ _ => True) h (do
      link (.cancel runCancel)
      failReady err) :=
  ⟨nofun, fun _ => signalsServed_failReady err⟩

theorem signalsServed_serve {runCancel : Token} {nc : Conn} {connecting h₀ : History lifecycleSig}
    (hconn : (ensureConn signals (some (runCancel :: ctx))).Returns connecting (.ok nc)) :
    (serve ctx (runCancel :: ctx) nc).Guarded (SignalsServed signals ctx) (fun _ _ => True)
      (⟨.pool .ensureJetStream, none⟩ :: (connecting ++ h₀)) := by
  refine ⟨nofun, fun actions => ?_⟩
  have hmount : (mountActions (runCancel :: ctx) nc actions).Guarded (SignalsServed signals ctx)
      (fun _ _ => True) (⟨.pool .readActions, actions⟩ ::
        ⟨.pool .ensureJetStream, none⟩ :: (connecting ++ h₀)) :=
    not_signals_of_accepts (accepts_mountActions (q := {}) _ nc actions) rfl
  refine hmount.returns.bind ?_
  rintro _ r ⟨-, mounting, rfl, hreturns⟩
  rcases r with _ | mountErr
  · refine ⟨nofun, fun r => ?_⟩
    rcases r with _ | flushErr
    · refine ⟨fun _ => ⟨actions, runCancel, nc, connecting, mounting, h₀, hconn, hreturns, rfl⟩,
        fun panicked => ?_⟩
      cases panicked
      · refine ⟨nofun, fun stop => ?_⟩
        rcases stop with _ | lastErr
        · trivial
        · exact ⟨nofun, fun r => by rcases r with _ | err <;> trivial⟩
      · trivial
    · exact signalsServed_failReady _
  · exact signalsServed_failReady _

theorem signalsServed_connectAndServe :
    (connectAndServe signals ctx).Guarded (SignalsServed signals ctx) (fun _ _ => True) h := by
  refine ⟨nofun, fun runCancel => ?_⟩
  have haccepts : marking.Accepts (fun m _ => m = ⟨atRest false false, {}, {}⟩)
      ⟨atRest false false, {}, {}⟩ (ensureConn signals (some (runCancel :: ctx))) :=
    accepts_ensureConn signals _
  have hconn : (ensureConn signals (some (runCancel :: ctx))).Guarded (SignalsServed signals ctx)
      (fun _ _ => True) (⟨.link .withCancel, runCancel⟩ :: h) :=
    not_signals_of_accepts haccepts rfl
  refine hconn.returns.bind ?_
  rintro _ r ⟨-, connecting, rfl, hreturns⟩
  rcases r with err | nc
  · exact signalsServed_cancelled runCancel err
  · refine ⟨nofun, fun r => ?_⟩
    rcases r with _ | jsErr
    · refine (signalsServed_serve hreturns).bind fun h' reply _ => ?_
      exact (not_signals_of_accepts (accepts_cleanup (q := {}) runCancel) rfl).bind
        fun _ _ _ => trivial
    · exact signalsServed_cancelled runCancel jsErr

theorem signalsServed_doRun :
    (doRun signals ctx).Guarded (SignalsServed signals ctx) (fun _ _ => True) h := by
  refine ⟨nofun, fun started => ?_⟩
  cases started
  · trivial
  · refine ⟨nofun, fun _ => ?_⟩
    have hrun : ∀ h, (doExclusively signals ctx).Guarded (SignalsServed signals ctx)
        (fun _ _ => True) h := by
      intro h
      refine ⟨nofun, fun r => ?_⟩
      rcases r with _ | initErr
      · refine ⟨nofun, fun embedded => ?_⟩
        cases embedded
        · exact signalsServed_connectAndServe
        · refine ⟨nofun, fun r => ?_⟩
          rcases r with err | url
          · exact signalsServed_failReady err
          · exact signalsServed_connectAndServe.bind fun _ _ _ => ⟨nofun, fun _ => trivial⟩
      · exact signalsServed_failReady initErr
    exact (hrun _).bind fun _ _ _ => ⟨nofun, fun _ => trivial⟩

theorem signalsServed_listener (id : ℕ) :
    (finishing (listener signals id ctx)).Guarded (SignalsServed signals ctx)
      (fun _ _ => True) h := by
  refine Program.Guarded.bind (R := fun _ _ => True)
    (signalsServed_doRun.bind fun _ reply _ => ?_) fun _ _ _ => trivial
  cases reply with
  | returned err => exact ⟨nofun, fun _ => trivial⟩
  | panicked => trivial

end

/-- A goroutine of `nats.listen` signals success only when it serves. -/
def serves : Contract transport where
  guard c h o := ∀ id ctx signals, c = .goroutine (.listener id ctx) signals →
    SignalsServed signals ctx h o
  post _ _ _ := True
  sound _ _ := True
  program c := by
    by_cases hc : ∃ id ctx signals, c = .goroutine (.listener id ctx) signals
    · obtain ⟨id, ctx, signals, rfl⟩ := hc
      refine (signalsServed_listener id).mono (fun h o ho => ?_) fun _ _ _ => trivial
      rintro _ _ _ ⟨⟩
      exact ho
    · exact (Program.guarded_true c.program).mono
        (fun h o _ id ctx signals heq => absurd ⟨id, ctx, signals, heq⟩ hc) fun _ _ _ => trivial
  answer _ _ _ := trivial
  stable _ _ _ := trivial

/-! ### What the marks say of a history -/

section
variable {m : Marks} {h : History lifecycleSig} {x : Answered lifecycleSig}

theorem Marks.role_after (m : Marks) (x : Answered lifecycleSig) :
    (m.after x).listen.role = m.listen.role := by
  obtain ⟨o, r⟩ := x
  cases o with
  | pool o => cases o <;> rfl
  | ready o =>
      obtain ⟨awaited, told, signalled, hafter, -⟩ := m.listen.afterReady_eq o r
      have hrole := congrArg ListenMarks.role hafter
      exact hrole
  | _ => rfl

theorem role_value (m : Marks) (h : History lifecycleSig) :
    (marking.value m h).listen.role = m.listen.role := by
  induction h with
  | nil => rfl
  | cons x h ih => exact (Marks.role_after _ x).trans ih

theorem mount_of_mounted {actions : List Action} (hm : m.listen.mounted ≠ some actions)
    (h : (m.after x).listen.mounted = some actions) : x = ⟨.pool (.mount actions), ()⟩ := by
  obtain ⟨o, r⟩ := x
  cases o with
  | pool o =>
      cases o with
      | mount actions' =>
          obtain rfl := Option.some.inj h
          rfl
      | _ => exact absurd h hm
  | ready o =>
      obtain ⟨awaited, told, signalled, hafter, -⟩ := m.listen.afterReady_eq o r
      exact absurd ((congrArg ListenMarks.mounted hafter).symm.trans h) hm
  | _ => exact absurd h hm

theorem goListener_of_started {id : ℕ} {ctx : Ctx} (hm : m.listen.started ≠ some (id, ctx))
    (h : (m.after x).listen.started = some (id, ctx)) : x = ⟨.pool (.goListener ctx), id⟩ := by
  obtain ⟨o, r⟩ := x
  cases o with
  | pool o =>
      cases o with
      | goListener ctx' =>
          cases h
          rfl
      | _ => exact absurd h hm
  | ready o =>
      obtain ⟨awaited, told, signalled, hafter, -⟩ := m.listen.afterReady_eq o r
      exact absurd ((congrArg ListenMarks.started hafter).symm.trans h) hm
  | _ => exact absurd h hm

theorem signalReady_of_signalled (hm : m.listen.signalled ≠ true)
    (h : (m.after x).listen.signalled = true) : x.op = .ready (.signalReady none) := by
  obtain ⟨o, r⟩ := x
  cases o with
  | pool o => cases o <;> exact absurd h hm
  | ready o =>
      obtain ⟨awaited, told, signalled, hafter, rfl | rfl⟩ := m.listen.afterReady_eq o r
      · rfl
      · exact absurd ((congrArg ListenMarks.signalled hafter).symm.trans h) hm
  | _ => exact absurd h hm

/-- What a run has read stays what it serves. -/
theorem read_after {actions : List Action} (ha : m.allows x.op)
    (hm : m.listen.read = some actions) : (m.after x).listen.read = some actions := by
  obtain ⟨o, r⟩ := x
  cases o with
  | pool o =>
      cases o with
      | readActions => exact absurd (hm.symm.trans (Marks.allows_pool ha).2.2) nofun
      | _ => exact hm
  | ready o =>
      obtain ⟨awaited, told, signalled, hafter, -⟩ := m.listen.afterReady_eq o r
      exact (congrArg ListenMarks.read hafter).trans hm
  | _ => exact hm

theorem mem_of_mounted {actions : List Action} (hm : m.listen.mounted = none)
    (h' : (marking.value m h).listen.mounted = some actions) :
    (⟨.pool (.mount actions), ()⟩ : Answered lifecycleSig) ∈ h := by
  obtain ⟨x, h₁, hsuf, hbefore, hafter⟩ :=
    marking.exists_change (P := fun m => m.listen.mounted = some actions) (by simp [hm]) h'
  rw [← mount_of_mounted hbefore hafter]
  exact hsuf.subset List.mem_cons_self

theorem mem_of_started {id : ℕ} {ctx : Ctx} (hm : m.listen.started = none)
    (h' : (marking.value m h).listen.started = some (id, ctx)) :
    (⟨.pool (.goListener ctx), id⟩ : Answered lifecycleSig) ∈ h := by
  obtain ⟨x, h₁, hsuf, hbefore, hafter⟩ :=
    marking.exists_change (P := fun m => m.listen.started = some (id, ctx)) (by simp [hm]) h'
  rw [← goListener_of_started hbefore hafter]
  exact hsuf.subset List.mem_cons_self

theorem read_of_suffix {actions : List Action} {h₀ : History lifecycleSig}
    (hallowed : ∀ {x h'}, x :: h' <:+ h → (marking.value m h').allows x.op)
    (hsuf : ⟨.pool .readActions, actions⟩ :: h₀ <:+ h) :
    (marking.value m h).listen.read = some actions := by
  induction h with
  | nil => simp at hsuf
  | cons x h ih =>
      rcases List.suffix_cons_iff.mp hsuf with heq | hsuf
      · obtain ⟨rfl, rfl⟩ := List.cons.inj heq
        rfl
      · refine read_after (hallowed (List.suffix_refl _)) (ih (fun hsuf' => ?_) hsuf)
        exact hallowed (hsuf'.trans (List.suffix_cons x h))

end

/-! ### The result -/

/-- The run that the invocation has started has connected, has mounted what the
invocation has mounted, and has flushed. -/
def OwnRunServed (w : World transport) (th : Thread transport) : Prop :=
  ∃ actions id ctx, ⟨.pool (.mount actions), ()⟩ ∈ th.hist ∧
    ⟨.pool (.goListener ctx), id⟩ ∈ th.hist ∧
    ∃ (j : ℕ) (run : Thread transport) (signals : ℕ) (h : History lifecycleSig),
      w.threads[j]? = some run ∧ run.call = .goroutine (.listener id ctx) signals ∧
        h <:+ run.hist ∧ Served signals ctx actions h

/-- An invocation of `nats.listen` that has mounted its actions and has not
returned. -/
def listening (th : Thread transport) : Bool :=
  match th.call with
  | .listen _ =>
      th.rest.result?.isNone && th.hist.any fun x =>
        match x.op with
        | .pool (.mount _) => true
        | _ => false
  | _ => false

/-- If the action mounts the actions of an invocation, no other is under way and
no run has signalled success. -/
def unshared (w : World transport) (a : Act transport) : Bool :=
  match w.performs? a with
  | some (_, .pool (.mount _)) =>
      !w.threads.any listening &&
        !(w.state.readiness.ready && w.state.readiness.readyErr.isNone)
  | _ => true

section
variable {w : World transport}

theorem call_of_invocation {c : Call} (hc : c.marks.listen.role = .invocation) :
    ∃ ctx, c = .listen ctx := by
  cases c with
  | listen ctx => exact ⟨ctx, rfl⟩
  | goroutine g turns => cases g <;> cases hc
  | _ => cases hc

theorem call_of_run {c : Call} {id : ℕ} {ctx : Ctx} (hc : c.marks.listen.role = .run id ctx) :
    ∃ signals, c = .goroutine (.listener id ctx) signals := by
  cases c with
  | goroutine g turns =>
      cases g with
      | listener id' ctx' =>
          cases hc
          exact ⟨turns, rfl⟩
      | _ => cases hc
  | _ => cases hc

/-- The marks of an invocation under way show in its thread. -/
theorem listening_of_inProgress (hok : watched.contract.Ok w) {t : ℕ} {th : Thread transport}
    (ht : w.threads[t]? = some th) (hm : (watched.mark th).listen.InProgress) :
    listening th = true := by
  obtain ⟨ctx, hcall⟩ := call_of_invocation ((role_value th.call.marks th.hist).symm.trans hm.role)
  obtain ⟨actions, hactions⟩ := Option.ne_none_iff_exists'.mp hm.mounted
  have hmount := mem_of_mounted (m := th.call.marks) (by rw [hcall]; rfl) hactions
  have hrest : th.rest.result? = none := by
    by_contra hne
    obtain ⟨r, hr⟩ := Option.ne_none_iff_exists'.mp hne
    exact (hok.post ht hr).1.listen hm
  simp only [listening, hcall, hrest, Option.isNone_none, Bool.true_and, List.any_eq_true]
  exact ⟨_, hmount, rfl⟩

theorem mountsAlone_of_unshared (hok : watched.contract.Ok w) {t : ℕ} {ch : Choice}
    (ha : unshared w (.step t ch) = true) {c : Call} {o : Op}
    (hp : w.performs? (.step t ch) = some (c, o)) :
    MountsAlone w.state (watched.marks w) o := by
  rintro actions rfl
  simp only [unshared, hp, Bool.and_eq_true, Bool.not_eq_true', List.any_eq_false] at ha
  obtain ⟨hnone, hsignal⟩ := ha
  refine ⟨fun i n hn hprogress => ?_, fun hready herr => ?_⟩
  · obtain ⟨m, hm, rfl⟩ := exists_of_getElem?_map hn
    obtain ⟨th, hth, rfl⟩ := watched.exists_of_getElem?_marks hm
    exact hnone th (List.mem_of_getElem? hth) (listening_of_inProgress hok hth hprogress)
  · simp [hready, herr] at hsignal

theorem listening_run {s : State} (hs : Built s) {acts : List (Act transport)}
    (hadm : World.Always (Admissible Call.listensOnly) (built s) acts)
    (halone : World.Always (fun w a => unshared w a = true) (built s) acts) :
    watched.contract.Ok ((built s).run acts) ∧
      Listening ((built s).run acts).state (watched.marks ((built s).run acts)) := by
  have hregular : World.Always (watched.Regular (fun c => c.listensOnly = true)
      fun ch s ms o => ready ch s o = true ∧ MountsAlone s ms o) (built s) acts := by
    refine World.Always.imp (P := watched.contract.Ok)
      (fun hm _ hok => watched.contract.ok_moves hm hok) (fun {w a} ha hok => ?_)
      (watched.contract.ok_init s) (hadm.and halone)
    cases a with
    | spawn c => exact ha.1
    | env e => trivial
    | step t ch =>
        exact fun c o hp =>
          ⟨regular_of_admissible ha.1 c o hp, mountsAlone_of_unshared hok ha.2 hp⟩
  exact Watch.run_invariant (K := watched) (I := Listening)
    (fun hc henter h => listening_enter hc henter h)
    (fun ht ha hr h => listening_step ht ha hr.1 hr.2 h) listening_env
    (watched.contract.ok_init s) (listening_built hs) hregular

/-- What the marks of a run that has signalled say of its thread. -/
theorem served_of_signalled (hok : watched.contract.Ok w) (hserves : serves.Ok w) {j : ℕ}
    {run : Thread transport} (hrun : w.threads[j]? = some run) {id signals : ℕ} {ctx : Ctx}
    (hcall : run.call = .goroutine (.listener id ctx) signals)
    (hsignalled : (watched.mark run).listen.signalled = true) {actions : List Action}
    (hread : (watched.mark run).listen.read = some actions) :
    ∃ h, h <:+ run.hist ∧ Served signals ctx actions h := by
  obtain ⟨x, h, hsuf, hbefore, hafter⟩ := marking.exists_change (m := run.call.marks)
    (P := fun m => m.listen.signalled = true) (by rw [hcall]; exact nofun) hsignalled
  have hx := signalReady_of_signalled hbefore hafter
  obtain ⟨actions', hserved⟩ := (hserves j run hrun).allowed hsuf id ctx signals hcall hx
  have hh : h <:+ run.hist := (List.suffix_cons x h).trans hsuf
  have hparts := hserved
  obtain ⟨runCancel, nc, connecting, mounting, h₀, -, -, heq⟩ := hparts
  have hreads : ⟨.pool .readActions, actions'⟩ ::
      ⟨.pool .ensureJetStream, none⟩ :: (connecting ++ h₀) <:+ h := by
    rw [heq]
    exact (List.suffix_append mounting _).trans (List.suffix_cons _ _)
  have hsome : (marking.value run.call.marks run.hist).listen.read = some actions' :=
    read_of_suffix (fun hsuf' => (hok j run hrun).allowed hsuf') (hreads.trans hh)
  obtain rfl : actions = actions' := Option.some.inj (hread.symm.trans hsome)
  exact ⟨h, hh, hserved⟩

end

/-- In every run in which no invocation of `nats.listen` mounts its actions while
another is under way or after a success has been signalled, an invocation is
about to announce readiness only when its own run has served its actions. -/
theorem listen_announces_own_run {s : State} (hs : Built s) {acts : List (Act transport)}
    (hadm : World.Always (Admissible Call.listensOnly) (built s) acts)
    (halone : World.Always (fun w a => unshared w a = true) (built s) acts) {t : ℕ}
    {th : Thread transport} (ht : ((built s).run acts).threads[t]? = some th)
    (hnext : th.rest.next? = some (.external .announceReady)) :
    OwnRunServed ((built s).run acts) th := by
  obtain ⟨hok, h⟩ := listening_run hs hadm halone
  have hann := allows_of_next hok ht hnext
  have hann : (watched.mark th).listen.Announces := by
    unfold Marks.allows at hann
    split at hann
    · cases hann
    · exact hann
  have hm := getElem?_listens (watched.getElem?_marks ht)
  obtain ⟨hready, herr⟩ := h.signalled.told t _ hm hann.progress hann.told
  obtain ⟨id, ctx, hstarted, j, x, hx, hrole, hsignalled, hread⟩ :=
    h.signalled.signal t _ hm hann.progress hready herr
  obtain ⟨actions, hactions⟩ := Option.ne_none_iff_exists'.mp hann.progress.mounted
  obtain ⟨m', hm', rfl⟩ := exists_of_getElem?_map hx
  obtain ⟨run, hrun, rfl⟩ := watched.exists_of_getElem?_marks hm'
  obtain ⟨signals, hcall⟩ := call_of_run ((role_value run.call.marks run.hist).symm.trans hrole)
  obtain ⟨ctx₀, hlisten⟩ :=
    call_of_invocation ((role_value th.call.marks th.hist).symm.trans hann.progress.role)
  obtain ⟨h', hsuf, hserved⟩ := served_of_signalled hok (serves.ok_run s acts) hrun hcall
    hsignalled (hread.trans hactions)
  refine ⟨actions, id, ctx, ?_, ?_, j, run, signals, h', hrun, hcall, hsuf, hserved⟩
  · exact mem_of_mounted (m := th.call.marks) (by rw [hlisten]; rfl) hactions
  · exact mem_of_started (m := th.call.marks) (by rw [hlisten]; rfl) hstarted

/-- The choice in which an invocation gets one action with one topic. -/
def resolving : Choice
  | .external .resolveActions => .ok [⟨true, [.topic "orders" ""]⟩]
  | o => smooth o

/-- An invocation of `nats.listen` up to its announcement. -/
def firstListen : List (Act transport) :=
  .spawn (.listen [.caller 0]) :: List.replicate 4 (.step 0 resolving) ++
    .spawn (.goroutine (.listener 0 [.derived 0, .caller 0]) 0) ::
      List.replicate 28 (.step 1 smooth) ++ List.replicate 2 (.step 0 smooth)

theorem listen_announces_own_run_topic :
    ∃ th, ((built plain).run firstListen).threads[0]? = some th ∧
      th.rest.next? = some (.external .announceReady) ∧
      OwnRunServed ((built plain).run firstListen) th :=
  ⟨_, rfl, rfl, listen_announces_own_run (.new _ _ _) (by decide +kernel) (by decide +kernel)
    (t := 0) rfl rfl⟩

/-- The first invocation is cancelled and returns, and a second one follows. -/
def secondListen : List (Act transport) :=
  firstListen ++ .step 0 smooth :: .env (.callerDone 0 .canceled) ::
    List.replicate 12 (.step 1 smooth) ++ List.replicate 3 (.step 0 smooth) ++
    .spawn (.listen [.caller 1]) :: List.replicate 6 (.step 2 resolving)

/-- The answer of a `go` statement for a context below the token. -/
def startsUnder (tok : Token) (x : Answered lifecycleSig) : Bool :=
  match x.op with
  | .pool (.goListener ctx) => tok ∈ ctx
  | _ => false

set_option maxRecDepth 1024 in
/-- The second invocation is about to announce readiness, and its run has not
begun. -/
theorem secondListen_announces_early :
    World.Always (Admissible Call.listensOnly) (built plain) secondListen ∧
      ∃ th, ((built plain).run secondListen).threads[2]? = some th ∧
        th.rest.next? = some (.external .announceReady) ∧
        ¬ OwnRunServed ((built plain).run secondListen) th := by
  refine ⟨by decide +kernel, _, rfl, rfl, ?_⟩
  rintro ⟨actions, id, ctx, -, hstart, j, run, signals, h, hrun, hcall, -⟩
  -- the only goroutine that has begun is that of the first invocation
  have hcalls : ((built plain).run secondListen).threads.map (·.call) =
      [.listen [.caller 0], .goroutine (.listener 0 [.derived 0, .caller 0]) 0,
        .listen [.caller 1]] := rfl
  have hmem := List.mem_map_of_mem (f := (·.call)) (List.mem_of_getElem? hrun)
  rw [hcalls, hcall] at hmem
  obtain ⟨⟨rfl, rfl⟩, rfl⟩ : (id = 0 ∧ ctx = [.derived 0, .caller 0]) ∧ signals = 0 := by
    simpa using hmem
  have hfirst := List.any_eq_true.mpr ⟨_, hstart, (rfl : startsUnder (.caller 0) _ = true)⟩
  exact absurd hfirst Bool.false_ne_true

end TransportNats.Lifecycle
