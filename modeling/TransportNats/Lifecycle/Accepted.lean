import TransportNats.Lifecycle.Marks

/-!
Every program of the transport is accepted by the monitor of the marks.

Each function gets one theorem, about the marks with which it may be called and
those with which it returns, and the programs of the goroutines are put together
from these. With the last of them the transport is a monitored system.
-/

namespace TransportNats.Lifecycle

open Interleaving

/-! ### Connecting and closing -/

/-- The link marks of a goroutine that is not about to change the connection. -/
def atRest (closes took : Bool) : LinkMarks := { closes := closes, took := took }

/-- The marks of a goroutine that has the gate and nothing in its hand. -/
def locked (looked : Option (Option Conn)) (vacant closes took : Bool) : LinkMarks :=
  { gate := true, looked := looked, vacant := vacant, closes := closes, took := took }

section
variable {closes took : Bool} {p : PoolMarks} {q : ListenMarks}

/-- Outside the gate a look at the connection leaves no mark. -/
theorem accepts_cachedConnection :
    marking.Accepts (fun m _ => m = ⟨atRest closes took, p, q⟩) ⟨atRest closes took, p, q⟩
      cachedConnection := by
  refine ⟨trivial, fun view => ?_⟩
  obtain ⟨conn, initErr, providedConn, closing⟩ := view
  rcases initErr with _ | err
  · cases closing
    · cases providedConn <;> rcases conn with _ | nc
      · rfl
      · refine ⟨trivial, fun r => ?_⟩
        cases r <;> rfl
      · rfl
      · refine ⟨trivial, fun r => ?_⟩
        cases r <;> rfl
    · rfl
  · rfl

/-- Under the gate, a look that finds no usable connection has seen that there
is none. -/
theorem accepts_cachedConnection_locked {looked : Option (Option Conn)} {vacant : Bool} :
    marking.Accepts
      (fun m r => ∃ looked vacant, m = ⟨locked looked vacant closes took, p, q⟩ ∧
        (r = none → vacant = true))
      ⟨locked looked vacant closes took, p, q⟩ cachedConnection := by
  refine ⟨trivial, fun view => ?_⟩
  obtain ⟨conn, initErr, providedConn, closing⟩ := view
  rcases initErr with _ | err
  · cases closing
    · cases providedConn <;> rcases conn with _ | nc
      · exact ⟨_, _, rfl, fun _ => rfl⟩
      · refine ⟨trivial, fun r => ?_⟩
        cases r
        · exact ⟨_, _, rfl, nofun⟩
        · exact ⟨_, _, rfl, fun _ => decide_eq_true (rfl : some (some nc) = some (some nc))⟩
      · exact ⟨_, _, rfl, nofun⟩
      · refine ⟨trivial, fun r => ?_⟩
        cases r <;> exact ⟨_, _, rfl, nofun⟩
    · exact ⟨_, _, rfl, nofun⟩
  · exact ⟨_, _, rfl, nofun⟩

/-- The wait for the initial connection leaves no mark. -/
theorem accepts_lookConnected {l : LinkMarks} {Q : Marks → Option Err → Prop}
    {ctx connectCtx : Ctx} {nc : Conn} {wait : Routine (Option Err)} (howes : l.owes = none)
    (hQ : ∀ r, Q ⟨l, p, q⟩ r) (hwait : marking.Accepts Q ⟨l, p, q⟩ wait) :
    marking.Accepts Q ⟨l, p, q⟩ (lookConnected ctx connectCtx nc wait) := by
  obtain ⟨gate, looked, vacant, hand, closes, took, registered, owes⟩ := l
  obtain rfl : owes = none := howes
  refine ⟨trivial, fun r => ?_⟩
  rcases r with _ | err
  · refine ⟨trivial, fun r => ?_⟩
    rcases r with _ | err
    · refine ⟨trivial, fun r => ?_⟩
      cases r
      · exact hwait
      · exact hQ _
    · exact hQ _
  · exact hQ _

theorem accepts_waitForInitialConnection {l : LinkMarks} {ctx connectCtx : Ctx} {nc : Conn}
    (howes : l.owes = none) (signals : ℕ) :
    marking.Accepts (fun m _ => m = ⟨l, p, q⟩) ⟨l, p, q⟩
      (waitForInitialConnection ctx connectCtx nc signals) := by
  have hallows : ∀ o, (∀ p, l.allows p o) → Marks.allows ⟨l, p, q⟩ (.link o) := by
    intro o ho
    simp only [Marks.allows, howes]
    exact ho p
  induction signals with
  | zero =>
      exact accepts_lookConnected howes (fun _ => rfl)
        ⟨hallows _ fun _ => trivial, fun _ => rfl⟩
  | succ signals ih =>
      refine accepts_lookConnected howes (fun _ => rfl)
        ⟨hallows _ fun _ => trivial, fun r => ?_⟩
      rcases r with _ | e
      · exact ih
      · rfl

/-- A dial that has been registered ends registered, with nothing in hand. -/
theorem accepts_dialRegistered {looked : Option (Option Conn)} {tok : Token} {ctx connectCtx : Ctx}
    {rawURL : String} (signals : ℕ) :
    marking.Accepts
      (fun m _ => ∃ looked vacant,
        m = ⟨{ locked looked vacant closes took with registered := some tok }, p, q⟩)
      ⟨{ locked looked true closes took with registered := some tok }, p, q⟩
      (dialRegistered signals ctx connectCtx rawURL) := by
  refine ⟨⟨rfl, rfl, rfl, nofun⟩, fun r => ?_⟩
  rcases r with err | nc
  · refine ⟨trivial, fun r => ?_⟩
    rcases r with _ | err <;> exact ⟨_, _, rfl⟩
  · refine (accepts_waitForInitialConnection rfl signals).bind fun m r hm => ?_
    subst hm
    rcases r with _ | err
    · refine ⟨trivial, fun r => ?_⟩
      rcases r with _ | jsErr
      · refine ⟨⟨rfl, rfl, rfl⟩, fun stored => ?_⟩
        cases stored
        · exact ⟨⟨rfl, rfl⟩, fun _ => ⟨_, _, rfl⟩⟩
        · exact ⟨_, _, rfl⟩
      · exact ⟨⟨rfl, rfl⟩, fun _ => ⟨_, _, rfl⟩⟩
    · exact ⟨⟨rfl, rfl⟩, fun _ => ⟨_, _, rfl⟩⟩

theorem accepts_dialConnection {looked : Option (Option Conn)} {ctx : Ctx} (signals : ℕ) :
    marking.Accepts (fun m _ => ∃ looked vacant, m = ⟨locked looked vacant closes took, p, q⟩)
      ⟨locked looked true closes took, p, q⟩ (dialConnection signals ctx) := by
  rw [dialConnection, accepts_link_bind]
  refine ⟨trivial, fun rawURL => ?_⟩
  split
  · exact ⟨_, _, rfl⟩
  · refine ⟨trivial, fun tok => ⟨⟨rfl, rfl⟩, fun published => ?_⟩⟩
    cases published
    · exact ⟨trivial, fun _ => ⟨_, _, rfl⟩⟩
    · refine (accepts_dialRegistered signals).bind fun m r hm => ?_
      obtain ⟨looked', vacant, rfl⟩ := hm
      exact ⟨rfl, fun _ => ⟨trivial, fun _ => ⟨_, _, rfl⟩⟩⟩

theorem accepts_connectLocked {ctx : Ctx} (signals : ℕ) :
    marking.Accepts (fun m _ => ∃ looked vacant, m = ⟨locked looked vacant closes took, p, q⟩)
      ⟨locked none false closes took, p, q⟩ (connectLocked signals ctx) := by
  refine ⟨trivial, fun r => ?_⟩
  rcases r with _ | err
  · refine accepts_cachedConnection_locked.bind fun m r hm => ?_
    obtain ⟨looked, vacant, rfl, hvacant⟩ := hm
    rcases r with _ | state
    · obtain rfl := hvacant rfl
      exact accepts_dialConnection signals
    · exact ⟨_, _, rfl⟩
  · exact ⟨_, _, rfl⟩

/-- `EnsureConn` leaves no mark. -/
theorem accepts_ensureConn (signals : ℕ) (ctx : Option Ctx) :
    marking.Accepts (fun m _ => m = ⟨atRest closes took, p, q⟩) ⟨atRest closes took, p, q⟩
      (ensureConn signals ctx) := by
  rcases ctx with _ | ctx
  · rfl
  · refine ⟨trivial, fun r => ?_⟩
    rcases r with _ | err
    · refine accepts_cachedConnection.bind fun m r hm => ?_
      subst hm
      rcases r with _ | state
      · refine ⟨rfl, fun r => ?_⟩
        rcases r with _ | err
        · refine (accepts_connectLocked signals).bind fun m r hm => ?_
          obtain ⟨looked, vacant, rfl⟩ := hm
          exact ⟨⟨rfl, rfl, rfl⟩, fun _ => rfl⟩
        · rfl
      · rfl
    · rfl

/-- `Close` leaves the marks that it has set `closing` and taken the connection. -/
theorem accepts_closeTransport (hp : p.running = true → p.cleaned = true) :
    marking.Accepts (fun m _ => m = ⟨atRest true true, p, q⟩) ⟨atRest closes took, p, q⟩
      closeTransport := by
  -- what follows the call of the cancel function
  have hgate : marking.Accepts (fun m _ => m = ⟨atRest true true, p, q⟩) ⟨atRest true took, p, q⟩
      (do
        link .lockGate
        closeTaken (← link .takeConn)
        link .unlockConnect) := by
    refine ⟨rfl, fun _ => ⟨⟨rfl, rfl, rfl, rfl, hp⟩, fun taken => ?_⟩⟩
    obtain ⟨_ | nc, _ | _⟩ := taken
    · exact ⟨⟨rfl, rfl, rfl⟩, fun _ => rfl⟩
    · exact ⟨⟨rfl, rfl, rfl⟩, fun _ => rfl⟩
    · exact ⟨⟨rfl, rfl⟩, fun _ => ⟨⟨rfl, rfl, rfl⟩, fun _ => rfl⟩⟩
    · exact ⟨⟨rfl, rfl, rfl⟩, fun _ => rfl⟩
  refine ⟨trivial, fun cancelConnect => ?_⟩
  rcases cancelConnect with _ | tok
  · exact hgate
  · exact ⟨rfl, fun _ => hgate⟩

end

/-! ### Mounting -/

/-- The marks of a run between the installation of its cleanup and the cleanup. -/
def servingMarks (q : ListenMarks) : Marks :=
  ⟨atRest false false, { runner := true, running := true, up := true }, q⟩

section
variable {q : ListenMarks}

/-- A resource that is opened and passed on at once leaves the hands empty. -/
theorem without_cons_self {p : PoolMarks} (hp : p.hands = []) (r : Resource) :
    PoolMarks.without { p with hands := r :: p.hands } r = p := by
  obtain ⟨runner, running, up, cleaned, waited, hands, worker⟩ := p
  obtain rfl : hands = [] := hp
  simp [PoolMarks.without]

theorem servingMarks_without (r : Resource) :
    ({ servingMarks q with
        pool :=
          { (servingMarks q).pool with hands := r :: (servingMarks q).pool.hands }.without r } :
      Marks) = servingMarks q := by
  rw [without_cons_self rfl]

theorem accepts_subscribeTopic (subject queueGroup : String) :
    marking.Accepts (fun m _ => m = servingMarks q) (servingMarks q)
      (subscribeTopic subject queueGroup) := by
  refine ⟨.inl rfl, fun r => ?_⟩
  rcases r with err | sub
  · rfl
  · exact ⟨rfl, fun _ => servingMarks_without sub⟩

theorem accepts_mountWatcher (ctx : Ctx) (what : Opening) :
    marking.Accepts (fun m _ => m = servingMarks q) (servingMarks q) (mountWatcher ctx what) := by
  refine ⟨.inl rfl, fun r => ?_⟩
  rcases r with err | watcher
  · rfl
  · exact ⟨⟨rfl, rfl⟩, fun _ => servingMarks_without watcher⟩

theorem accepts_mountKV (ctx : Ctx) (bucket key : String) :
    marking.Accepts (fun m _ => m = servingMarks q) (servingMarks q) (mountKV ctx bucket key) := by
  rw [mountKV]
  split
  · rfl
  · refine ⟨trivial, fun r => ?_⟩
    rcases r with _ | err
    · refine ⟨trivial, fun r => ?_⟩
      rcases r with _ | err
      · exact accepts_mountWatcher ctx _
      · rfl
    · rfl

theorem accepts_mountObjectStore (ctx : Ctx) (bucket : String) :
    marking.Accepts (fun m _ => m = servingMarks q) (servingMarks q)
      (mountObjectStore ctx bucket) := by
  rw [mountObjectStore]
  split
  · rfl
  · refine ⟨trivial, fun r => ?_⟩
    rcases r with _ | err
    · exact accepts_mountWatcher ctx _
    · rfl

theorem accepts_startFetching (ctx : Ctx) (nc : Conn) (stream subject durable : String) :
    marking.Accepts (fun m _ => m = servingMarks q) (servingMarks q)
      (startFetching ctx nc stream subject durable) := by
  refine ⟨.inl rfl, fun r => ?_⟩
  rcases r with err | sub
  · rfl
  · refine ⟨trivial, fun r => ?_⟩
    rcases r with _ | err
    · refine ⟨rfl, fun _ => ⟨⟨rfl, rfl⟩, fun _ => servingMarks_without sub⟩⟩
    · exact ⟨trivial, fun _ => servingMarks_without sub⟩

theorem accepts_subscribeDurable (ctx : Ctx) (nc : Conn) (b : Delivery.DurableBinding) :
    marking.Accepts (fun m _ => m = servingMarks q) (servingMarks q)
      (subscribeDurable ctx nc b) := by
  rw [subscribeDurable]
  split
  · rfl
  · refine ⟨trivial, fun r => ?_⟩
    rcases r with _ | err
    · refine ⟨trivial, fun r => ?_⟩
      rcases r with _ | err
      · exact accepts_startFetching ctx nc _ _ _
      · rfl
    · rfl

theorem accepts_ensureConsumerInfra (b : Delivery.ConsumerBinding) :
    marking.Accepts (fun m _ => m = servingMarks q) (servingMarks q) (ensureConsumerInfra b) := by
  rw [ensureConsumerInfra]
  refine ⟨trivial, fun r => ?_⟩
  rcases r with _ | err
  · change marking.Accepts _ (servingMarks q) (if _ then _ else _)
    split
    · rfl
    · exact ⟨trivial, fun _ => rfl⟩
  · rfl

theorem accepts_subscribeConsumer (ctx : Ctx) (nc : Conn) (b : Delivery.ConsumerBinding) :
    marking.Accepts (fun m _ => m = servingMarks q) (servingMarks q)
      (subscribeConsumer ctx nc b) := by
  rw [subscribeConsumer]
  split
  · rfl
  · refine (accepts_ensureConsumerInfra b).bind fun m r hm => ?_
    subst hm
    rcases r with _ | err
    · exact accepts_startFetching ctx nc _ _ _
    · rfl

/-- Whatever a binding is and wherever its mounting stops, nothing stays in the
hands of the run. -/
theorem accepts_mountBinding (ctx : Ctx) (nc : Conn) (b : Binding) :
    marking.Accepts (fun m _ => m = servingMarks q) (servingMarks q) (mountBinding ctx nc b) := by
  cases b with
  | topic subject queueGroup => exact accepts_subscribeTopic subject queueGroup
  | request subject => exact accepts_subscribeTopic subject ""
  | kv bucket key => exact accepts_mountKV ctx bucket key
  | durable b => exact accepts_subscribeDurable ctx nc b
  | consumer b => exact accepts_subscribeConsumer ctx nc b
  | object bucket => exact accepts_mountObjectStore ctx bucket
  | service name endpoint => rfl
  | unsupported => rfl

theorem accepts_mountBindings (ctx : Ctx) (nc : Conn) (bs : List Binding) :
    marking.Accepts (fun m _ => m = servingMarks q) (servingMarks q) (mountBindings ctx nc bs) := by
  induction bs with
  | nil => rfl
  | cons b bs ih =>
      refine (accepts_mountBinding ctx nc b).bind fun m r hm => ?_
      subst hm
      rcases r with _ | err
      · exact ih
      · rfl

theorem accepts_registerEndpoints {m : Marks} (howes : m.link.owes = none) (svc : Resource)
    (endpoints : List String) :
    marking.Accepts (fun m' _ => m' = m) m (registerEndpoints svc endpoints) := by
  induction endpoints with
  | nil => rfl
  | cons endpoint endpoints ih =>
      refine ⟨by simp only [marking, Marks.allows, howes], fun r => ?_⟩
      rcases r with _ | err
      · exact ih
      · rfl

theorem accepts_mountServices (groups : List (String × List String)) :
    marking.Accepts (fun m _ => m = servingMarks q) (servingMarks q) (mountServices groups) := by
  induction groups with
  | nil => rfl
  | cons group groups ih =>
      obtain ⟨name, endpoints⟩ := group
      refine ⟨.inl rfl, fun r => ?_⟩
      rcases r with err | svc
      · rfl
      · refine (accepts_registerEndpoints rfl svc endpoints).bind fun m r hm => ?_
        subst hm
        rcases r with _ | err
        · exact ⟨rfl, fun _ => ih.of_eq (servingMarks_without svc).symm⟩
        · exact ⟨trivial, fun _ => servingMarks_without svc⟩

theorem accepts_mountActions (ctx : Ctx) (nc : Conn) (actions : List Action) :
    marking.Accepts (fun m _ => m = servingMarks q) (servingMarks q)
      (mountActions ctx nc actions) := by
  refine (accepts_mountBindings ctx nc _).bind fun m r hm => ?_
  subst hm
  rcases r with _ | err
  · exact accepts_mountServices _
  · rfl

end

/-! ### A run of `Do` -/

theorem accepts_failReady {m : Marks} (howes : m.link.owes = none)
    (hrunning : m.pool.running = true) (hlive : m.listen.live = true) (err : Err) :
    marking.Accepts (fun m' _ => m' = m) m (failReady err) := by
  have ha : m.allows (.ready (.signalReady (some err))) := by
    simp only [Marks.allows, howes]
    exact ⟨hrunning, hlive, nofun⟩
  refine ⟨ha, fun r => ?_⟩
  cases r <;> rfl

/-- What is released is no longer in hand. -/
theorem accepts_releaseAll (l : LinkMarks) (howes : l.owes = none) (p : PoolMarks)
    (q : ListenMarks) (rs : List Resource) :
    marking.Accepts
      (fun m _ => m = ⟨l, { p with hands := p.hands.filter (· ∉ rs) }, q⟩) ⟨l, p, q⟩
      (releaseAll rs) := by
  induction rs generalizing p with
  | nil =>
      simp only [releaseAll, Monitor.accepts_pure, List.not_mem_nil, not_false_eq_true,
        decide_true, List.filter_true]
  | cons r rs ih =>
      refine ⟨by simp only [marking, Marks.allows, howes, PoolMarks.allows], fun _ => ?_⟩
      refine (ih (p.without r)).mono fun m _ hm => ?_
      rw [hm]
      simp only [PoolMarks.without, List.filter_filter, List.mem_cons, not_or, Bool.decide_and,
        Bool.and_comm]

/-- The marks after the cleanup. -/
def cleanedMarks (q : ListenMarks) : Marks :=
  ⟨atRest true true,
    { runner := true, running := true, up := true, cleaned := true, waited := true }, q⟩

/-- The marks of a run that has not installed its cleanup. -/
def runningMarks (q : ListenMarks) : Marks :=
  ⟨atRest false false, { runner := true, running := true }, q⟩

/-- A run reads its actions and signals, and leaves nothing else behind. -/
def ListenMarks.Ran (q q' : ListenMarks) : Prop :=
  ∃ read signalled, q' = { q with read := read, signalled := signalled }

/-- A run ends without a cleanup, or with the cleanup done. -/
def Left (q : ListenMarks) (m : Marks) : Prop :=
  ∃ q', q.Ran q' ∧ (m = runningMarks q' ∨ m = cleanedMarks q')

section
variable {q : ListenMarks}

theorem accepts_cleanup (runCancel : Token) :
    marking.Accepts (fun m _ => m = cleanedMarks q) (servingMarks q) (cleanup runCancel) := by
  refine ⟨trivial, fun _ => ⟨⟨rfl, rfl⟩, fun taken => ?_⟩⟩
  obtain ⟨services, subs⟩ := taken
  refine (accepts_releaseAll _ rfl _ _ services).bind fun m _ hm => ?_
  subst hm
  refine (accepts_releaseAll _ rfl _ _ subs).bind fun m _ hm => ?_
  subst hm
  have hempty : ((services ++ subs).filter (· ∉ services)).filter (· ∉ subs) = [] := by
    rw [List.filter_filter, List.filter_eq_nil_iff]
    intro r hr
    rcases List.mem_append.mp hr with hr | hr <;> simp [hr]
  refine ⟨⟨rfl, rfl, hempty⟩, fun _ => ?_⟩
  refine (accepts_closeTransport fun _ => rfl).mono fun m _ hm => ?_
  rw [hm]
  exact congrArg (fun hands => (⟨atRest true true, { (servingMarks q).pool with
    cleaned := true, waited := true, hands := hands }, q⟩ : Marks)) hempty

theorem accepts_serve (hlive : q.live = true) (hread : q.read = none) (ctx runCtx : Ctx)
    (nc : Conn) :
    marking.Accepts (fun m _ => ∃ q', q.Ran q' ∧ m = servingMarks q') (servingMarks q)
      (serve ctx runCtx nc) := by
  refine ⟨⟨rfl, hlive, hread⟩, fun actions => ?_⟩
  have hfail : ∀ err, marking.Accepts (fun m _ => ∃ q', q.Ran q' ∧ m = servingMarks q')
      (servingMarks { q with read := some actions }) (failReady err) := fun err =>
    (accepts_failReady rfl rfl hlive err).mono fun m _ hm => ⟨_, ⟨_, _, rfl⟩, hm⟩
  refine (accepts_mountActions runCtx nc actions).bind fun m r hm => ?_
  subst hm
  rcases r with _ | mountErr
  · refine ⟨trivial, fun r => ?_⟩
    rcases r with _ | flushErr
    · refine ⟨⟨rfl, hlive, nofun⟩, fun panicked => ?_⟩
      cases panicked
      · refine ⟨trivial, fun r => ?_⟩
        rcases r with _ | lastErr
        · exact ⟨_, ⟨_, _, rfl⟩, rfl⟩
        · refine ⟨trivial, fun r => ?_⟩
          rcases r with _ | err <;> exact ⟨_, ⟨_, _, rfl⟩, rfl⟩
      · exact ⟨_, ⟨_, _, rfl⟩, rfl⟩
    · exact hfail _
  · exact hfail _

theorem accepts_connectAndServe (hlive : q.live = true) (hread : q.read = none) (signals : ℕ)
    (ctx : Ctx) :
    marking.Accepts (fun m _ => Left q m) (runningMarks q) (connectAndServe signals ctx) := by
  have hfail : ∀ runCancel err, marking.Accepts (fun m _ => Left q m) (runningMarks q) (do
      link (.cancel runCancel)
      failReady err) := fun runCancel err =>
    ⟨trivial, fun _ => (accepts_failReady rfl rfl hlive err).mono fun m _ hm =>
      ⟨q, ⟨_, _, rfl⟩, .inl hm⟩⟩
  refine ⟨trivial, fun runCancel => ?_⟩
  refine (accepts_ensureConn signals _).bind fun m r hm => ?_
  subst hm
  rcases r with err | nc
  · exact hfail runCancel err
  · refine ⟨rfl, fun r => ?_⟩
    rcases r with _ | jsErr
    · refine (accepts_serve hlive hread ctx _ nc).bind fun m reply hm => ?_
      obtain ⟨q', hran, rfl⟩ := hm
      exact (accepts_cleanup runCancel).bind fun m _ hm => ⟨q', hran, .inr hm⟩
    · exact hfail runCancel jsErr

theorem accepts_doExclusively (hlive : q.live = true) (hread : q.read = none) (signals : ℕ)
    (ctx : Ctx) :
    marking.Accepts (fun m _ => Left q m) (runningMarks q) (doExclusively signals ctx) := by
  have hfail : ∀ err, marking.Accepts (fun m _ => Left q m) (runningMarks q) (failReady err) :=
    fun err => (accepts_failReady rfl rfl hlive err).mono fun m _ hm =>
      ⟨q, ⟨_, _, rfl⟩, .inl hm⟩
  refine ⟨trivial, fun r => ?_⟩
  rcases r with _ | initErr
  · refine ⟨trivial, fun embedded => ?_⟩
    cases embedded
    · exact accepts_connectAndServe hlive hread signals ctx
    · refine ⟨trivial, fun r => ?_⟩
      rcases r with err | url
      · exact hfail err
      · refine (accepts_connectAndServe hlive hread signals ctx).bind fun m reply hm => ?_
        obtain ⟨q', hran, rfl | rfl⟩ := hm
        · exact ⟨trivial, fun _ => ⟨q', hran, .inl rfl⟩⟩
        · exact ⟨trivial, fun _ => ⟨q', hran, .inr rfl⟩⟩
  · exact hfail initErr

end

/-- Nothing is held and nothing is owed. -/
structure Marks.Idle (m : Marks) : Prop where
  link : ∃ closes took, m.link = atRest closes took
  running : m.pool.running = false
  hands : m.pool.hands = []
  worker : m.pool.worker = false
  listen : ¬ m.listen.InProgress

theorem ListenMarks.not_inProgress_of_role {q : ListenMarks} (hq : q.role ≠ .invocation) :
    ¬ q.InProgress := fun h => hq h.role

theorem ListenMarks.live_role {q : ListenMarks} (hlive : q.live = true) :
    q.role ≠ .invocation := by
  intro hrole
  simp [ListenMarks.live, hrole, Role.runs] at hlive

/-- What goes on in a run is no invocation in progress. -/
theorem ListenMarks.not_inProgress {m q : ListenMarks} (hlive : m.live = true)
    (hrole : q.role = m.role) : ¬ q.InProgress :=
  fun h => live_role hlive (hrole.symm.trans h.role)

theorem accepts_doRun {q : ListenMarks} (hlive : q.live = true) (hread : q.read = none)
    (signals : ℕ) (ctx : Ctx) :
    marking.Accepts (fun m _ => m.Idle ∧ q.Ran m.listen) ⟨{}, { runner := true }, q⟩
      (doRun signals ctx) := by
  have hidle : ∀ q', q.Ran q' → ¬ q'.InProgress := by
    rintro q' ⟨read, signalled, rfl⟩
    exact ListenMarks.not_inProgress hlive rfl
  refine ⟨⟨rfl, rfl, rfl, rfl⟩, fun started => ?_⟩
  cases started
  · have hran : q.Ran q := ⟨_, _, rfl⟩
    exact ⟨⟨⟨_, _, rfl⟩, rfl, rfl, rfl, hidle q hran⟩, hran⟩
  · refine ⟨⟨rfl, rfl⟩, fun _ => ?_⟩
    refine (accepts_doExclusively hlive hread signals ctx).bind fun m reply hm => ?_
    obtain ⟨q', hran, rfl | rfl⟩ := hm
    · exact ⟨⟨rfl, rfl, nofun⟩,
        fun _ => ⟨⟨⟨_, _, rfl⟩, rfl, rfl, rfl, hidle q' hran⟩, hran⟩⟩
    · exact ⟨⟨rfl, rfl, fun _ => ⟨rfl, rfl, rfl, rfl⟩⟩,
        fun _ => ⟨⟨⟨_, _, rfl⟩, rfl, rfl, rfl, hidle q' hran⟩, hran⟩⟩

/-! ### Workers -/

theorem accepts_handleAll {m : Marks} (howes : m.link.owes = none)
    (hworker : m.pool.worker = true) (k : ℕ) :
    marking.Accepts (fun m' _ => m' = m) m (handleAll k) := by
  induction k with
  | zero => rfl
  | succ k ih => exact ⟨by simpa only [marking, Marks.allows, howes] using hworker, fun _ => ih⟩

theorem idle_default : Marks.Idle {} :=
  ⟨⟨_, _, rfl⟩, rfl, rfl, rfl, ListenMarks.not_inProgress_of_role nofun⟩

theorem accepts_callback : marking.Accepts (fun m _ => m.Idle) {} callback := by
  refine ⟨rfl, fun admitted => ?_⟩
  cases admitted
  · exact idle_default
  · exact ⟨rfl, fun _ => ⟨⟨rfl, rfl⟩, fun _ => idle_default⟩⟩

/-- The marks of a worker with `hands` in its hands. -/
def workerMarks (hands : List Resource) : Marks := { pool := { hands := hands, worker := true } }

theorem accepts_workerDone :
    marking.Accepts (fun m _ => m.Idle) (workerMarks []) (pool .workerDone) :=
  ⟨⟨rfl, rfl⟩, fun _ => idle_default⟩

theorem accepts_endFetching (sub : Resource) :
    marking.Accepts (fun m _ => m.Idle) (workerMarks []) (endFetching sub) :=
  ⟨trivial, fun _ => accepts_workerDone⟩

theorem accepts_fetchEnds (ctx : Ctx) (nc : Conn) (err : Err) :
    marking.Accepts (fun m _ => m = workerMarks []) (workerMarks []) (fetchEnds ctx nc err) := by
  rw [fetchEnds, accepts_link_bind]
  refine ⟨trivial, fun r => ?_⟩
  rcases r with _ | ctxErr
  · dsimp only
    split
    · rfl
    · refine ⟨trivial, fun closed => ?_⟩
      cases closed
      · exact ⟨trivial, fun _ => rfl⟩
      · rfl
  · rfl

theorem accepts_runFetchLoop (ctx : Ctx) (nc : Conn) (sub : Resource) (turns : ℕ) :
    marking.Accepts (fun m _ => m.Idle) (workerMarks []) (runFetchLoop ctx nc sub turns) := by
  induction turns with
  | zero => exact ⟨trivial, fun _ => accepts_endFetching sub⟩
  | succ turns ih =>
      refine ⟨trivial, fun r => ?_⟩
      rcases r with _ | ctxErr
      · refine ⟨trivial, fun r => ?_⟩
        rcases r with err | msgs
        · change marking.Accepts _ (workerMarks []) (if _ then _ else _)
          split
          · exact ih
          · refine (accepts_fetchEnds ctx nc err).bind fun m ends hm => ?_
            subst hm
            cases ends
            · exact ih
            · exact accepts_endFetching sub
        · refine (accepts_handleAll rfl rfl msgs).bind fun m _ hm => ?_
          subst hm
          exact ih
      · exact accepts_endFetching sub

theorem accepts_endUpdates (ctx : Ctx) (watcher : Resource) :
    marking.Accepts (fun m _ => m = workerMarks []) (workerMarks [watcher])
      (endUpdates ctx watcher) := by
  refine ⟨trivial, fun _ => ⟨trivial, fun _ => ?_⟩⟩
  exact congrArg (fun p => ({ pool := p } : Marks))
    (without_cons_self (p := { worker := true }) rfl watcher)

/-- What a watching goroutine has in its hands. -/
def Watching.hands : Watching → List Resource
  | .updates watcher => [watcher]
  | .reopening => []

theorem accepts_watchLoop (ctx : Ctx) (what : Opening) (turns : ℕ) (at_ : Watching) :
    marking.Accepts (fun m _ => m.Idle) (workerMarks at_.hands)
      (watchLoop ctx what turns at_) := by
  induction turns generalizing at_ with
  | zero =>
      cases at_ with
      | updates watcher =>
          refine ⟨trivial, fun _ => (accepts_endUpdates ctx watcher).bind fun m _ hm => ?_⟩
          subst hm
          exact accepts_workerDone
      | reopening => exact ⟨trivial, fun _ => accepts_workerDone⟩
  | succ turns ih =>
      cases at_ with
      | updates watcher =>
          have hend : marking.Accepts (fun m _ => m.Idle) (workerMarks [watcher]) (do
              if ← endUpdates ctx watcher then pool .workerDone
              else watchLoop ctx what turns .reopening) := by
            refine (accepts_endUpdates ctx watcher).bind fun m done hm => ?_
            subst hm
            cases done
            · exact ih .reopening
            · exact accepts_workerDone
          refine ⟨trivial, fun update => ?_⟩
          cases update with
          | closed => exact hend
          | nil =>
              refine ⟨trivial, fun r => ?_⟩
              rcases r with _ | err
              · exact ih (.updates watcher)
              · exact hend
          | entry =>
              refine ⟨trivial, fun r => ?_⟩
              rcases r with _ | err
              · exact ⟨rfl, fun _ => ih (.updates watcher)⟩
              · exact hend
      | reopening =>
          refine ⟨trivial, fun done => ?_⟩
          cases done
          · refine ⟨.inr rfl, fun r => ?_⟩
            rcases r with err | next
            · exact ih .reopening
            · exact ⟨trivial, fun _ => ih (.updates next)⟩
          · exact accepts_workerDone

theorem accepts_stopWatcher (ctx : Ctx) (watcher : Resource) :
    marking.Accepts (fun m _ => m.Idle) {} (stopWatcher ctx watcher) := by
  refine ⟨trivial, fun done => ?_⟩
  cases done
  · exact idle_default
  · exact ⟨trivial, fun _ => idle_default⟩

/-! ### Readiness -/

/-- Whoever waits for readiness is told so only after it has waited. -/
theorem accepts_waitReady (q : ListenMarks) (ctx : Ctx) :
    marking.Accepts (fun m r => ∃ awaited told,
        m = { listen := { q with awaited := awaited, told := told } } ∧ (r = none → told = true))
      { listen := q } (waitReady ctx) := by
  refine ⟨trivial, fun r => ?_⟩
  rcases r with _ | err
  · refine ⟨trivial, fun r => ?_⟩
    rcases r with _ | err
    · exact ⟨_, _, rfl, fun _ => rfl⟩
    · exact ⟨_, _, rfl, nofun⟩
  · exact ⟨_, _, rfl, nofun⟩

theorem accepts_listener (signals id : ℕ) (ctx : Ctx) :
    marking.Accepts (fun m _ => m.Idle)
      ⟨{}, { runner := true }, { role := .run id ctx }⟩ (listener signals id ctx) := by
  refine (accepts_doRun rfl rfl signals ctx).bind fun m reply hm => ?_
  obtain ⟨⟨⟨closes, took, hlink⟩, hrun, hhands, hworker, hidle⟩, read, signalled, hlisten⟩ := hm
  cases reply with
  | returned err =>
      refine ⟨?_, fun _ => ⟨⟨closes, took, hlink⟩, hrun, hhands, hworker, ?_⟩⟩
      · simp only [marking, Marks.allows, hlink, atRest, PoolMarks.allows, hlisten]
        exact ⟨rfl, ctx, rfl⟩
      · refine ListenMarks.not_inProgress_of_role ?_
        simp [marking, Marks.after, ListenMarks.afterPool, hlisten]
  | panicked => exact ⟨⟨closes, took, hlink⟩, hrun, hhands, hworker, hidle⟩

/-- The listening marks of an invocation that has started its goroutine. -/
def startedMarks (actions : List Action) (id : ℕ) (ctx : Ctx) (received awaited told : Bool) :
    ListenMarks where
  role := .invocation
  mounted := some actions
  started := some (id, ctx)
  received := received
  awaited := awaited
  told := told

theorem idle_startedMarks (actions : List Action) (id : ℕ) (ctx : Ctx) (awaited told : Bool) :
    Marks.Idle { listen := startedMarks actions id ctx true awaited told } :=
  ⟨⟨_, _, rfl⟩, rfl, rfl, rfl, fun h => absurd h.received nofun⟩

theorem accepts_listen (ctx : Ctx) :
    marking.Accepts (fun m _ => m.Idle) { listen := { role := .invocation } } (listen ctx) := by
  refine ⟨trivial, fun r => ?_⟩
  rcases r with err | actions
  · exact ⟨⟨_, _, rfl⟩, rfl, rfl, rfl, fun h => h.mounted rfl⟩
  · refine ⟨.inl rfl, fun _ => ⟨trivial, fun cancel => ?_⟩⟩
    refine ⟨⟨⟨rfl, nofun, rfl⟩, rfl⟩, fun id => ?_⟩
    refine (accepts_waitReady (startedMarks actions id (cancel :: ctx) false false false) _).bind
      fun m r hm => ?_
    obtain ⟨awaited, told, rfl, htold⟩ := hm
    have hidle := idle_startedMarks actions id (cancel :: ctx) awaited told
    have hprogress : (startedMarks actions id (cancel :: ctx) false awaited told).InProgress :=
      ⟨rfl, nofun, rfl⟩
    rcases r with _ | err
    · refine ⟨⟨hprogress, nofun, htold rfl⟩, fun _ => ⟨⟨hprogress, _, rfl⟩, fun err => ?_⟩⟩
      refine ⟨trivial, fun ended => ⟨trivial, fun _ => ?_⟩⟩
      change marking.Accepts _
        { listen := startedMarks actions id (cancel :: ctx) true awaited told } (if _ then _ else _)
      split <;> exact hidle
    · refine ⟨trivial, fun _ => ⟨⟨hprogress, _, rfl⟩, fun doErr => ⟨trivial, fun ended => ?_⟩⟩⟩
      change marking.Accepts _
        { listen := startedMarks actions id (cancel :: ctx) true awaited told } (if _ then _ else _)
      split
      · exact hidle
      · rcases doErr with _ | doErr <;> exact hidle

/-! ### The monitored system -/

/-- A worker is counted before it begins, and a watching one has its watcher. -/
def Goroutine.marks : Goroutine → Marks
  | .fetchLoop _ _ _ => workerMarks []
  | .watch _ _ watcher => workerMarks [watcher]
  | .stopWatcher _ _ => {}
  | .listener id ctx => ⟨{}, { runner := true }, { role := .run id ctx }⟩

def Call.marks : Call → Marks
  | .doRun _ _ => ⟨{}, { runner := true }, { role := .direct }⟩
  | .mount _ => { listen := { role := .direct } }
  | .listen _ => { listen := { role := .invocation } }
  | .goroutine g _ => g.marks
  | .ensureConn _ _ | .close | .waitReady _ | .callback _ => {}

/-- Every call ends idle, and `Close` has taken the connection. -/
def Call.final (c : Call) (m : Marks) (_ : Result) : Prop :=
  m.Idle ∧ (c = .close → m.link.took = true)

theorem accepts_finishing {c : Call} {m : Marks} {p : Routine Unit} (hc : c ≠ .close)
    (hp : marking.Accepts (fun m _ => m.Idle) m p) : marking.Accepts c.final m (finishing p) :=
  hp.bind fun _ _ hm => ⟨hm, fun h => absurd h hc⟩

theorem accepts_goroutine (g : Goroutine) (turns : ℕ) :
    marking.Accepts (fun m _ => m.Idle) g.marks (g.program turns) := by
  cases g with
  | fetchLoop ctx nc sub => exact accepts_runFetchLoop ctx nc sub turns
  | watch ctx what watcher =>
      exact ⟨trivial, fun _ => accepts_watchLoop ctx what turns (.updates watcher)⟩
  | stopWatcher ctx watcher => exact accepts_stopWatcher ctx watcher
  | listener id ctx => exact accepts_listener turns id ctx

theorem accepts_program (c : Call) : marking.Accepts c.final c.marks c.program := by
  cases c with
  | ensureConn signals ctx =>
      refine (accepts_ensureConn signals ctx).bind fun m r hm => ?_
      subst hm
      exact ⟨idle_default, nofun⟩
  | close =>
      refine (accepts_closeTransport (p := {}) (q := {}) nofun).bind fun m _ hm => ?_
      subst hm
      exact ⟨{ idle_default with link := ⟨_, _, rfl⟩ }, fun _ => rfl⟩
  | mount actions =>
      refine accepts_finishing nofun ⟨.inr rfl, fun _ => ?_⟩
      exact ⟨⟨_, _, rfl⟩, rfl, rfl, rfl, ListenMarks.not_inProgress_of_role nofun⟩
  | doRun signals ctx =>
      exact (accepts_doRun rfl rfl signals ctx).bind fun _ _ hm => ⟨hm.1, nofun⟩
  | waitReady ctx =>
      refine (accepts_waitReady {} ctx).bind fun m r hm => ?_
      obtain ⟨awaited, told, rfl, -⟩ := hm
      exact ⟨⟨⟨_, _, rfl⟩, rfl, rfl, rfl, ListenMarks.not_inProgress_of_role nofun⟩, nofun⟩
  | listen ctx => exact (accepts_listen ctx).bind fun _ _ hm => ⟨hm, nofun⟩
  | callback r => exact accepts_finishing nofun accepts_callback
  | goroutine g turns => exact accepts_finishing nofun (accepts_goroutine g turns)

def watched : Watch transport Marks where
  toMonitor := marking
  start := Call.marks
  final := Call.final
  program := accepts_program

end TransportNats.Lifecycle
