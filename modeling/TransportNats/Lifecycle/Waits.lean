import TransportNats.Lifecycle.Accepted

/-!
What a goroutine of the transport waits for.

There are few places where one waits: for the gate, for the counter of the
workers, for the result of a run that `nats.listen` has started, for the next
update of a watcher, and for a context. The monitor here allows a wait only
where somebody is there to end it. Every context that a goroutine waits for, or
hands to a goroutine that it starts, descends from the context of its own call.
And the waits go down in level: an invocation of `nats.listen` waits for its
run, a run for its workers, a watching worker for the goroutine that stops its
watcher, and none of them while it has the gate.
-/

namespace TransportNats.Lifecycle

open Interleaving

/-! ### Contexts and levels -/

def Goroutine.ctx : Goroutine → Ctx
  | .fetchLoop ctx _ _ | .watch ctx _ _ | .stopWatcher ctx _ | .listener _ ctx => ctx

/-- The context with which a call is made, if it takes one. -/
def Call.ctx? : Call → Option Ctx
  | .ensureConn _ ctx => ctx
  | .doRun _ ctx | .waitReady ctx | .listen ctx => some ctx
  | .goroutine g _ => some g.ctx
  | .close | .mount _ | .callback _ => none

/-- The context is that of the call, or derived from it. -/
def Call.Passes (c : Call) (ctx : Ctx) : Prop := ∃ own, c.ctx? = some own ∧ own <:+ ctx

theorem Call.Passes.cons {c : Call} {ctx : Ctx} (h : c.Passes ctx) (tok : Token) :
    c.Passes (tok :: ctx) := by
  obtain ⟨own, hown, hsuf⟩ := h
  exact ⟨own, hown, hsuf.trans (List.suffix_cons tok ctx)⟩

def Goroutine.level : Goroutine → ℕ
  | .stopWatcher _ _ => 0
  | .fetchLoop _ _ _ | .watch _ _ _ => 1
  | .listener _ _ => 2

/-- A call starts and awaits only goroutines of lower levels. -/
def Call.level : Call → ℕ
  | .listen _ => 3
  | .doRun _ _ => 2
  | .goroutine g _ => g.level
  | .ensureConn _ _ | .close | .mount _ | .waitReady _ | .callback _ => 0

/-! ### The monitor -/

structure Waits where
  call : Call
  /-- Has the gate. -/
  gate : Bool := false
  /-- The goroutines it has started for whose effect it may wait. -/
  helpers : List Goroutine := []
  /-- Has sent the result of its run. -/
  sent : Bool := false
  /-- Has panicked in `signalReady`. -/
  panicked : Bool := false

def Waits.afterLink (m : Waits) : (o : LinkOp) → o.Ret → Waits
  | .lockConnect _, none | .lockGate, _ => { m with gate := true }
  | .unlockConnect, _ => { m with gate := false }
  | _, _ => m

def Waits.afterPool (m : Waits) : (o : PoolOp) → o.Ret → Waits
  | .goStopper ctx watcher, _ => { m with helpers := .stopWatcher ctx watcher :: m.helpers }
  | .goListener ctx, id => { m with helpers := .listener id ctx :: m.helpers }
  | .sendDone _ _, _ => { m with sent := true }
  | _, _ => m

def Waits.afterReady (m : Waits) : (o : ReadyOp) → o.Ret → Waits
  | .signalReady _, panicked => { m with panicked := panicked || m.panicked }
  | _, _ => m

def Waits.after (m : Waits) : Answered lifecycleSig → Waits
  | ⟨.link o, r⟩ => m.afterLink o r
  | ⟨.pool o, r⟩ => m.afterPool o r
  | ⟨.ready o, r⟩ => m.afterReady o r
  | ⟨.external _, _⟩ => m

def Waits.allowsLink (m : Waits) : LinkOp → Prop
  | .lockGate => m.gate = false
  | .lockConnect ctx | .awaitConnected ctx _ _ | .awaitEnd ctx _ _ => m.call.Passes ctx
  | _ => True

def Waits.allowsPool (m : Waits) : PoolOp → Prop
  | .awaitWorkers => m.gate = false ∧ m.call.level = 2
  | .receiveDone id => m.gate = false ∧ m.call.level = 3 ∧ ∃ ctx, .listener id ctx ∈ m.helpers
  | .startWorker => m.call.level = 0
  | .goWorker g => g.level < m.call.level ∧ m.call.Passes g.ctx
  | .goStopper ctx _ => 0 < m.call.level ∧ m.call.Passes ctx
  | .goListener ctx => 2 < m.call.level ∧ m.call.Passes ctx
  | .sendDone id _ => ∃ ctx turns, m.call = .goroutine (.listener id ctx) turns
  | _ => True

def Waits.allowsExternal (m : Waits) : ExternalOp → Prop
  | .awaitStop ctx _ | .pause ctx | .awaitCtx ctx => m.call.Passes ctx
  | .nextUpdate watcher =>
      m.gate = false ∧ m.call.level = 1 ∧ ∃ ctx, .stopWatcher ctx watcher ∈ m.helpers
  | _ => True

def Waits.allows (m : Waits) : Op → Prop
  | .link o => m.allowsLink o
  | .pool o => m.allowsPool o
  | .ready (.awaitReady ctx) => m.call.Passes ctx
  | .ready _ => True
  | .external o => m.allowsExternal o

def waiting : Monitor lifecycleSig Waits where
  after := Waits.after
  allows := Waits.allows

/-! ### Connecting and closing -/

section
variable {m : Waits}

theorem waits_cachedConnection : waiting.Accepts (fun m' _ => m' = m) m cachedConnection := by
  refine ⟨trivial, fun view => ?_⟩
  obtain ⟨conn, initErr, providedConn, closing⟩ := view
  rcases initErr with _ | err
  · cases closing
    · cases providedConn <;> rcases conn with _ | nc
      · rfl
      · refine ⟨trivial, fun closed => ?_⟩
        cases closed <;> rfl
      · rfl
      · refine ⟨trivial, fun closed => ?_⟩
        cases closed <;> rfl
    · rfl
  · rfl

theorem waits_lookConnected {ctx connectCtx : Ctx} {nc : Conn} {wait : Routine (Option Err)}
    (hwait : waiting.Accepts (fun m' _ => m' = m) m wait) :
    waiting.Accepts (fun m' _ => m' = m) m (lookConnected ctx connectCtx nc wait) := by
  refine ⟨trivial, fun r => ?_⟩
  rcases r with _ | err
  · refine ⟨trivial, fun r => ?_⟩
    rcases r with _ | err
    · refine ⟨trivial, fun up => ?_⟩
      cases up
      · exact hwait
      · rfl
    · rfl
  · rfl

theorem waits_waitForInitialConnection {ctx connectCtx : Ctx} {nc : Conn}
    (hctx : m.call.Passes ctx) (signals : ℕ) :
    waiting.Accepts (fun m' _ => m' = m) m
      (waitForInitialConnection ctx connectCtx nc signals) := by
  induction signals with
  | zero => exact waits_lookConnected ⟨hctx, fun _ => rfl⟩
  | succ signals ih =>
      refine waits_lookConnected ⟨hctx, fun r => ?_⟩
      rcases r with _ | e
      · exact ih
      · rfl

theorem waits_dialRegistered {ctx connectCtx : Ctx} {rawURL : String} (hctx : m.call.Passes ctx)
    (signals : ℕ) :
    waiting.Accepts (fun m' _ => m' = m) m (dialRegistered signals ctx connectCtx rawURL) := by
  refine ⟨trivial, fun r => ?_⟩
  rcases r with err | nc
  · refine ⟨trivial, fun r => ?_⟩
    rcases r with _ | err <;> rfl
  · refine (waits_waitForInitialConnection hctx signals).bind fun m' r hm => ?_
    subst hm
    rcases r with _ | err
    · refine ⟨trivial, fun r => ?_⟩
      rcases r with _ | jsErr
      · refine ⟨trivial, fun stored => ?_⟩
        cases stored
        · exact ⟨trivial, fun _ => rfl⟩
        · rfl
      · exact ⟨trivial, fun _ => rfl⟩
    · exact ⟨trivial, fun _ => rfl⟩

theorem waits_dialConnection {ctx : Ctx} (hctx : m.call.Passes ctx) (signals : ℕ) :
    waiting.Accepts (fun m' _ => m' = m) m (dialConnection signals ctx) := by
  refine ⟨trivial, fun rawURL => ?_⟩
  change waiting.Accepts _ m (if _ then _ else _)
  split
  · rfl
  · refine ⟨trivial, fun tok => ⟨trivial, fun published => ?_⟩⟩
    cases published
    · exact ⟨trivial, fun _ => rfl⟩
    · refine (waits_dialRegistered hctx signals).bind fun m' r hm => ?_
      subst hm
      exact ⟨trivial, fun _ => ⟨trivial, fun _ => rfl⟩⟩

theorem waits_connectLocked {ctx : Ctx} (hctx : m.call.Passes ctx) (signals : ℕ) :
    waiting.Accepts (fun m' _ => m' = m) m (connectLocked signals ctx) := by
  refine ⟨trivial, fun r => ?_⟩
  rcases r with _ | err
  · refine waits_cachedConnection.bind fun m' r hm => ?_
    subst hm
    rcases r with _ | state
    · exact waits_dialConnection hctx signals
    · rfl
  · rfl

/-- Who has taken the gate and released it again is as before. -/
theorem Waits.gate_set (hgate : m.gate = false) : { m with gate := false } = m := by
  obtain ⟨call, gate, helpers, sent, panicked⟩ := m
  obtain rfl : gate = false := hgate
  rfl

/-- `EnsureConn` waits for the gate, and for the connection while it has it, with
its own context. -/
theorem waits_ensureConn (hgate : m.gate = false) (signals : ℕ) {ctx : Option Ctx}
    (hctx : ∀ x, ctx = some x → m.call.Passes x) :
    waiting.Accepts (fun m' _ => m' = m) m (ensureConn signals ctx) := by
  rcases ctx with _ | ctx
  · rfl
  · have hpasses := hctx ctx rfl
    refine ⟨trivial, fun r => ?_⟩
    rcases r with _ | err
    · refine waits_cachedConnection.bind fun m' r hm => ?_
      subst hm
      rcases r with _ | state
      · refine ⟨hpasses, fun r => ?_⟩
        rcases r with _ | err
        · refine (waits_connectLocked (m := { m' with gate := true }) hpasses signals).bind
            fun m'' r hm => ?_
          subst hm
          exact ⟨trivial, fun _ => Waits.gate_set hgate⟩
        · rfl
      · rfl
    · rfl

theorem waits_closeTransport (hgate : m.gate = false) :
    waiting.Accepts (fun m' _ => m' = m) m closeTransport := by
  have hlocked : waiting.Accepts (fun m' _ => m' = m) m (do
      link .lockGate
      closeTaken (← link .takeConn)
      link .unlockConnect) := by
    refine ⟨hgate, fun _ => ⟨trivial, fun taken => ?_⟩⟩
    obtain ⟨_ | nc, _ | _⟩ := taken
    · exact ⟨trivial, fun _ => Waits.gate_set hgate⟩
    · exact ⟨trivial, fun _ => Waits.gate_set hgate⟩
    · exact ⟨trivial, fun _ => ⟨trivial, fun _ => Waits.gate_set hgate⟩⟩
    · exact ⟨trivial, fun _ => Waits.gate_set hgate⟩
  refine ⟨trivial, fun cancelConnect => ?_⟩
  rcases cancelConnect with _ | tok
  · exact hlocked
  · exact ⟨trivial, fun _ => hlocked⟩

/-! ### Mounting -/

theorem waits_subscribeTopic (subject queueGroup : String) :
    waiting.Accepts (fun m' _ => m' = m) m (subscribeTopic subject queueGroup) := by
  refine ⟨trivial, fun r => ?_⟩
  rcases r with err | sub
  · rfl
  · exact ⟨trivial, fun _ => rfl⟩

section
variable {ctx : Ctx} (hlevel : m.call.level = 2) (hctx : m.call.Passes ctx)
include hlevel hctx

theorem waits_mountWatcher (what : Opening) :
    waiting.Accepts (fun m' _ => m' = m) m (mountWatcher ctx what) := by
  have hlower : 1 < m.call.level := by omega
  refine ⟨trivial, fun r => ?_⟩
  rcases r with err | watcher
  · rfl
  · exact ⟨⟨hlower, hctx⟩, fun _ => rfl⟩

theorem waits_mountKV (bucket key : String) :
    waiting.Accepts (fun m' _ => m' = m) m (mountKV ctx bucket key) := by
  rw [mountKV]
  split
  · rfl
  · refine ⟨trivial, fun r => ?_⟩
    rcases r with _ | err
    · refine ⟨trivial, fun r => ?_⟩
      rcases r with _ | err
      · exact waits_mountWatcher hlevel hctx _
      · rfl
    · rfl

theorem waits_mountObjectStore (bucket : String) :
    waiting.Accepts (fun m' _ => m' = m) m (mountObjectStore ctx bucket) := by
  rw [mountObjectStore]
  split
  · rfl
  · refine ⟨trivial, fun r => ?_⟩
    rcases r with _ | err
    · exact waits_mountWatcher hlevel hctx _
    · rfl

theorem waits_startFetching (nc : Conn) (stream subject durable : String) :
    waiting.Accepts (fun m' _ => m' = m) m (startFetching ctx nc stream subject durable) := by
  have hlower : 1 < m.call.level := by omega
  refine ⟨trivial, fun r => ?_⟩
  rcases r with err | sub
  · rfl
  · refine ⟨trivial, fun r => ?_⟩
    rcases r with _ | err
    · exact ⟨trivial, fun _ => ⟨⟨hlower, hctx⟩, fun _ => rfl⟩⟩
    · exact ⟨trivial, fun _ => rfl⟩

theorem waits_subscribeDurable (nc : Conn) (b : Delivery.DurableBinding) :
    waiting.Accepts (fun m' _ => m' = m) m (subscribeDurable ctx nc b) := by
  rw [subscribeDurable]
  split
  · rfl
  · refine ⟨trivial, fun r => ?_⟩
    rcases r with _ | err
    · refine ⟨trivial, fun r => ?_⟩
      rcases r with _ | err
      · exact waits_startFetching hlevel hctx nc _ _ _
      · rfl
    · rfl

theorem waits_subscribeConsumer (nc : Conn) (b : Delivery.ConsumerBinding) :
    waiting.Accepts (fun m' _ => m' = m) m (subscribeConsumer ctx nc b) := by
  have hinfra : waiting.Accepts (fun m' _ => m' = m) m (ensureConsumerInfra b) := by
    refine ⟨trivial, fun r => ?_⟩
    rcases r with _ | err
    · change waiting.Accepts _ m (if _ then _ else _)
      split
      · rfl
      · exact ⟨trivial, fun _ => rfl⟩
    · rfl
  rw [subscribeConsumer]
  split
  · rfl
  · refine hinfra.bind fun m' r hm => ?_
    subst hm
    rcases r with _ | err
    · exact waits_startFetching hlevel hctx nc _ _ _
    · rfl

theorem waits_mountBindings (nc : Conn) (bs : List Binding) :
    waiting.Accepts (fun m' _ => m' = m) m (mountBindings ctx nc bs) := by
  induction bs with
  | nil => rfl
  | cons b bs ih =>
      have hb : waiting.Accepts (fun m' _ => m' = m) m (mountBinding ctx nc b) := by
        cases b with
        | topic subject queueGroup => exact waits_subscribeTopic subject queueGroup
        | request subject => exact waits_subscribeTopic subject ""
        | kv bucket key => exact waits_mountKV hlevel hctx bucket key
        | durable b => exact waits_subscribeDurable hlevel hctx nc b
        | consumer b => exact waits_subscribeConsumer hlevel hctx nc b
        | object bucket => exact waits_mountObjectStore hlevel hctx bucket
        | service name endpoint => rfl
        | unsupported => rfl
      refine hb.bind fun m' r hm => ?_
      subst hm
      rcases r with _ | err
      · exact ih
      · rfl

end

theorem waits_registerEndpoints (svc : Resource) (endpoints : List String) :
    waiting.Accepts (fun m' _ => m' = m) m (registerEndpoints svc endpoints) := by
  induction endpoints with
  | nil => rfl
  | cons endpoint endpoints ih =>
      refine ⟨trivial, fun r => ?_⟩
      rcases r with _ | err
      · exact ih
      · rfl

theorem waits_mountServices (groups : List (String × List String)) :
    waiting.Accepts (fun m' _ => m' = m) m (mountServices groups) := by
  induction groups with
  | nil => rfl
  | cons group groups ih =>
      obtain ⟨name, endpoints⟩ := group
      refine ⟨trivial, fun r => ?_⟩
      rcases r with err | svc
      · rfl
      · refine (waits_registerEndpoints svc endpoints).bind fun m' r hm => ?_
        subst hm
        rcases r with _ | err
        · exact ⟨trivial, fun _ => ih⟩
        · exact ⟨trivial, fun _ => rfl⟩

theorem waits_mountActions {ctx : Ctx} (hlevel : m.call.level = 2) (hctx : m.call.Passes ctx)
    (nc : Conn) (actions : List Action) :
    waiting.Accepts (fun m' _ => m' = m) m (mountActions ctx nc actions) := by
  refine (waits_mountBindings hlevel hctx nc _).bind fun m' r hm => ?_
  subst hm
  rcases r with _ | err
  · exact waits_mountServices _
  · rfl

end

/-! ### A run of `Do` -/

/-- The marks of the run of `c`, outside the gate. -/
structure Waits.Runs (c : Call) (m : Waits) : Prop where
  call : m.call = c
  gate : m.gate = false

/-- A run goes on outside the gate, and who says that it panicked did. -/
def Waits.Replies (c : Call) (m : Waits) (reply : Reply) : Prop :=
  m.Runs c ∧ (reply = .panicked → m.panicked = true)

section
variable {c : Call} {m : Waits}

theorem Waits.Runs.replies (hm : m.Runs c) (err : Option Err) : m.Replies c (.returned err) :=
  ⟨hm, by simp⟩

theorem waits_failReady (hm : m.Runs c) (err : Err) :
    waiting.Accepts (Waits.Replies c) m (failReady err) := by
  refine ⟨trivial, fun panicked => ?_⟩
  cases panicked
  · exact hm.replies _
  · exact ⟨⟨hm.call, hm.gate⟩, fun _ => rfl⟩

theorem waits_releaseAll (rs : List Resource) :
    waiting.Accepts (fun m' _ => m' = m) m (releaseAll rs) := by
  induction rs with
  | nil => rfl
  | cons r rs ih => exact ⟨trivial, fun _ => ih⟩

/-- The run waits for its workers outside the gate, and for the gate after that. -/
theorem waits_cleanup (hgate : m.gate = false) (hlevel : m.call.level = 2) (runCancel : Token) :
    waiting.Accepts (fun m' _ => m' = m) m (cleanup runCancel) := by
  refine ⟨trivial, fun _ => ⟨trivial, fun taken => ?_⟩⟩
  obtain ⟨services, subs⟩ := taken
  refine (waits_releaseAll services).bind fun m' _ hm => ?_
  subst hm
  refine (waits_releaseAll subs).bind fun m'' _ hm => ?_
  subst hm
  exact ⟨⟨hgate, hlevel⟩, fun _ => waits_closeTransport hgate⟩

section
variable {ctx : Ctx} (hlevel : c.level = 2) (hctx : c.Passes ctx) (hm : m.Runs c)
include hlevel hctx hm

theorem waits_serve (tok : Token) (nc : Conn) :
    waiting.Accepts (Waits.Replies c) m (serve ctx (tok :: ctx) nc) := by
  obtain ⟨rfl, hgate⟩ := hm
  have hm : m.Runs m.call := ⟨rfl, hgate⟩
  refine ⟨trivial, fun actions => ?_⟩
  refine (waits_mountActions hlevel (hctx.cons tok) nc actions).bind fun m' r hm' => ?_
  subst hm'
  rcases r with _ | mountErr
  · refine ⟨trivial, fun r => ?_⟩
    rcases r with _ | flushErr
    · refine ⟨trivial, fun panicked => ?_⟩
      cases panicked
      · refine ⟨hctx.cons tok, fun stop => ?_⟩
        rcases stop with _ | lastErr
        · exact hm.replies _
        · refine ⟨trivial, fun r => ?_⟩
          rcases r with _ | err <;> exact hm.replies _
      · exact ⟨⟨rfl, hgate⟩, fun _ => rfl⟩
    · exact waits_failReady hm _
  · exact waits_failReady hm _

theorem waits_connectAndServe (signals : ℕ) :
    waiting.Accepts (Waits.Replies c) m (connectAndServe signals ctx) := by
  refine ⟨trivial, fun runCancel => ?_⟩
  have hpasses : ∀ x, some (runCancel :: ctx) = some x → m.call.Passes x := by
    intro x hx
    rw [← Option.some.inj hx, hm.call]
    exact hctx.cons runCancel
  refine (waits_ensureConn hm.gate signals hpasses).bind fun m' r hm' => ?_
  subst hm'
  rcases r with err | nc
  · exact ⟨trivial, fun _ => waits_failReady hm err⟩
  · refine ⟨trivial, fun r => ?_⟩
    rcases r with _ | jsErr
    · refine (waits_serve hlevel hctx hm runCancel nc).bind fun m'' reply hm'' => ?_
      have hclean := waits_cleanup hm''.1.gate (hm''.1.call ▸ hlevel) runCancel
      refine hclean.bind fun m''' _ heq => ?_
      subst heq
      exact hm''
    · exact ⟨trivial, fun _ => waits_failReady hm jsErr⟩

/-- `Do` ends outside the gate. -/
theorem waits_doRun (signals : ℕ) :
    waiting.Accepts (Waits.Replies c) m (doRun signals ctx) := by
  have hexclusive : waiting.Accepts (Waits.Replies c) m (doExclusively signals ctx) := by
    refine ⟨trivial, fun r => ?_⟩
    rcases r with _ | initErr
    · refine ⟨trivial, fun embedded => ?_⟩
      cases embedded
      · exact waits_connectAndServe hlevel hctx hm signals
      · refine ⟨trivial, fun r => ?_⟩
        rcases r with err | url
        · exact waits_failReady hm err
        · exact (waits_connectAndServe hlevel hctx hm signals).bind fun _ _ h =>
            ⟨trivial, fun _ => h⟩
    · exact waits_failReady hm initErr
  refine ⟨trivial, fun started => ?_⟩
  cases started
  · exact hm.replies _
  · exact ⟨trivial, fun _ => hexclusive.bind fun _ _ h => ⟨trivial, fun _ => h⟩⟩

end

/-! ### Workers -/

theorem waits_handleAll (k : ℕ) : waiting.Accepts (fun m' _ => m' = m) m (handleAll k) := by
  induction k with
  | zero => rfl
  | succ k ih => exact ⟨trivial, fun _ => ih⟩

theorem waits_fetchEnds {ctx : Ctx} (hctx : m.call.Passes ctx) (nc : Conn) (err : Err) :
    waiting.Accepts (fun m' _ => m' = m) m (fetchEnds ctx nc err) := by
  refine ⟨trivial, fun r => ?_⟩
  rcases r with _ | ctxErr
  · change waiting.Accepts _ m (if _ then _ else _)
    split
    · rfl
    · refine ⟨trivial, fun closed => ?_⟩
      cases closed
      · exact ⟨hctx, fun _ => rfl⟩
      · rfl
  · rfl

theorem waits_runFetchLoop {ctx : Ctx} (hctx : m.call.Passes ctx) (nc : Conn) (sub : Resource)
    (turns : ℕ) : waiting.Accepts (fun m' _ => m' = m) m (runFetchLoop ctx nc sub turns) := by
  have hend : waiting.Accepts (fun m' _ => m' = m) m (endFetching sub) :=
    ⟨trivial, fun _ => ⟨trivial, fun _ => rfl⟩⟩
  induction turns with
  | zero => exact ⟨hctx, fun _ => hend⟩
  | succ turns ih =>
      refine ⟨trivial, fun r => ?_⟩
      rcases r with _ | ctxErr
      · refine ⟨trivial, fun r => ?_⟩
        rcases r with err | msgs
        · change waiting.Accepts _ m (if _ then _ else _)
          split
          · exact ih
          · refine (waits_fetchEnds hctx nc err).bind fun m' ends hm => ?_
            subst hm
            cases ends
            · exact ih
            · exact hend
        · refine (waits_handleAll msgs).bind fun m' _ hm => ?_
          subst hm
          exact ih
      · exact hend

/-- Who reads the updates of a watcher has started a goroutine that stops it. -/
def Waits.Covers (m : Waits) : Watching → Prop
  | .updates watcher => ∃ ctx, .stopWatcher ctx watcher ∈ m.helpers
  | .reopening => True

theorem waits_watchLoop {ctx : Ctx} (hlevel : c.level = 1) (hctx : c.Passes ctx) (what : Opening)
    (turns : ℕ) (hm : m.Runs c) (at_ : Watching) (hcovers : m.Covers at_) :
    waiting.Accepts (fun m' _ => m'.gate = false) m (watchLoop ctx what turns at_) := by
  induction turns generalizing m at_ with
  | zero =>
      have hown : m.call.Passes ctx := hm.call ▸ hctx
      have hdone : waiting.Accepts (fun m' _ => m'.gate = false) m (pool .workerDone) :=
        ⟨trivial, fun _ => hm.gate⟩
      cases at_ with
      | updates watcher => exact ⟨hown, fun _ => ⟨trivial, fun _ => ⟨trivial, fun _ => hdone⟩⟩⟩
      | reopening => exact ⟨hown, fun _ => hdone⟩
  | succ turns ih =>
      have hdone : waiting.Accepts (fun m' _ => m'.gate = false) m (pool .workerDone) :=
        ⟨trivial, fun _ => hm.gate⟩
      cases at_ with
      | updates watcher =>
          have hend : waiting.Accepts (fun m' _ => m'.gate = false) m (do
              if ← endUpdates ctx watcher then pool .workerDone
              else watchLoop ctx what turns .reopening) := by
            refine ⟨trivial, fun _ => ⟨trivial, fun r => ?_⟩⟩
            rcases r with _ | err
            · exact ih hm .reopening trivial
            · exact hdone
          refine ⟨⟨hm.gate, hm.call ▸ hlevel, hcovers⟩, fun update => ?_⟩
          cases update with
          | closed => exact hend
          | nil =>
              refine ⟨trivial, fun r => ?_⟩
              rcases r with _ | err
              · exact ih hm (.updates watcher) hcovers
              · exact hend
          | entry =>
              refine ⟨trivial, fun r => ?_⟩
              rcases r with _ | err
              · exact ⟨trivial, fun _ => ih hm (.updates watcher) hcovers⟩
              · exact hend
      | reopening =>
          have hown : m.call.Passes ctx := hm.call ▸ hctx
          have hlower : 0 < m.call.level := by rw [hm.call, hlevel]; decide
          refine ⟨hown, fun done => ?_⟩
          cases done
          · refine ⟨trivial, fun r => ?_⟩
            rcases r with err | next
            · exact ih hm .reopening trivial
            · refine ⟨⟨hlower, hown⟩, fun _ => ?_⟩
              exact ih (m := { m with helpers := .stopWatcher ctx next :: m.helpers })
                ⟨hm.call, hm.gate⟩ (.updates next) ⟨ctx, List.mem_cons_self⟩
          · exact hdone

/-! ### Readiness -/

theorem waits_waitReady {ctx : Ctx} (hctx : m.call.Passes ctx) :
    waiting.Accepts (fun m' _ => m' = m) m (waitReady ctx) := by
  refine ⟨hctx, fun r => ?_⟩
  rcases r with _ | err
  · exact ⟨trivial, fun _ => rfl⟩
  · rfl

/-- `nats.listen` receives from the goroutine that it has started. -/
theorem waits_listen (ctx : Ctx) :
    waiting.Accepts (fun m _ => m.gate = false) { call := .listen ctx } (listen ctx) := by
  refine ⟨trivial, fun r => ?_⟩
  rcases r with err | actions
  · rfl
  · have hctx : (Call.listen ctx).Passes ctx := ⟨ctx, rfl, List.suffix_refl _⟩
    refine ⟨trivial, fun _ => ⟨trivial, fun cancel => ?_⟩⟩
    refine ⟨⟨Nat.lt_succ_self 2, hctx.cons cancel⟩, fun id => ?_⟩
    have hready := waits_waitReady
      (m := { call := .listen ctx, helpers := [.listener id (cancel :: ctx)] }) (hctx.cons cancel)
    refine hready.bind fun m' r hm => ?_
    subst hm
    rcases r with _ | err
    · refine ⟨trivial, fun _ => ⟨⟨rfl, rfl, _, List.mem_cons_self⟩, fun err => ?_⟩⟩
      refine ⟨trivial, fun ended => ⟨trivial, fun _ => ?_⟩⟩
      change waiting.Accepts _ _ (if _ then _ else _)
      split <;> rfl
    · refine ⟨trivial, fun _ => ⟨⟨rfl, rfl, _, List.mem_cons_self⟩, fun doErr => ?_⟩⟩
      refine ⟨trivial, fun ended => ?_⟩
      change waiting.Accepts _ _ (if _ then _ else _)
      split
      · rfl
      · rcases doErr with _ | doErr <;> rfl

end

/-! ### The monitored system -/

/-- Everyone has released the gate, and the goroutine of `nats.listen` has sent
its result or panicked. -/
def Call.waited (c : Call) (m : Waits) (_ : Result) : Prop :=
  m.gate = false ∧
    ∀ id ctx turns, c = .goroutine (.listener id ctx) turns → m.sent = true ∨ m.panicked = true

theorem waits_goroutine (g : Goroutine) (turns : ℕ) :
    waiting.Accepts (fun m _ => ∀ r, (Call.goroutine g turns).waited m r)
      { call := .goroutine g turns } (g.program turns) := by
  have hctx : (Call.goroutine g turns).Passes g.ctx := ⟨g.ctx, rfl, List.suffix_refl _⟩
  have hother : (∀ id ctx, g ≠ .listener id ctx) → ∀ m : Waits, m.gate = false →
      ∀ r, (Call.goroutine g turns).waited m r := by
    refine fun hg m hgate r => ⟨hgate, fun id ctx turns' heq => ?_⟩
    cases heq
    exact absurd rfl (hg id ctx)
  cases g with
  | fetchLoop ctx nc sub =>
      refine (waits_runFetchLoop hctx nc sub turns).mono fun m _ hm => ?_
      subst hm
      exact hother (by simp) _ rfl
  | watch ctx what watcher =>
      refine ⟨⟨Nat.one_pos, hctx⟩, fun _ => ?_⟩
      exact (waits_watchLoop rfl hctx what turns ⟨rfl, rfl⟩ (.updates watcher)
        ⟨ctx, List.mem_cons_self⟩).mono fun m _ => hother (by simp) m
  | stopWatcher ctx watcher =>
      refine ⟨hctx, fun done => ?_⟩
      cases done
      · exact hother (by simp) _ rfl
      · exact ⟨trivial, fun _ => hother (by simp) _ rfl⟩
  | listener id ctx =>
      refine (waits_doRun rfl hctx ⟨rfl, rfl⟩ turns).bind fun m reply hm => ?_
      cases reply with
      | returned err =>
          exact ⟨⟨ctx, turns, hm.1.call⟩, fun _ _ => ⟨hm.1.gate, fun _ _ _ _ => .inl rfl⟩⟩
      | panicked => exact fun _ => ⟨hm.1.gate, fun _ _ _ _ => .inr (hm.2 rfl)⟩

theorem waits_program (c : Call) : waiting.Accepts c.waited { call := c } c.program := by
  have hctx : ∀ ctx, c.ctx? = some ctx → c.Passes ctx := fun ctx h => ⟨ctx, h, List.suffix_refl _⟩
  have hcall : (∀ g turns, c ≠ .goroutine g turns) → ∀ m : Waits, m.gate = false →
      ∀ r, c.waited m r := fun hc m hgate r => ⟨hgate, fun id ctx turns h => absurd h (hc _ _)⟩
  cases c with
  | ensureConn signals ctx =>
      refine (waits_ensureConn rfl signals hctx).bind fun m _ hm => ?_
      subst hm
      exact hcall (by simp) _ rfl _
  | close =>
      refine (waits_closeTransport rfl).bind fun m _ hm => ?_
      subst hm
      exact hcall (by simp) _ rfl _
  | mount actions => exact ⟨trivial, fun _ => hcall (by simp) _ rfl _⟩
  | doRun signals ctx =>
      exact (waits_doRun rfl (hctx ctx rfl) ⟨rfl, rfl⟩ signals).bind fun m _ hm =>
        hcall (by simp) m hm.1.gate _
  | waitReady ctx =>
      refine (waits_waitReady (hctx ctx rfl)).bind fun m _ hm => ?_
      subst hm
      exact hcall (by simp) _ rfl _
  | listen ctx => exact (waits_listen ctx).bind fun m _ hm => hcall (by simp) m hm _
  | callback r =>
      refine ⟨rfl, fun admitted => ?_⟩
      cases admitted
      · exact hcall (by simp) _ rfl _
      · exact ⟨trivial, fun _ => ⟨trivial, fun _ => hcall (by simp) _ rfl _⟩⟩
  | goroutine g turns => exact (waits_goroutine g turns).bind fun _ _ h => h _

def attended : Watch transport Waits where
  toMonitor := waiting
  start c := { call := c }
  final := Call.waited
  program := waits_program

end TransportNats.Lifecycle
