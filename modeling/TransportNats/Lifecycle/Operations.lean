import TransportNats.Library.Monitor
import TransportNats.Delivery.Handler

/-!
The shared state of one transport and the atomic operations on it.

A transport is used by many goroutines at once: calls of `EnsureConn` and
`Close`, a run of `Do` with the workers it starts, message callbacks, waiters
for readiness. What they share is the `Transport` structure, whose fields are
read and written in sections under its mutex, and the world outside: contexts,
connections, and what has been opened on a connection. Each section, each
operation of a channel or wait group, and each call of the client library is
one operation here.

The state is split by concern. `Link` is what `lazy.go` works on, `Pool` what a
run opens and starts, `Readiness` the one-shot signal. The flag `closing`
belongs to `Link`, though a run sets and clears it as well.

What the outside decides, the result of a dial or which case of a `select` is
taken, is a choice of the schedule: a choice answers every operation, and
`exec` uses the answer where the state does not determine it. An operation that
waits is performed only when it is `ready`.
-/

namespace TransportNats.Lifecycle

open Interleaving
open Delivery (DurableBinding ConsumerBinding)

/-! ### Contexts, connections, resources -/

/-- Something whose cancellation ends every context derived from it. -/
inductive Token
  | caller (n : ℕ)
  | derived (n : ℕ)
  deriving DecidableEq

/-- A context, given by its own token and those of its ancestors. -/
abbrev Ctx := List Token

inductive Conn
  | supplied
  | dialed (n : ℕ)
  deriving DecidableEq

inductive ResourceKind
  | subscription | service | watcher
  deriving DecidableEq

/-- Something opened on a connection that has to be released: a subscription by
`Unsubscribe`, a service or a watcher by `Stop`. -/
structure Resource where
  kind : ResourceKind
  id : ℕ
  deriving DecidableEq

/-- A call of the client library that opens a resource. -/
inductive Opening
  | subscribe (subject queueGroup : String)
  | pullSubscribe (stream subject durable : String)
  | addService (name : String)
  | watchKV (bucket key : String)
  | watchObjects (bucket : String)
  deriving DecidableEq

def Opening.kind : Opening → ResourceKind
  | .subscribe _ _ | .pullSubscribe _ _ _ => .subscription
  | .addService _ => .service
  | .watchKV _ _ | .watchObjects _ => .watcher

/-! ### Actions -/

/-- `unsupported` is a binding of another transport. -/
inductive Binding
  | topic (subject queueGroup : String)
  | request (subject : String)
  | kv (bucket key : String)
  | durable (b : DurableBinding)
  | consumer (b : ConsumerBinding)
  | object (bucket : String)
  | service (service endpoint : String)
  | unsupported

structure Action where
  executable : Bool
  bindings : List Binding

/-! ### State -/

structure Link where
  url : String
  conn : Option Conn
  providedConn : Bool
  /-- Whether `js` is set. -/
  js : Bool
  initErr : Option Err
  closing : Bool
  /-- Whether the gate's one place is taken. -/
  connectGate : Bool
  connectCancel : Option Token
  /-- How many connections `nats.Connect` has returned. -/
  dials : ℕ
  closed : List Conn
  /-- The cancelled tokens, in the order of their cancellation. -/
  cancelled : List (Token × ContextErr)
  tokens : ℕ

/-- Goroutines that are started with `go`. -/
inductive Goroutine
  | fetchLoop (ctx : Ctx) (nc : Conn) (sub : Resource)
  | watch (ctx : Ctx) (what : Opening) (watcher : Resource)
  | stopWatcher (ctx : Ctx) (watcher : Resource)
  | listener (id : ℕ) (ctx : Ctx)
  deriving DecidableEq

structure Pool where
  /-- Whether an embedded server is configured. -/
  embedded : Bool
  running : Bool
  actions : List Action
  subs : List Resource
  microServices : List Resource
  /-- The counter of `workersWg`. -/
  workers : ℕ
  opened : List Resource
  released : List Resource
  /-- Goroutines that have been started and have not begun to run. -/
  started : List Goroutine
  /-- How many goroutines `nats.listen` has started. -/
  listeners : ℕ
  /-- What they have sent on their `done` channels. -/
  done : List (ℕ × Option Err)

structure Readiness where
  /-- Whether the channel `ready` is closed. -/
  ready : Bool
  readyErr : Option Err
  /-- Whether `readyOnce` is used up. -/
  readyOnce : Bool
  /-- Closing the closed channel panics in a section of the mutex, which then
  stays locked. -/
  mutexLost : Bool

structure State where
  link : Link
  pool : Pool
  readiness : Readiness

/-- `ctx.Err()`. -/
def Link.ctxErr (l : Link) (ctx : Ctx) : Option Err :=
  (l.cancelled.find? fun x => x.1 ∈ ctx).map fun x => .sentinel (.context x.2)

/-! ### Operations -/

/-- What `cachedConnection` reads in one section. -/
structure ConnView where
  conn : Option Conn
  initErr : Option Err
  providedConn : Bool
  closing : Bool

/-- The cases of the `select` of `waitForInitialConnection` that end the wait. -/
inductive WaitEnd
  | closed (lastErr : Option Err)
  | ctxDone (err : Err)
  | connectDone

/-- How the wait at the end of `Do` ends. -/
inductive Stop
  | ctxDone
  | connClosed (lastErr : Option Err)

/-- What ranging over a watcher's channel gives: its end, a nil entry, or an
entry. -/
inductive Update
  | closed | nil | entry

/-- `awaitConnected` answers `none` when the client reports a connection;
`awaitEnd` is the same `select` without that case. -/
inductive LinkOp
  | ctxErr (ctx : Ctx)
  | withCancel
  | cancel (tok : Token)
  | readConn
  | isClosed (nc : Conn)
  | lockConnect (ctx : Ctx)
  | lockGate
  | unlockConnect
  | readURL
  | publishCancel (tok : Token)
  | withdrawCancel
  | connect (url : String)
  | isConnected (nc : Conn)
  | awaitConnected (ctx connectCtx : Ctx) (nc : Conn)
  | awaitEnd (ctx connectCtx : Ctx) (nc : Conn)
  | jetStream (nc : Conn)
  | storeConn (nc : Conn)
  | closeConn (nc : Conn)
  | setClosing
  | takeConn
  | readInitErr

@[reducible] def LinkOp.Ret : LinkOp → Type
  | .ctxErr _ | .lockConnect _ | .jetStream _ | .readInitErr => Option Err
  | .withCancel => Token
  | .cancel _ | .lockGate | .unlockConnect | .withdrawCancel | .closeConn _ => Unit
  | .readConn => ConnView
  | .isClosed _ | .publishCancel _ | .isConnected _ | .storeConn _ => Bool
  | .readURL => String
  | .connect _ => Except Err Conn
  | .awaitConnected _ _ _ => Option WaitEnd
  | .awaitEnd _ _ _ => WaitEnd
  | .setClosing => Option Token
  | .takeConn => Option Conn × Bool

inductive PoolOp
  | startRunning
  | stopRunning
  | clearClosing
  | hasEmbedded
  | startEmbedded
  | stopEmbedded
  | ensureJetStream
  | mount (actions : List Action)
  | readActions
  | openResource (what : Opening)
  | release (r : Resource)
  | appendSub (r : Resource)
  | appendService (r : Resource)
  | goWorker (g : Goroutine)
  | goStopper (ctx : Ctx) (watcher : Resource)
  | takeResources
  | awaitWorkers
  | startWorker
  | workerDone
  | goListener (ctx : Ctx)
  | sendDone (id : ℕ) (err : Option Err)
  | receiveDone (id : ℕ)

@[reducible] def PoolOp.Ret : PoolOp → Type
  | .startRunning | .hasEmbedded | .startWorker => Bool
  | .startEmbedded => Except Err String
  | .readActions => List Action
  | .openResource _ => Except Err Resource
  | .takeResources => List Resource × List Resource
  | .goListener _ => ℕ
  | .ensureJetStream | .receiveDone _ => Option Err
  | .stopRunning | .clearClosing | .stopEmbedded | .mount _ | .release _ | .appendSub _
  | .appendService _ | .goWorker _ | .goStopper _ _ | .awaitWorkers | .workerDone
  | .sendDone _ _ => Unit

/-- `signalReady` answers whether it panicked. -/
inductive ReadyOp
  | signalReady (err : Option Err)
  | awaitReady (ctx : Ctx)
  | readReadyErr

@[reducible] def ReadyOp.Ret : ReadyOp → Type
  | .signalReady _ => Bool
  | .awaitReady _ | .readReadyErr => Option Err

/-- Calls of the outside that leave the shared state as it is. -/
inductive ExternalOp
  | ensureStream (stream : String)
  | consumerDeliveries (stream durable : String)
  | keyValue (bucket : String)
  | objectStore (bucket : String)
  | addEndpoint (svc : Resource) (endpoint : String)
  | flush (nc : Conn)
  | awaitStop (ctx : Ctx) (nc : Conn)
  | fetch (sub : Resource)
  | pause (ctx : Ctx)
  | awaitCtx (ctx : Ctx)
  | nextUpdate (watcher : Resource)
  | handle
  | resolveActions
  | announceReady

/-- `pause` answers whether the context was done first; `awaitCtx` whether it
was, rather than the channel that is closed at the end of the loop. -/
@[reducible] def ExternalOp.Ret : ExternalOp → Type
  | .ensureStream _ | .consumerDeliveries _ _ | .keyValue _ | .objectStore _
  | .addEndpoint _ _ | .flush _ => Option Err
  | .awaitStop _ _ => Stop
  | .fetch _ => Except Err ℕ
  | .pause _ | .awaitCtx _ => Bool
  | .nextUpdate _ => Update
  | .handle | .announceReady => Unit
  | .resolveActions => Except Err (List Action)

inductive Op
  | link (o : LinkOp)
  | pool (o : PoolOp)
  | ready (o : ReadyOp)
  | external (o : ExternalOp)

@[reducible] def Op.Ret : Op → Type
  | .link o => o.Ret
  | .pool o => o.Ret
  | .ready o => o.Ret
  | .external o => o.Ret

abbrev lifecycleSig : Signature := ⟨Op, Op.Ret⟩

/-! ### What the operations do -/

abbrev Choice := (o : Op) → o.Ret

/-- Cancelling a token for the second time has no effect on `ctx.Err()`, which
finds the first cancellation. -/
def Link.cancel (l : Link) (tok : Token) (err : ContextErr) : Link :=
  { l with cancelled := l.cancelled ++ [(tok, err)] }

def LinkOp.exec (ch : (o : LinkOp) → o.Ret) (l : Link) : (o : LinkOp) → Link × o.Ret
  | .ctxErr ctx => (l, l.ctxErr ctx)
  | .withCancel => ({ l with tokens := l.tokens + 1 }, .derived l.tokens)
  | .cancel tok => (l.cancel tok .canceled, ())
  | .readConn => (l, ⟨l.conn, l.initErr, l.providedConn, l.closing⟩)
  | .isClosed nc => (l, nc ∈ l.closed)
  | .lockConnect ctx =>
      match ch (.lockConnect ctx) with
      | some err => (l, some err)
      | none => ({ l with connectGate := true }, none)
  | .lockGate => ({ l with connectGate := true }, ())
  | .unlockConnect => ({ l with connectGate := false }, ())
  | .readURL => (l, l.url)
  | .publishCancel tok =>
      if l.closing then (l, false) else ({ l with connectCancel := some tok }, true)
  | .withdrawCancel => ({ l with connectCancel := none }, ())
  | .connect url =>
      match ch (.connect url) with
      | .error err => (l, .error err)
      | .ok _ => ({ l with dials := l.dials + 1 }, .ok (.dialed l.dials))
  | .isConnected nc => (l, ch (.isConnected nc))
  | .awaitConnected ctx connectCtx nc => (l, ch (.awaitConnected ctx connectCtx nc))
  | .awaitEnd ctx connectCtx nc => (l, ch (.awaitEnd ctx connectCtx nc))
  | .jetStream nc => (l, ch (.jetStream nc))
  | .storeConn nc =>
      if l.closing then (l, false) else ({ l with conn := some nc, js := true }, true)
  | .closeConn nc => ({ l with closed := nc :: l.closed }, ())
  | .setClosing => ({ l with closing := true }, l.connectCancel)
  | .takeConn => ({ l with conn := none, js := false }, (l.conn, l.providedConn))
  | .readInitErr => (l, l.initErr)

/-- A run's operations act on its own part of the state, and on the flag
`closing`, the URL and the JetStream context of the link. -/
def PoolOp.exec (ch : (o : PoolOp) → o.Ret) (s : State) : (o : PoolOp) → State × o.Ret
  | .startRunning =>
      if s.pool.running then (s, false)
      else ({ s with pool := { s.pool with running := true } }, true)
  | .stopRunning => ({ s with pool := { s.pool with running := false } }, ())
  | .clearClosing => ({ s with link := { s.link with closing := false } }, ())
  | .hasEmbedded => (s, s.pool.embedded)
  | .startEmbedded =>
      match ch .startEmbedded with
      | .error err => (s, .error err)
      | .ok url => ({ s with link := { s.link with url := url } }, .ok url)
  | .stopEmbedded => (s, ())
  | .ensureJetStream =>
      if s.link.js then (s, none)
      else if s.link.conn = none then (s, some (.app .unavailable "nats: connection not ready"))
      else
        match ch .ensureJetStream with
        | some err => (s, some (mapError err))
        | none => ({ s with link := { s.link with js := true } }, none)
  | .mount actions => ({ s with pool := { s.pool with actions := actions } }, ())
  | .readActions => (s, s.pool.actions)
  | .openResource what =>
      match ch (.openResource what) with
      | .error err => (s, .error err)
      | .ok _ =>
          let r : Resource := ⟨what.kind, s.pool.opened.length⟩
          ({ s with pool := { s.pool with opened := r :: s.pool.opened } }, .ok r)
  | .release r => ({ s with pool := { s.pool with released := r :: s.pool.released } }, ())
  | .appendSub r => ({ s with pool := { s.pool with subs := s.pool.subs ++ [r] } }, ())
  | .appendService r =>
      ({ s with pool := { s.pool with microServices := s.pool.microServices ++ [r] } }, ())
  | .goWorker g =>
      ({ s with pool :=
          { s.pool with workers := s.pool.workers + 1, started := g :: s.pool.started } }, ())
  | .goStopper ctx watcher =>
      ({ s with pool :=
          { s.pool with started := .stopWatcher ctx watcher :: s.pool.started } }, ())
  | .takeResources =>
      ({ s with
          link := { s.link with closing := true }
          pool := { s.pool with subs := [], microServices := [] } },
        (s.pool.microServices, s.pool.subs))
  | .awaitWorkers => (s, ())
  | .startWorker =>
      if s.link.closing then (s, false)
      else ({ s with pool := { s.pool with workers := s.pool.workers + 1 } }, true)
  | .workerDone => ({ s with pool := { s.pool with workers := s.pool.workers - 1 } }, ())
  | .goListener ctx =>
      ({ s with pool :=
          { s.pool with
            listeners := s.pool.listeners + 1
            started := .listener s.pool.listeners ctx :: s.pool.started } }, s.pool.listeners)
  | .sendDone id err => ({ s with pool := { s.pool with done := (id, err) :: s.pool.done } }, ())
  | .receiveDone id => (s, ((s.pool.done.find? fun x => x.1 = id).map (·.2)).getD none)

/-- Everything that an operation of a run can do to the state, with its answer. -/
inductive PoolOp.Does (s : State) : (o : PoolOp) → State × o.Ret → Prop
  | refuseRun (h : s.pool.running = true) : Does s .startRunning (s, false)
  | startRunning (h : s.pool.running = false) :
      Does s .startRunning ({ s with pool := { s.pool with running := true } }, true)
  | stopRunning : Does s .stopRunning ({ s with pool := { s.pool with running := false } }, ())
  | clearClosing : Does s .clearClosing ({ s with link := { s.link with closing := false } }, ())
  | hasEmbedded : Does s .hasEmbedded (s, s.pool.embedded)
  | failEmbedded (err : Err) : Does s .startEmbedded (s, .error err)
  | startEmbedded (url : String) :
      Does s .startEmbedded ({ s with link := { s.link with url := url } }, .ok url)
  | stopEmbedded : Does s .stopEmbedded (s, ())
  | hasJetStream : Does s .ensureJetStream (s, none)
  | failJetStream (err : Err) : Does s .ensureJetStream (s, some err)
  | createJetStream :
      Does s .ensureJetStream ({ s with link := { s.link with js := true } }, none)
  | mount (actions : List Action) :
      Does s (.mount actions) ({ s with pool := { s.pool with actions := actions } }, ())
  | readActions : Does s .readActions (s, s.pool.actions)
  | failResource (what : Opening) (err : Err) : Does s (.openResource what) (s, .error err)
  | openResource (what : Opening) (r : Resource) :
      Does s (.openResource what)
        ({ s with pool := { s.pool with opened := r :: s.pool.opened } }, .ok r)
  | release (r : Resource) :
      Does s (.release r) ({ s with pool := { s.pool with released := r :: s.pool.released } }, ())
  | appendSub (r : Resource) :
      Does s (.appendSub r) ({ s with pool := { s.pool with subs := s.pool.subs ++ [r] } }, ())
  | appendService (r : Resource) :
      Does s (.appendService r)
        ({ s with pool := { s.pool with microServices := s.pool.microServices ++ [r] } }, ())
  | goWorker (g : Goroutine) :
      Does s (.goWorker g)
        ({ s with pool :=
            { s.pool with workers := s.pool.workers + 1, started := g :: s.pool.started } }, ())
  | goStopper (ctx : Ctx) (watcher : Resource) :
      Does s (.goStopper ctx watcher)
        ({ s with pool :=
            { s.pool with started := .stopWatcher ctx watcher :: s.pool.started } }, ())
  | takeResources :
      Does s .takeResources
        ({ s with
            link := { s.link with closing := true }
            pool := { s.pool with subs := [], microServices := [] } },
          (s.pool.microServices, s.pool.subs))
  | awaitWorkers : Does s .awaitWorkers (s, ())
  | refuseWorker (h : s.link.closing = true) : Does s .startWorker (s, false)
  | startWorker (h : s.link.closing = false) :
      Does s .startWorker ({ s with pool := { s.pool with workers := s.pool.workers + 1 } }, true)
  | workerDone :
      Does s .workerDone ({ s with pool := { s.pool with workers := s.pool.workers - 1 } }, ())
  | goListener (ctx : Ctx) :
      Does s (.goListener ctx)
        ({ s with pool :=
            { s.pool with
              listeners := s.pool.listeners + 1
              started := .listener s.pool.listeners ctx :: s.pool.started } }, s.pool.listeners)
  | sendDone (id : ℕ) (err : Option Err) :
      Does s (.sendDone id err)
        ({ s with pool := { s.pool with done := (id, err) :: s.pool.done } }, ())
  | receiveDone (id : ℕ) (err : Option Err) : Does s (.receiveDone id) (s, err)

theorem PoolOp.does (ch : (o : PoolOp) → o.Ret) (s : State) (o : PoolOp) :
    o.Does s (o.exec ch s) := by
  cases o with
  | startRunning =>
      simp only [PoolOp.exec]
      split
      · exact .refuseRun ‹_›
      · exact .startRunning (Bool.eq_false_iff.mpr ‹_›)
  | startEmbedded =>
      simp only [PoolOp.exec]
      split
      · exact .failEmbedded _
      · exact .startEmbedded _
  | ensureJetStream =>
      simp only [PoolOp.exec]
      repeat' split
      · exact .hasJetStream
      · exact .failJetStream _
      · exact .failJetStream _
      · exact .createJetStream
  | openResource what =>
      simp only [PoolOp.exec]
      split
      · exact .failResource what _
      · exact .openResource what _
  | startWorker =>
      simp only [PoolOp.exec]
      split
      · exact .refuseWorker ‹_›
      · exact .startWorker (Bool.eq_false_iff.mpr ‹_›)
  | _ => constructor

def ReadyOp.exec (ch : (o : ReadyOp) → o.Ret) (r : Readiness) : (o : ReadyOp) → Readiness × o.Ret
  | .signalReady err =>
      if r.readyOnce then (r, false)
      else if r.ready then ({ r with readyOnce := true, readyErr := err, mutexLost := true }, true)
      else ({ r with readyOnce := true, readyErr := err, ready := true }, false)
  | .awaitReady ctx => (r, ch (.awaitReady ctx))
  | .readReadyErr => (r, r.readyErr)

def exec (ch : Choice) (s : State) : (o : Op) → State × o.Ret
  | .link o =>
      ({ s with link := (o.exec (fun o => ch (.link o)) s.link).1 },
        (o.exec (fun o => ch (.link o)) s.link).2)
  | .pool o => o.exec (fun o => ch (.pool o)) s
  | .ready o =>
      ({ s with readiness := (o.exec (fun o => ch (.ready o)) s.readiness).1 },
        (o.exec (fun o => ch (.ready o)) s.readiness).2)
  | .external o => (s, ch (.external o))

/-! ### When an operation goes through -/

/-- The operations that are a section of the transport's mutex. -/
def Op.locksMutex : Op → Bool
  | .link o =>
      match o with
      | .readConn | .readURL | .publishCancel _ | .withdrawCancel | .storeConn _ | .setClosing
      | .takeConn | .readInitErr => true
      | _ => false
  | .pool o =>
      match o with
      | .clearClosing | .startEmbedded | .stopEmbedded | .ensureJetStream | .mount _
      | .readActions | .appendSub _ | .appendService _ | .takeResources | .startWorker => true
      | _ => false
  | .ready o =>
      match o with
      -- `signalReady` enters its section only once, so it never finds the mutex lost
      | .signalReady _ | .awaitReady _ => false
      | .readReadyErr => true
  | .external _ => false

def WaitEnd.possible (l : Link) (ctx connectCtx : Ctx) (nc : Conn) : WaitEnd → Bool
  | .closed _ => nc ∈ l.closed
  | .ctxDone err => l.ctxErr ctx = some err
  | .connectDone => (l.ctxErr connectCtx).isSome

/-- What an operation waits for. A case of a `select` is taken only when it can
be, and the result that a choice names is one that the state allows. -/
def Op.canProceed (ch : Choice) (s : State) : Op → Bool
  | .link o =>
      match o with
      | .lockConnect ctx =>
          match ch (.link (.lockConnect ctx)) with
          | none => !s.link.connectGate
          | some err => s.link.ctxErr ctx = some err
      | .lockGate => !s.link.connectGate
      | .awaitConnected ctx connectCtx nc =>
          match ch (.link (.awaitConnected ctx connectCtx nc)) with
          | none => true
          | some e => e.possible s.link ctx connectCtx nc
      | .awaitEnd ctx connectCtx nc =>
          (ch (.link (.awaitEnd ctx connectCtx nc))).possible s.link ctx connectCtx nc
      | _ => true
  | .pool o =>
      match o with
      | .awaitWorkers => s.pool.workers = 0
      | .receiveDone id => s.pool.done.any fun x => x.1 = id
      | _ => true
  | .ready o =>
      match o with
      | .awaitReady ctx =>
          match ch (.ready (.awaitReady ctx)) with
          | none => s.readiness.ready
          | some err => s.link.ctxErr ctx = some err
      | _ => true
  | .external o =>
      match o with
      | .awaitStop ctx nc =>
          match ch (.external (.awaitStop ctx nc)) with
          | .ctxDone => (s.link.ctxErr ctx).isSome
          | .connClosed _ => nc ∈ s.link.closed
      | .pause ctx => !ch (.external (.pause ctx)) || (s.link.ctxErr ctx).isSome
      | .awaitCtx ctx => !ch (.external (.awaitCtx ctx)) || (s.link.ctxErr ctx).isSome
      | _ => true

def ready (ch : Choice) (s : State) (o : Op) : Bool :=
  o.canProceed ch s && (!o.locksMutex || !s.readiness.mutexLost)

end TransportNats.Lifecycle
