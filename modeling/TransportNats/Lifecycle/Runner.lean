import TransportNats.Lifecycle.Connection

/-!
A run of the transport: `Do`, what it mounts, and what it starts.

`Do` allows itself one run at a time, connects, and installs a deferred cleanup
before it mounts the actions. What it opens ends up in the transport's lists of
subscriptions and services, or with a goroutine that releases it. After the
flush it signals readiness and waits for its context or the connection to end.

The loops of the goroutines run until their context is done. As with the dial,
the number of turns is a parameter, and when the turns are used up the loop only
waits for its context. The action library's `nats.listen` starts a run in a
goroutine of its own and waits for the transport's readiness signal.
-/

namespace TransportNats.Lifecycle

open Interleaving
open Delivery (DurableBinding ConsumerBinding validateDurableBinding validateConsumerBinding)

/-! ### Mounting -/

def subscribeTopic (subject queueGroup : String) : Routine (Option Err) := do
  match ← pool (.openResource (.subscribe subject queueGroup)) with
  | .error err => return some (mapError err)
  | .ok sub =>
      pool (.appendSub sub)
      return none

/-- The end of `mountKV` and `mountObjectStore`. -/
def mountWatcher (ctx : Ctx) (what : Opening) : Routine (Option Err) := do
  match ← pool (.openResource what) with
  | .error err => return some (mapError err)
  | .ok watcher =>
      pool (.goWorker (.watch ctx what watcher))
      return none

def mountKV (ctx : Ctx) (bucket key : String) : Routine (Option Err) := do
  if bucket = "" then return some (.app .badRequest "KV watcher requires a bucket name")
  else
    match ← link (.ctxErr ctx) with
    | some err => return some err
    | none =>
        match ← external (.keyValue bucket) with
        | some err => return some (mapError err)
        | none => mountWatcher ctx (.watchKV bucket key)

def mountObjectStore (ctx : Ctx) (bucket : String) : Routine (Option Err) := do
  if bucket = "" then return some (.app .badRequest "objectstore requires a bucket name")
  else
    match ← external (.objectStore bucket) with
    | some err => return some (mapError err)
    | none => mountWatcher ctx (.watchObjects bucket)

/-- A pull subscription whose consumer must not limit deliveries; it is given up
again if that cannot be arranged. -/
def openPullSubscription (stream subject durable : String) : Routine (Except Err Resource) := do
  match ← pool (.openResource (.pullSubscribe stream subject durable)) with
  | .error err => return .error (mapError err)
  | .ok sub =>
      match ← external (.consumerDeliveries stream durable) with
      | some err =>
          pool (.release sub)
          return .error err
      | none => return .ok sub

/-- The common end of `subscribeDurable` and `subscribeConsumer`. -/
def startFetching (ctx : Ctx) (nc : Conn) (stream subject durable : String) :
    Routine (Option Err) := do
  match ← openPullSubscription stream subject durable with
  | .error err => return some err
  | .ok sub =>
      pool (.appendSub sub)
      pool (.goWorker (.fetchLoop ctx nc sub))
      return none

def ensureDurableInfra (b : DurableBinding) : Routine (Option Err) := do
  match ← external (.ensureStream b.stream) with
  | some err => return some err
  | none => external (.ensureStream (b.stream ++ "_DLQ"))

def subscribeDurable (ctx : Ctx) (nc : Conn) (b : DurableBinding) : Routine (Option Err) := do
  match validateDurableBinding b with
  | some err => return some err
  | none =>
      match ← ensureDurableInfra b with
      | some err => return some err
      | none => startFetching ctx nc b.stream b.subject b.durable

def ensureConsumerInfra (b : ConsumerBinding) : Routine (Option Err) := do
  match ← external (.ensureStream b.stream) with
  | some err => return some err
  | none =>
      if b.deadLetterSubject = "" then return none
      else external (.ensureStream (b.stream ++ "_DLQ"))

def subscribeConsumer (ctx : Ctx) (nc : Conn) (b : ConsumerBinding) : Routine (Option Err) := do
  match validateConsumerBinding b with
  | some err => return some err
  | none =>
      match ← ensureConsumerInfra b with
      | some err => return some err
      | none => startFetching ctx nc b.stream b.subject b.durable

/-- Services are mounted after everything else. -/
def mountBinding (ctx : Ctx) (nc : Conn) : Binding → Routine (Option Err)
  | .topic subject queueGroup => subscribeTopic subject queueGroup
  | .request subject => subscribeTopic subject ""
  | .kv bucket key => mountKV ctx bucket key
  | .durable b => subscribeDurable ctx nc b
  | .consumer b => subscribeConsumer ctx nc b
  | .object bucket => mountObjectStore ctx bucket
  | .service _ _ | .unsupported => return none

def mountBindings (ctx : Ctx) (nc : Conn) : List Binding → Routine (Option Err)
  | [] => return none
  | b :: bs => do
      match ← mountBinding ctx nc b with
      | some err => return some err
      | none => mountBindings ctx nc bs

/-- The bindings of the executable actions, in the order in which the two loops
of `mountActions` visit them. -/
def executableBindings (actions : List Action) : List Binding :=
  (actions.filter (·.executable)).flatMap (·.bindings)

/-- The endpoints of each service, the services in the order in which they first
occur. -/
def serviceGroups (actions : List Action) : List (String × List String) :=
  let endpoints := (executableBindings actions).filterMap fun
    | .service name endpoint => some (name, endpoint)
    | _ => none
  (endpoints.map (·.1)).eraseDups.map fun name =>
    (name, (endpoints.filter (·.1 = name)).map (·.2))

def registerEndpoints (svc : Resource) : List String → Routine (Option Err)
  | [] => return none
  | endpoint :: endpoints => do
      match ← external (.addEndpoint svc endpoint) with
      | some err => return some err
      | none => registerEndpoints svc endpoints

def mountServices : List (String × List String) → Routine (Option Err)
  | [] => return none
  | (name, endpoints) :: groups => do
      match ← pool (.openResource (.addService name)) with
      | .error err => return some (mapError err)
      | .ok svc =>
          match ← registerEndpoints svc endpoints with
          | some err =>
              pool (.release svc)
              return some err
          | none =>
              pool (.appendService svc)
              mountServices groups

def mountActions (ctx : Ctx) (nc : Conn) (actions : List Action) : Routine (Option Err) := do
  match ← mountBindings ctx nc (executableBindings actions) with
  | some err => return some err
  | none => mountServices (serviceGroups actions)

/-! ### `Do` -/

/-- How a call of `Do` ends. -/
inductive Reply
  | returned (err : Option Err)
  | panicked

/-- `signalReady` with an error that is then returned. -/
def failReady (err : Err) : Routine Reply := do
  if ← readiness (.signalReady (some err)) then return .panicked
  else return .returned (some err)

def releaseAll : List Resource → Routine Unit
  | [] => pure ()
  | r :: rs => do
      pool (.release r)
      releaseAll rs

/-- The deferred cleanup. -/
def cleanup (runCancel : Token) : Routine Unit := do
  link (.cancel runCancel)
  let (services, subs) ← pool .takeResources
  releaseAll services
  releaseAll subs
  pool .awaitWorkers
  closeTransport

def connClosed (lastErr : Option Err) : Err :=
  match lastErr with
  | some err => .appOf .unavailable "nats: connection closed" err
  | none => .app .unavailable "nats: connection closed"

/-- What `Do` does while its cleanup is installed. -/
def serve (ctx runCtx : Ctx) (nc : Conn) : Routine Reply := do
  let actions ← pool .readActions
  match ← mountActions runCtx nc actions with
  | some mountErr => failReady mountErr
  | none =>
      match ← external (.flush nc) with
      | some flushErr => failReady (mapError flushErr)
      | none =>
          if ← readiness (.signalReady none) then return .panicked
          else
            match ← external (.awaitStop runCtx nc) with
            | .ctxDone => return .returned none
            | .connClosed lastErr =>
                match ← link (.ctxErr ctx) with
                | some _ => return .returned none
                | none => return .returned (some (connClosed lastErr))

def connectAndServe (signals : ℕ) (ctx : Ctx) : Routine Reply := do
  let runCancel ← link .withCancel
  match ← ensureConn signals (some (runCancel :: ctx)) with
  | .error err =>
      link (.cancel runCancel)
      failReady err
  | .ok nc =>
      match ← pool .ensureJetStream with
      | some jsErr =>
          link (.cancel runCancel)
          failReady jsErr
      | none =>
          let reply ← serve ctx (runCancel :: ctx) nc
          cleanup runCancel
          return reply

/-- The part of `Do` between the start and the end of its being `running`. -/
def doExclusively (signals : ℕ) (ctx : Ctx) : Routine Reply := do
  match ← link .readInitErr with
  | some initErr => failReady initErr
  | none =>
      if ← pool .hasEmbedded then
        match ← pool .startEmbedded with
        | .error err => failReady err
        | .ok _ =>
            let reply ← connectAndServe signals ctx
            pool .stopEmbedded
            return reply
      else connectAndServe signals ctx

/-- `Transport.Do`. -/
def doRun (signals : ℕ) (ctx : Ctx) : Routine Reply := do
  if ← pool .startRunning then
    pool .clearClosing
    let reply ← doExclusively signals ctx
    pool .stopRunning
    return reply
  else return .returned (some (.other "nats transport is already running" none))

/-! ### Workers -/

/-- The callback of a subscription or of a service endpoint. -/
def callback : Routine Unit := do
  if ← pool .startWorker then
    external .handle
    pool .workerDone
  else pure ()

def handleAll : ℕ → Routine Unit
  | 0 => pure ()
  | k + 1 => do
      external .handle
      handleAll k

/-- The two deferred calls of `runFetchLoop`. -/
def endFetching (sub : Resource) : Routine Unit := do
  pool (.release sub)
  pool .workerDone

/-- Whether a fetch that failed for another reason than a timeout ends the loop. -/
def fetchEnds (ctx : Ctx) (nc : Conn) (err : Err) : Routine Bool := do
  match ← link (.ctxErr ctx) with
  | some _ => return true
  | none =>
      if err.is (.context .canceled) then return true
      else if ← link (.isClosed nc) then return true
      else external (.pause ctx)

def runFetchLoop (ctx : Ctx) (nc : Conn) (sub : Resource) : ℕ → Routine Unit
  | 0 => do
      let _ ← external (.awaitCtx ctx)
      endFetching sub
  | turns + 1 => do
      match ← link (.ctxErr ctx) with
      | some _ => endFetching sub
      | none =>
          match ← external (.fetch sub) with
          | .error err =>
              if err.is (.nats .errTimeout) || err.is (.context .deadlineExceeded) then
                runFetchLoop ctx nc sub turns
              else if ← fetchEnds ctx nc err then endFetching sub
              else runFetchLoop ctx nc sub turns
          | .ok msgs =>
              handleAll msgs
              runFetchLoop ctx nc sub turns

/-- Where a watching goroutine is: it reads the updates of a watcher, or it is
about to open the next one. -/
inductive Watching
  | updates (watcher : Resource)
  | reopening

/-- After the updates of a watcher have ended it is stopped, and the goroutine
ends if its context is done. -/
def endUpdates (ctx : Ctx) (watcher : Resource) : Routine Bool := do
  pool (.release watcher)
  return (← link (.ctxErr ctx)).isSome

/-- `watchKV` and `watchObjectStore` with the loop over the updates inside. -/
def watchLoop (ctx : Ctx) (what : Opening) : ℕ → Watching → Routine Unit
  | 0, .updates watcher => do
      let _ ← external (.awaitCtx ctx)
      let _ ← endUpdates ctx watcher
      pool .workerDone
  | 0, .reopening => do
      let _ ← external (.awaitCtx ctx)
      pool .workerDone
  | turns + 1, .updates watcher => do
      match ← external (.nextUpdate watcher) with
      | .closed =>
          if ← endUpdates ctx watcher then pool .workerDone
          else watchLoop ctx what turns .reopening
      | update =>
          if (← link (.ctxErr ctx)).isSome then
            if ← endUpdates ctx watcher then pool .workerDone
            else watchLoop ctx what turns .reopening
          else
            match update with
            | .entry =>
                external .handle
                watchLoop ctx what turns (.updates watcher)
            | _ => watchLoop ctx what turns (.updates watcher)
  | turns + 1, .reopening => do
      if ← external (.pause ctx) then pool .workerDone
      else
        match ← pool (.openResource what) with
        | .error _ => watchLoop ctx what turns .reopening
        | .ok next =>
            pool (.goStopper ctx next)
            watchLoop ctx what turns (.updates next)

def watch (ctx : Ctx) (what : Opening) (watcher : Resource) (turns : ℕ) : Routine Unit := do
  pool (.goStopper ctx watcher)
  watchLoop ctx what turns (.updates watcher)

/-- The goroutine that stops a watcher when its context is done. -/
def stopWatcher (ctx : Ctx) (watcher : Resource) : Routine Unit := do
  if ← external (.awaitCtx ctx) then pool (.release watcher)
  else pure ()

/-! ### Readiness -/

def waitReady (ctx : Ctx) : Routine (Option Err) := do
  match ← readiness (.awaitReady ctx) with
  | some err => return some err
  | none => readiness .readReadyErr

/-- The goroutine that `nats.listen` starts. -/
def listener (signals id : ℕ) (ctx : Ctx) : Routine Unit := do
  match ← doRun signals ctx with
  | .returned err => pool (.sendDone id err)
  | .panicked => pure ()

def isCanceled (err : Option Err) : Bool :=
  match err with
  | some err => err.is (.context .canceled)
  | none => false

/-- `nats.listen`. The actions it serves, or the error for which it serves none,
come from the request and the action resolver. -/
def listen (ctx : Ctx) : Routine (Option Err) := do
  match ← external .resolveActions with
  | .error err => return some err
  | .ok actions =>
      pool (.mount actions)
      let cancel ← link .withCancel
      let id ← pool (.goListener (cancel :: ctx))
      match ← waitReady (cancel :: ctx) with
      | some err =>
          link (.cancel cancel)
          let doErr ← pool (.receiveDone id)
          if isCanceled (← link (.ctxErr ctx)) then return none
          else
            match doErr with
            | some doErr =>
                return some (.appOf .unavailable "nats.listen: transport failed to start" doErr)
            | none =>
                return some (.appOf .unavailable "nats.listen: timeout waiting for connection" err)
      | none =>
          external .announceReady
          let err ← pool (.receiveDone id)
          let ended ← link (.ctxErr ctx)
          link (.cancel cancel)
          if isCanceled ended then return none else return err

/-! ### The system -/

/-- A goroutine is entered with the number of turns of its loop, the one of
`nats.listen` with the number of signals of its dial. -/
inductive Call
  | ensureConn (signals : ℕ) (ctx : Option Ctx)
  | close
  | mount (actions : List Action)
  | doRun (signals : ℕ) (ctx : Ctx)
  | waitReady (ctx : Ctx)
  | listen (ctx : Ctx)
  | callback (r : Resource)
  | goroutine (g : Goroutine) (turns : ℕ)

inductive Result
  | ensured (r : Except Err Conn)
  | replied (r : Reply)
  | err (err : Option Err)
  | finished

def Goroutine.program (turns : ℕ) : Goroutine → Routine Unit
  | .fetchLoop ctx nc sub => runFetchLoop ctx nc sub turns
  | .watch ctx what watcher => Lifecycle.watch ctx what watcher turns
  | .stopWatcher ctx watcher => Lifecycle.stopWatcher ctx watcher
  | .listener id ctx => Lifecycle.listener turns id ctx

def finishing (p : Routine Unit) : Routine Result := do
  p
  return .finished

def Call.program : Call → Routine Result
  | .ensureConn signals ctx => return .ensured (← Lifecycle.ensureConn signals ctx)
  | .close => finishing closeTransport
  | .mount actions => finishing (pool (.mount actions))
  | .doRun signals ctx => return .replied (← Lifecycle.doRun signals ctx)
  | .waitReady ctx => return .err (← Lifecycle.waitReady ctx)
  | .listen ctx => return .err (← Lifecycle.listen ctx)
  | .callback _ => finishing Lifecycle.callback
  | .goroutine g turns => finishing (g.program turns)

/-- A callback is that of something opened, which may have been released since;
a goroutine begins once for each time it was started. -/
def Call.enter (s : State) : Call → Option State
  | .callback r => if r ∈ s.pool.opened ∧ r.kind ≠ .watcher then some s else none
  | .goroutine g _ =>
      if g ∈ s.pool.started then
        some { s with pool := { s.pool with started := s.pool.started.erase g } }
      else none
  | _ => some s

/-- What happens by itself: a caller's context ends, or a connection is closed
for good. -/
inductive Event
  | callerDone (n : ℕ) (err : ContextErr)
  | connLost (nc : Conn)

def Event.happen (s : State) : Event → State
  | .callerDone n err => { s with link := s.link.cancel (.caller n) err }
  | .connLost nc => { s with link := { s.link with closed := nc :: s.link.closed } }

abbrev transport : System where
  sig := lifecycleSig
  State := State
  Call := Call
  Result := Result
  Choice := Choice
  Env := Event
  program := Call.program
  exec := exec
  enter c s := c.enter s
  env e s := e.happen s

/-- The choice in which nothing outside fails and every wait is for the best. -/
def smooth : Choice
  | .link o =>
      match o with
      | .ctxErr _ | .lockConnect _ | .jetStream _ | .readInitErr => none
      | .withCancel => .derived 0
      | .cancel _ | .lockGate | .unlockConnect | .withdrawCancel | .closeConn _ => ()
      | .readConn => ⟨none, none, false, false⟩
      | .isClosed _ => false
      | .publishCancel _ | .isConnected _ | .storeConn _ => true
      | .readURL => ""
      | .connect _ => .ok .supplied
      | .awaitConnected _ _ _ => none
      | .awaitEnd _ _ _ => .connectDone
      | .setClosing => none
      | .takeConn => (none, false)
  | .pool o =>
      match o with
      | .startRunning | .hasEmbedded | .startWorker => true
      | .startEmbedded => .ok ""
      | .readActions => []
      | .openResource what => .ok ⟨what.kind, 0⟩
      | .takeResources => ([], [])
      | .goListener _ => 0
      | .ensureJetStream | .receiveDone _ => none
      | .stopRunning | .clearClosing | .stopEmbedded | .mount _ | .release _ | .appendSub _
      | .appendService _ | .goWorker _ | .goStopper _ _ | .awaitWorkers | .workerDone
      | .sendDone _ _ => ()
  | .ready o =>
      match o with
      | .signalReady _ => false
      | .awaitReady _ | .readReadyErr => none
  | .external o =>
      match o with
      | .ensureStream _ | .consumerDeliveries _ _ | .keyValue _ | .objectStore _
      | .addEndpoint _ _ | .flush _ => none
      | .awaitStop _ _ => .ctxDone
      | .fetch _ => .ok 0
      | .pause _ | .awaitCtx _ => false
      | .nextUpdate _ => .closed
      | .handle | .announceReady => ()
      | .resolveActions => .ok []

/-! ### The two constructors -/

/-- `New`, with what its options have set. -/
def newTransport (rawURL : String) (initErr : Option Err) (embedded : Bool) : State where
  link :=
    { url := rawURL, conn := none, providedConn := false, js := false, initErr := initErr,
      closing := false, connectGate := false, connectCancel := none, dials := 0, closed := [],
      cancelled := [], tokens := 0 }
  pool :=
    { embedded := embedded, running := false, actions := [], subs := [], microServices := [],
      workers := 0, opened := [], released := [], started := [], listeners := 0, done := [] }
  readiness := { ready := false, readyErr := none, readyOnce := false, mutexLost := false }

/-- `FromConn`. Of the connection it takes the URL, and the JetStream context if
there is one; the channel `ready` is closed at once. -/
def fromConn (nc : Option (String × Bool)) : State where
  link :=
    { url := (nc.map (·.1)).getD "", conn := nc.map fun _ => .supplied, providedConn := true,
      js := (nc.map (·.2)).getD false, initErr := none, closing := false, connectGate := false,
      connectCancel := none, dials := 0, closed := [], cancelled := [], tokens := 0 }
  pool :=
    { embedded := false, running := false, actions := [], subs := [], microServices := [],
      workers := 0, opened := [], released := [], started := [], listeners := 0, done := [] }
  readiness := { ready := true, readyErr := none, readyOnce := false, mutexLost := false }

/-- The states in which a transport begins its life. -/
inductive Built : State → Prop
  | new (rawURL : String) (initErr : Option Err) (embedded : Bool) :
      Built (newTransport rawURL initErr embedded)
  | fromConn (nc : Option (String × Bool)) : Built (fromConn nc)

end TransportNats.Lifecycle
