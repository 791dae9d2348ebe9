import TransportNats.Lifecycle.Runner

/-!
What each goroutine holds at each point of its program.

The marks of a goroutine summarise its history: whether it has the gate, which
connection and which resources are in its hands, whose cancel function it owes a
call, how far its run of `Do` has come. The monitor allows an operation only
with the marks it needs: nothing is dialed without the gate and a look at the
connection, nothing is stored or closed that is not in hand, a worker does not
end with something in its hands, and a run whose cleanup is installed does not
end before the cleanup is through. The invariants of the following modules are
about the shared state and the marks alone.
-/

namespace TransportNats.Lifecycle

open Interleaving

/-! ### Marks -/

structure LinkMarks where
  /-- Has the gate. -/
  gate : Bool := false
  /-- The connection last read while holding the gate, on a transport that was
  neither closing nor built around a connection. -/
  looked : Option (Option Conn) := none
  /-- Has seen, since it has the gate, that there is no open connection. -/
  vacant : Bool := false
  /-- A connection that it has dialed or taken, and has neither stored nor closed. -/
  hand : Option Conn := none
  /-- Has set `closing`. -/
  closes : Bool := false
  /-- Has taken the connection away. -/
  took : Bool := false
  /-- The cancel function it has published and not withdrawn. -/
  registered : Option Token := none
  /-- A cancel function it has read in `Close` and not called. -/
  owes : Option Token := none

structure PoolMarks where
  /-- May start a run. -/
  runner : Bool := false
  running : Bool := false
  /-- Has its cleanup installed. -/
  up : Bool := false
  /-- Has taken the subscriptions and services away. -/
  cleaned : Bool := false
  /-- Has waited for the workers. -/
  waited : Bool := false
  /-- What it has opened or taken, and has neither released nor handed over. -/
  hands : List Resource := []
  /-- Counts in the wait group. -/
  worker : Bool := false

/-- What a goroutine has to do with `nats.listen`: it is an invocation, or the
goroutine that one has started; or it is a call of `Do` or `Mount` of its own. -/
inductive Role
  | invocation
  | run (id : ℕ) (ctx : Ctx)
  | direct
  | other

def Role.runs : Role → Bool
  | .run _ _ | .direct => true
  | .invocation | .other => false

structure ListenMarks where
  role : Role := .other
  /-- The actions it has mounted. -/
  mounted : Option (List Action) := none
  /-- The goroutine it has started, and that one's context. -/
  started : Option (ℕ × Ctx) := none
  /-- Has received what its goroutine has sent. -/
  received : Bool := false
  /-- Has found the channel `ready` closed. -/
  awaited : Bool := false
  /-- Has read, after that, that there was no error. -/
  told : Bool := false
  /-- The actions its run serves. -/
  read : Option (List Action) := none
  /-- Has signalled readiness without an error. -/
  signalled : Bool := false
  /-- Has sent the result of its run. -/
  sent : Bool := false

structure Marks where
  link : LinkMarks := {}
  pool : PoolMarks := {}
  listen : ListenMarks := {}

def LinkMarks.after (m : LinkMarks) : (o : LinkOp) → o.Ret → LinkMarks
  | .readConn, view =>
      let usable := m.gate && !view.closing && !view.providedConn
      { m with
        looked := if usable then some view.conn else none
        vacant := usable && view.conn.isNone }
  | .isClosed nc, closed => { m with vacant := m.vacant || closed && m.looked = some (some nc) }
  | .lockConnect _, none | .lockGate, _ => { m with gate := true }
  | .unlockConnect, _ => { m with gate := false, looked := none, vacant := false }
  | .publishCancel tok, true => { m with registered := some tok }
  | .withdrawCancel, _ => { m with registered := none }
  | .connect _, .ok nc => { m with hand := some nc }
  | .storeConn _, true => { m with hand := none, looked := none, vacant := false }
  | .closeConn _, _ => { m with hand := none }
  | .setClosing, cancelConnect => { m with closes := true, owes := cancelConnect }
  | .cancel _, _ => { m with owes := none }
  | .takeConn, taken =>
      { m with took := true, looked := none, hand := if taken.2 then none else taken.1 }
  | _, _ => m

/-- The watcher that a goroutine takes over. -/
def Goroutine.watcher? : Goroutine → Option Resource
  | .watch _ _ watcher => some watcher
  | .fetchLoop _ _ _ | .stopWatcher _ _ | .listener _ _ => none

def Goroutine.isWorker : Goroutine → Bool
  | .fetchLoop _ _ _ | .watch _ _ _ => true
  | .stopWatcher _ _ | .listener _ _ => false

def PoolMarks.without (m : PoolMarks) (r : Resource) : PoolMarks :=
  { m with hands := m.hands.filter (· ≠ r) }

def PoolMarks.after (m : PoolMarks) : (o : PoolOp) → o.Ret → PoolMarks
  | .startRunning, true => { m with running := true }
  | .stopRunning, _ => { m with running := false }
  | .ensureJetStream, none => { m with up := true }
  | .openResource _, .ok r => { m with hands := r :: m.hands }
  | .release r, _ | .appendSub r, _ | .appendService r, _ => m.without r
  | .goWorker g, _ =>
      match g.watcher? with
      | some watcher => m.without watcher
      | none => m
  | .takeResources, (services, subs) => { m with cleaned := true, hands := services ++ subs }
  | .awaitWorkers, _ => { m with waited := true }
  | .startWorker, true => { m with worker := true }
  | .workerDone, _ => { m with worker := false }
  | _, _ => m

def ListenMarks.afterPool (m : ListenMarks) : (o : PoolOp) → o.Ret → ListenMarks
  | .mount actions, _ => { m with mounted := some actions }
  | .goListener ctx, id => { m with started := some (id, ctx) }
  | .receiveDone _, _ => { m with received := true }
  | .readActions, actions => { m with read := some actions }
  | .sendDone _ _, _ => { m with sent := true }
  | _, _ => m

def ListenMarks.afterReady (m : ListenMarks) : (o : ReadyOp) → o.Ret → ListenMarks
  | .signalReady none, _ => { m with signalled := true }
  | .awaitReady _, none => { m with awaited := true }
  | .readReadyErr, none => { m with told := m.awaited }
  | _, _ => m

def Marks.after (m : Marks) : Answered lifecycleSig → Marks
  | ⟨.link o, r⟩ => { m with link := m.link.after o r }
  | ⟨.pool o, r⟩ => { m with pool := m.pool.after o r, listen := m.listen.afterPool o r }
  | ⟨.ready o, r⟩ => { m with listen := m.listen.afterReady o r }
  | ⟨.external _, _⟩ => m

/-! ### What the marks allow -/

/-- A run that has its cleanup installed and has not begun it. -/
def PoolMarks.serving (m : PoolMarks) : Bool := m.running && m.up && !m.cleaned

def LinkMarks.allows (l : LinkMarks) (p : PoolMarks) : LinkOp → Prop
  | .lockConnect _ | .lockGate => l.gate = false
  | .unlockConnect => l.gate = true ∧ l.hand = none ∧ l.registered = none
  | .publishCancel _ => l.vacant = true ∧ l.gate = true
  | .withdrawCancel => l.gate = true
  | .connect _ => l.vacant = true ∧ l.gate = true ∧ l.hand = none ∧ l.registered ≠ none
  | .storeConn nc => l.vacant = true ∧ l.gate = true ∧ l.hand = some nc
  | .closeConn nc => l.gate = true ∧ l.hand = some nc
  | .takeConn =>
      l.gate = true ∧ l.hand = none ∧ l.vacant = false ∧ l.closes = true ∧
        (p.running = true → p.cleaned = true)
  | _ => True

/-- A run that has not sent its result. -/
def ListenMarks.live (q : ListenMarks) : Bool := q.role.runs && !q.sent

/-- An invocation that has mounted its actions and has not received the result
of its goroutine. -/
structure ListenMarks.InProgress (q : ListenMarks) : Prop where
  role : q.role = .invocation
  mounted : q.mounted ≠ none
  received : q.received = false

def PoolMarks.allows (p : PoolMarks) (l : LinkMarks) (q : ListenMarks) : PoolOp → Prop
  | .startRunning =>
      p.runner = true ∧ p.running = false ∧ p.cleaned = false ∧ l.took = false
  | .stopRunning =>
      p.running = true ∧ p.hands = [] ∧
        (p.up = true → p.cleaned = true ∧ p.waited = true ∧ l.took = true ∧ l.hand = none)
  | .clearClosing => p.running = true ∧ p.cleaned = false
  | .ensureJetStream => p.running = true
  | .openResource _ => p.serving = true ∨ p.worker = true
  | .appendSub _ | .appendService _ => p.serving = true
  | .goWorker g => p.serving = true ∧ g.isWorker = true
  | .takeResources => p.serving = true ∧ p.hands = []
  | .awaitWorkers => p.running = true ∧ p.cleaned = true ∧ p.hands = []
  | .startWorker => p.worker = false
  | .workerDone => p.worker = true ∧ p.hands = []
  | .mount _ => q = { role := .invocation } ∨ q.role = .direct
  | .goListener _ => q.InProgress ∧ q.started = none
  | .receiveDone id => q.InProgress ∧ ∃ ctx, q.started = some (id, ctx)
  | .readActions => p.running = true ∧ q.live = true ∧ q.read = none
  | .sendDone id _ => q.live = true ∧ ∃ ctx, q.role = .run id ctx
  | _ => True

/-- Who announces readiness has been told that the transport is ready. -/
structure ListenMarks.Announces (q : ListenMarks) : Prop where
  progress : q.InProgress
  started : q.started ≠ none
  told : q.told = true

/-- Whoever owes a call of a cancel function makes it next. -/
def Marks.allows (m : Marks) (o : Op) : Prop :=
  match m.link.owes with
  | some tok => o = .link (.cancel tok)
  | none =>
      match o with
      | .link o => m.link.allows m.pool o
      | .pool o => m.pool.allows m.link m.listen o
      | .ready (.signalReady err) =>
          m.pool.running = true ∧ m.listen.live = true ∧ (err = none → m.listen.read ≠ none)
      | .external .handle => m.pool.worker = true
      | .external .announceReady => m.listen.Announces
      | .ready _ | .external _ => True

def marking : Monitor lifecycleSig Marks where
  after := Marks.after
  allows := Marks.allows

section
variable {α : Type} {Q : Marks → α → Prop} {m : Marks}

theorem accepts_link_bind (o : LinkOp) (f : o.Ret → Routine α) :
    marking.Accepts Q m (link o >>= f) ↔
      m.allows (.link o) ∧ ∀ r : o.Ret, marking.Accepts Q
        { m with link := m.link.after o r } (f r) := Iff.rfl

end

end TransportNats.Lifecycle
