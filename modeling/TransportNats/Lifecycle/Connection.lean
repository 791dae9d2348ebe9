import TransportNats.Lifecycle.Operations

/-!
The connection of a transport: `EnsureConn` and `Close`.

`EnsureConn` looks for a usable connection, takes the gate, looks again and
dials. The dial registers the function that cancels it, so that `Close` can end
it early, and every way out of the dial closes what was dialed unless it has
become the transport's connection. `Close` cancels a dial, waits for the gate,
and takes the connection away.

`waitForInitialConnection` loops until the connection is up. A run in which the
client reports a connection at most `signals` times is a run of the loop below
with that parameter: when the signals are used up, only the other cases of the
`select` can end the wait.
-/

namespace TransportNats.Lifecycle

open Interleaving

abbrev Routine (α : Type) := Program lifecycleSig α

def link (o : LinkOp) : Routine o.Ret := Program.perform (S := lifecycleSig) (Op.link o)

def pool (o : PoolOp) : Routine o.Ret := Program.perform (S := lifecycleSig) (Op.pool o)

def readiness (o : ReadyOp) : Routine o.Ret := Program.perform (S := lifecycleSig) (Op.ready o)

def external (o : ExternalOp) : Routine o.Ret :=
  Program.perform (S := lifecycleSig) (Op.external o)

/-! ### Looking for a connection -/

/-- What `cachedConnection` makes of the fields it has read. `isClosed` is asked
about a connection only, after the section. -/
def cachedConnection : Routine (Option (Except Err Conn)) := do
  let view ← link .readConn
  match view.initErr with
  | some err => return some (.error (mapError err))
  | none =>
      if view.closing then
        return some (.error (.app .unavailable "nats: transport is closed"))
      else if view.providedConn then
        match view.conn with
        | none =>
            return some (.error (.app .unavailable "nats: caller-supplied connection is closed"))
        | some nc =>
            if ← link (.isClosed nc) then
              return some (.error (.app .unavailable "nats: caller-supplied connection is closed"))
            else return some (.ok nc)
      else
        match view.conn with
        | none => return none
        | some nc =>
            if ← link (.isClosed nc) then return none
            else return some (.ok nc)

/-! ### Dialing -/

def WaitEnd.err : WaitEnd → Err
  | .closed (some err) => mapError err
  | .closed none => .app .unavailable "nats: connection closed before initial connection"
  | .ctxDone err => err
  | .connectDone => .app .unavailable "nats: transport closed during initial connection"

/-- One turn of the loop, up to its `select`. -/
def lookConnected (ctx connectCtx : Ctx) (nc : Conn) (wait : Routine (Option Err)) :
    Routine (Option Err) := do
  match ← link (.ctxErr ctx) with
  | some err => return some err
  | none =>
      match ← link (.ctxErr connectCtx) with
      | some _ =>
          return some (.app .unavailable "nats: transport closed during initial connection")
      | none => if ← link (.isConnected nc) then return none else wait

def waitForInitialConnection (ctx connectCtx : Ctx) (nc : Conn) : ℕ → Routine (Option Err)
  | 0 => lookConnected ctx connectCtx nc do
      return some (← link (.awaitEnd ctx connectCtx nc)).err
  | signals + 1 => lookConnected ctx connectCtx nc do
      match ← link (.awaitConnected ctx connectCtx nc) with
      | none => waitForInitialConnection ctx connectCtx nc signals
      | some e => return some e.err

/-- The part of `dialConnection` between the registration of its cancel function
and the deferred withdrawal. -/
def dialRegistered (signals : ℕ) (ctx connectCtx : Ctx) (rawURL : String) :
    Routine (Except Err Conn) := do
  match ← link (.connect rawURL) with
  | .error err =>
      match ← link (.ctxErr ctx) with
      | some ctxErr => return .error ctxErr
      | none => return .error (mapError err)
  | .ok dialed =>
      match ← waitForInitialConnection ctx connectCtx dialed signals with
      | some err =>
          link (.closeConn dialed)
          return .error err
      | none =>
          match ← link (.jetStream dialed) with
          | some jsErr =>
              link (.closeConn dialed)
              return .error (mapError jsErr)
          | none =>
              if ← link (.storeConn dialed) then return .ok dialed
              else
                link (.closeConn dialed)
                return .error (.app .unavailable
                  "nats: transport closed during connection setup")

def dialConnection (signals : ℕ) (ctx : Ctx) : Routine (Except Err Conn) := do
  let rawURL ← link .readURL
  if rawURL = "" then return .error (.app .internal "nats: URL is required to dial")
  else
    let tok ← link .withCancel
    if ← link (.publishCancel tok) then
      let r ← dialRegistered signals ctx (tok :: ctx) rawURL
      link .withdrawCancel
      link (.cancel tok)
      return r
    else
      link (.cancel tok)
      return .error (.app .unavailable "nats: transport is closed")

/-! ### The two calls -/

/-- What `EnsureConn` does while it holds the gate. -/
def connectLocked (signals : ℕ) (ctx : Ctx) : Routine (Except Err Conn) := do
  match ← link (.ctxErr ctx) with
  | some err => return .error err
  | none =>
      match ← cachedConnection with
      | some state => return state
      | none => dialConnection signals ctx

def ensureConn (signals : ℕ) : Option Ctx → Routine (Except Err Conn)
  | none => return .error (.app .badRequest "nats: context is required")
  | some ctx => do
      match ← link (.ctxErr ctx) with
      | some err => return .error err
      | none =>
          match ← cachedConnection with
          | some state => return state
          | none =>
              match ← link (.lockConnect ctx) with
              | some err => return .error err
              | none =>
                  let r ← connectLocked signals ctx
                  link .unlockConnect
                  return r

def cancelRegistered : Option Token → Routine Unit
  | some cancelConnect => link (.cancel cancelConnect)
  | none => pure ()

/-- A connection that the caller supplied is left open. -/
def closeTaken : Option Conn × Bool → Routine Unit
  | (some nc, false) => link (.closeConn nc)
  | _ => pure ()

/-- `Transport.Close`, which always returns nil. -/
def closeTransport : Routine Unit := do
  cancelRegistered (← link .setClosing)
  link .lockGate
  closeTaken (← link .takeConn)
  link .unlockConnect

end TransportNats.Lifecycle
