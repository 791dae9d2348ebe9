import TransportNats.Library.Delegation
import TransportNats.Delivery.Loss

/-!
The loops that fetch messages and hand them to the handlers.

A subscription is served by one loop: it fetches a batch, calls the handler for
each message of it in turn, and fetches again, until its context is done or the
connection is closed. Everything that has been proved of handlers was proved of
handlers that run on their own, any number at a time. The loops are composed of
calls of handlers, and what a fetch does to the broker is what the deliveries
do, so every run of loops is a run of handlers.

A delivery can be lost on its way: the broker has handed it out, and without
acknowledgements it has even settled the message, but no loop gets to see it.
Such deliveries enter like those of a fetch and are never handled.

An action that panics is not told apart from a handler that has returned: the
model lets the loop go on where the program ends.
-/

namespace TransportNats.Delivery

open Interleaving Idempotency Program

/-! ### The loop -/

/-- The operations of a loop. Those of a handler show the delivery it works on. -/
inductive LoopOp (C : Type)
  | handler (d : Delivered C) (o : HandlerOp (Delivered C))
  | ctxErr
  | fetch (consumer : C) (batch : ℕ)
  | isClosed
  | pause
  | awaitCtx
  | unsubscribe
  | workerDone
  | lose (consumer : C) (msgs : List (ℕ × ℕ))

/-- A fetch returns messages of its consumer, by sequence and delivery number. The
answer of `pause` is whether the context was done first. -/
@[reducible] def LoopOp.Ret (R : Runtime) {C : Type} : LoopOp C → Type
  | .handler _ o => o.Ret R
  | .ctxErr => Option Err
  | .fetch _ _ => Except Err (List (ℕ × ℕ))
  | .isClosed => Bool
  | .pause => Bool
  | .awaitCtx => Unit
  | .unsubscribe => Option Err
  | .workerDone => Unit
  | .lose _ _ => Bool

abbrev loopSig (R : Runtime) (C : Type) : Signature := ⟨LoopOp C, LoopOp.Ret R⟩

abbrev Looping (R : Runtime) (C : Type) := Program (loopSig R C)

/-- The operations of the handler of a delivery as operations of the loop. -/
def handlerEmbedding (R : Runtime) {C : Type} (d : Delivered C) :
    Embedding (handlerSig R (Delivered C)) (loopSig R C) where
  op := .handler d
  down _ r := r
  up _ r := r
  up_down _ _ := rfl

section
variable (R : Runtime) (F : Fleet) (i : F.Consumer)

def loopOp {C : Type} (o : LoopOp C) : Looping R C (o.Ret R) := .perform (S := loopSig R C) o

/-- The two deferred calls. -/
def endFetching : Looping R F.Consumer Unit := do
  let _ ← loopOp R .unsubscribe
  loopOp R .workerDone

/-- The messages one after the other. A handler ends where its action panics, and the loop
goes on here; in the source the panic unwinds the loop as well. -/
def handleAll : List (ℕ × ℕ) → Looping R F.Consumer Unit
  | [] => pure ()
  | (sequence, number) :: msgs => do
      ((F.worker i).handle R (F.natsMsg ⟨i, sequence, number⟩)).lift
        (handlerEmbedding R ⟨i, sequence, number⟩)
      handleAll msgs

/-- Whether a fetch that failed for another reason than a timeout ends the loop. -/
def fetchEnds (err : Err) : Looping R F.Consumer Bool := do
  match ← loopOp R .ctxErr with
  | some _ => return true
  | none =>
      if err.is (.context .canceled) then return true
      else if ← loopOp R .isClosed then return true
      else loopOp R .pause

/-- The loop, for a number of turns; what it does after them is to wait for the end of
its context. -/
def runFetchLoop (batch : ℕ) : ℕ → Looping R F.Consumer Unit
  | 0 => do
      loopOp R .awaitCtx
      endFetching R F
  | turns + 1 => do
      match ← loopOp R .ctxErr with
      | some _ => endFetching R F
      | none =>
          match ← loopOp R (.fetch i batch) with
          | .error err =>
              if err.is (.nats .errTimeout) || err.is (.context .deadlineExceeded) then
                runFetchLoop batch turns
              else if ← fetchEnds R F err then endFetching R F
              else runFetchLoop batch turns
          | .ok msgs => do
              handleAll R F i msgs
              runFetchLoop batch turns

end

/-! ### Any number of loops -/

/-- The parties: a loop, and the network on which deliveries get lost. -/
inductive LoopCall (C : Type)
  | loop (consumer : C) (batch turns : ℕ)
  | lost (consumer : C) (msgs : List (ℕ × ℕ))

structure LoopChoice (R : Runtime) where
  broker : BrokerChoice R
  ctx : Option Err := none
  fetched : Except Err (List (ℕ × ℕ)) := .ok []
  closed : Bool := false
  cancelled : Bool := false
  unsubscribed : Option Err := none

/-- The deliveries that a fetch asks the broker for. -/
def deliveries {C : Type} (i : C) (msgs : List (ℕ × ℕ)) : List (Delivered C) :=
  msgs.map fun m => ⟨i, m.1, m.2⟩

def LoopCall.program (R : Runtime) (F : Fleet) : LoopCall F.Consumer → Looping R F.Consumer Unit
  | .loop i batch turns => runFetchLoop R F i batch turns
  | .lost i msgs => do
      let _ ← loopOp R (.lose i msgs)
      pure ()

/-- One operation. A fetch that succeeds delivers at most as many messages as it asks
for, one after the other. -/
def loopExec (R : Runtime) (F : Fleet) (ch : LoopChoice R) (s : Broker F) :
    (o : LoopOp F.Consumer) → Broker F × o.Ret R
  | .handler _ o => s.op R ch.broker o
  | .ctxErr => (s, ch.ctx)
  | .fetch i batch =>
      match ch.fetched with
      | .error err => (s, .error err)
      | .ok msgs =>
          if msgs.length ≤ batch then
            match (handlers R F).enterAll (deliveries i msgs) s with
            | some s' => (s', .ok msgs)
            | none => (s, .error (.sentinel (.nats .errTimeout)))
          else (s, .error (.sentinel (.nats .errTimeout)))
  | .isClosed => (s, ch.closed)
  | .pause => (s, ch.cancelled)
  | .awaitCtx => (s, ())
  | .unsubscribe => (s, ch.unsubscribed)
  | .workerDone => (s, ())
  | .lose i msgs =>
      match (handlers R F).enterAll (deliveries i msgs) s with
      | some s' => (s', true)
      | none => (s, false)

@[reducible] def loops (R : Runtime) (F : Fleet) : System where
  sig := loopSig R F.Consumer
  State := Broker F
  Call := LoopCall F.Consumer
  Result := Unit
  Choice := LoopChoice R
  Env := Empty
  program := LoopCall.program R F
  exec := loopExec R F
  enter _ s := some s
  env e _ := e.elim

/-! ### Loops as callers of handlers -/

section
variable (R : Runtime) (F : Fleet)

/-- The deliveries that an operation has let enter. -/
def enteredBy {C : Type} : (o : LoopOp C) → o.Ret R → List (Delivered C)
  | .fetch i _, .ok msgs => deliveries i msgs
  | .lose i msgs, true => deliveries i msgs
  | _, _ => []

def handlerLayer : Layer (loops R F) (handlers R F) where
  ops d := handlerEmbedding R d
  state s := s
  choice := LoopChoice.broker
  env := id
  begins := enteredBy R
  exec_state _ _ _ _ := rfl
  exec_ret _ _ _ _ := rfl
  enter_state h := by
    cases h
    rfl
  env_state e _ := e.elim

end

section
variable {R : Runtime} {F : Fleet}

/-- The calls of handlers among the events, in their order. -/
def callsOf : List (Event (loops R F) (handlers R F)) → List (Delivered F.Consumer)
  | [] => []
  | .own _ :: ev => callsOf ev
  | .call d _ :: ev => callsOf ev ++ [d]

/-- The deliveries that have entered, in their order. -/
def entriesOf : List (Event (loops R F) (handlers R F)) → List (Delivered F.Consumer)
  | [] => []
  | .own x :: ev => entriesOf ev ++ enteredBy R x.op x.ret
  | .call _ _ :: ev => entriesOf ev

/-- Handlers are called in the order of the deliveries, and a loop fetches only when it
is through with what it has. -/
def loopGuard (ev : List (Event (loops R F) (handlers R F))) :
    Request (loops R F) (handlers R F) → Prop
  | .call d => callsOf ev ++ [d] <+: entriesOf ev
  | .own (.handler _ _) => False
  | .own (.fetch _ _) => callsOf ev = entriesOf ev
  | .own _ => True

/-- Apart from the operations of handlers, all that a loop does to the broker is to let
deliveries enter. -/
theorem starts_own {o : LoopOp F.Consumer} (ho : ∀ d o', o ≠ .handler d o') :
    (handlerLayer R F).Starts o := by
  intro ch s
  cases o with
  | handler d o' => exact absurd rfl (ho d o')
  | fetch i batch =>
      show (handlers R F).enterAll (enteredBy R _ (loopExec R F ch s (.fetch i batch)).2) s =
        some (loopExec R F ch s (.fetch i batch)).1
      unfold loopExec
      dsimp only
      split
      · rfl
      · split
        · split
          · assumption
          · rfl
        · rfl
  | lose i msgs =>
      show (handlers R F).enterAll (enteredBy R _ (loopExec R F ch s (.lose i msgs)).2) s =
        some (loopExec R F ch s (.lose i msgs)).1
      unfold loopExec
      dsimp only
      split
      · assumption
      · rfl
  | _ => rfl

/-- A loop is through with what it has. -/
abbrev Idle (ev : List (Event (loops R F) (handlers R F))) (cs : List (Delivered F.Consumer)) :
    Prop := callsOf ev = entriesOf ev ∧ cs = []

/-- A loop ends only when it is through with what it has. -/
def loopPost (ev : List (Event (loops R F) (handlers R F))) (cs : List (Delivered F.Consumer)) :
    LoopCall F.Consumer → Prop
  | .loop _ _ _ => Idle ev cs
  | .lost _ _ => True

/-- The operations that are not part of a handler and let nothing enter. -/
def LoopOp.Quiet {C : Type} : LoopOp C → Prop
  | .handler _ _ | .fetch _ _ | .lose _ _ => False
  | _ => True

theorem LoopOp.Quiet.enteredBy_eq {C : Type} {o : LoopOp C} (ho : o.Quiet) (r : o.Ret R) :
    enteredBy R o r = [] := by
  cases o with
  | handler | fetch | lose => exact ho.elim
  | _ => rfl

theorem LoopOp.Quiet.guard {o : LoopOp F.Consumer} (ho : o.Quiet)
    (ev : List (Event (loops R F) (handlers R F))) : loopGuard ev (.own o) := by
  cases o with
  | handler | fetch | lose => exact ho.elim
  | _ => trivial

theorem composed_quiet {α : Type} {Q : List (Event (loops R F) (handlers R F)) →
      List (Delivered F.Consumer) → α → Prop} (o : LoopOp F.Consumer) (ho : o.Quiet)
    {f : o.Ret R → Looping R F.Consumer α} {ev : List (Event (loops R F) (handlers R F))}
    {cs : List (Delivered F.Consumer)} (hev : Idle ev cs)
    (hf : ∀ r ev cs, Idle ev cs → (handlerLayer R F).Composed loopGuard Q ev cs (f r)) :
    (handlerLayer R F).Composed loopGuard Q ev cs (loopOp R o >>= f) := by
  have hown : ∀ d o', o ≠ .handler d o' := by
    rintro d o' rfl
    exact ho
  refine .own (starts_own hown) (ho.guard ev) fun r => hf r _ _ ⟨?_, ?_⟩
  · show callsOf ev = entriesOf ev ++ enteredBy R o r
    rw [ho.enteredBy_eq, List.append_nil, hev.1]
  · show cs ++ enteredBy R o r = []
    rw [ho.enteredBy_eq, List.append_nil, hev.2]

/-- The same for an operation that comes last. -/
theorem composed_quiet_last (o : LoopOp F.Consumer) (ho : o.Quiet)
    {ev : List (Event (loops R F) (handlers R F))} {cs : List (Delivered F.Consumer)}
    (hev : Idle ev cs) :
    (handlerLayer R F).Composed loopGuard (fun ev cs _ => Idle ev cs) ev cs (loopOp R o) :=
  composed_quiet o ho (f := .ret) hev fun _ _ _ hev => .ret hev

/-- The messages of a batch are handled one after the other. -/
theorem composed_handleAll (i : F.Consumer) (msgs : List (ℕ × ℕ))
    {ev : List (Event (loops R F) (handlers R F))}
    (hev : callsOf ev ++ deliveries i msgs = entriesOf ev) :
    (handlerLayer R F).Composed loopGuard (fun ev cs _ => Idle ev cs) ev (deliveries i msgs)
      (handleAll R F i msgs) := by
  induction msgs generalizing ev with
  | nil => exact .ret ⟨by simpa [deliveries] using hev, rfl⟩
  | cons m msgs ih =>
      have hev' : (callsOf ev ++ [⟨i, m.1, m.2⟩]) ++ deliveries i msgs = entriesOf ev := by
        simpa [deliveries] using hev
      exact .begun (L := handlerLayer R F) (⟨i, m.1, m.2⟩ : Delivered F.Consumer)
        (k := fun _ => handleAll R F i msgs) ⟨_, hev'⟩ fun _ => ih hev'

theorem composed_endFetching {ev : List (Event (loops R F) (handlers R F))}
    {cs : List (Delivered F.Consumer)} (hev : Idle ev cs) :
    (handlerLayer R F).Composed loopGuard (fun ev cs _ => Idle ev cs) ev cs
      (endFetching R F) :=
  composed_quiet .unsubscribe trivial hev fun _ _ _ hev =>
    composed_quiet_last .workerDone trivial hev

theorem composed_fetchEnds (err : Err) {ev : List (Event (loops R F) (handlers R F))}
    {cs : List (Delivered F.Consumer)} (hev : Idle ev cs) :
    (handlerLayer R F).Composed loopGuard (fun ev cs _ => Idle ev cs) ev cs
      (fetchEnds R F err) := by
  refine composed_quiet .ctxErr trivial hev fun r ev cs hev => ?_
  cases r with
  | some _ => exact .ret hev
  | none =>
      dsimp only
      split
      · exact .ret hev
      · refine composed_quiet .isClosed trivial hev fun r ev cs hev => ?_
        cases r with
        | true => exact .ret hev
        | false => exact composed_quiet_last .pause trivial hev

theorem composed_runFetchLoop (i : F.Consumer) (batch turns : ℕ)
    {ev : List (Event (loops R F) (handlers R F))} {cs : List (Delivered F.Consumer)}
    (hev : Idle ev cs) :
    (handlerLayer R F).Composed loopGuard (fun ev cs _ => Idle ev cs) ev cs
      (runFetchLoop R F i batch turns) := by
  induction turns generalizing ev cs with
  | zero =>
      exact composed_quiet .awaitCtx trivial hev fun _ _ _ hev => composed_endFetching hev
  | succ turns ih =>
      refine composed_quiet .ctxErr trivial hev fun r ev cs hev => ?_
      cases r with
      | some _ => exact composed_endFetching hev
      | none =>
          obtain ⟨hcalls, rfl⟩ := hev
          refine .own (starts_own (o := .fetch i batch) (by simp)) hcalls fun r => ?_
          cases r with
          | error err =>
              have hev' : Idle (R := R) (.own ⟨.fetch i batch, .error err⟩ :: ev) [] :=
                ⟨by simpa [callsOf, entriesOf, enteredBy] using hcalls, rfl⟩
              show (handlerLayer R F).Composed _ _ _ _ (if _ then _ else _)
              split
              · exact ih hev'
              · refine (composed_fetchEnds err hev').bind fun ev cs ends hev => ?_
                cases ends with
                | true => exact composed_endFetching hev
                | false => exact ih hev
          | ok msgs =>
              show (handlerLayer R F).Composed _ _ _ _
                (handleAll R F i msgs >>= fun _ => runFetchLoop R F i batch turns)
              refine (composed_handleAll i msgs ?_).bind fun ev cs _ hev => ih hev
              show callsOf ev ++ deliveries i msgs = entriesOf ev ++ deliveries i msgs
              rw [hcalls]

theorem composed_loopCall (c : LoopCall F.Consumer) :
    (handlerLayer R F).Composed loopGuard (fun ev cs _ => loopPost ev cs c) [] []
      (c.program R F) := by
  cases c with
  | loop i batch turns => exact composed_runFetchLoop i batch turns ⟨rfl, rfl⟩
  | lost i msgs =>
      exact .own (starts_own (o := .lose i msgs) (by simp)) trivial fun _ => .ret trivial

end

def serving (R : Runtime) (F : Fleet) : Delegation (loops R F) (handlers R F) where
  toLayer := handlerLayer R F
  guard _ := loopGuard
  post c ev cs _ := loopPost ev cs c
  program := composed_loopCall

/-! ### What a loop has done -/

section
variable {R : Runtime} {F : Fleet}

abbrev LoopHist (R : Runtime) (C : Type) := History (loopSig R C)

/-- The deliveries that a party has let enter, in their order. -/
def entered {C : Type} : LoopHist R C → List (Delivered C)
  | [] => []
  | x :: h => entered h ++ enteredBy R x.op x.ret

def handlerEntry {C : Type} :
    Answered (loopSig R C) → Option (Delivered C × Answered (handlerSig R (Delivered C)))
  | ⟨.handler d o, r⟩ => some (d, ⟨o, r⟩)
  | _ => none

/-- What the handlers have performed, each operation with its delivery. -/
def handled {C : Type} (h : LoopHist R C) :
    List (Delivered C × Answered (handlerSig R (Delivered C))) :=
  h.filterMap handlerEntry

theorem entered_append {C : Type} (h h' : LoopHist R C) :
    entered (h ++ h') = entered h' ++ entered h := by
  induction h with
  | nil => simp [entered]
  | cons x h ih => simp [entered, ih]

theorem entered_answered {C : Type} (d : Delivered C) (h : HandlerHist R (Delivered C)) :
    entered (h.map (handlerEmbedding R d).answered) = [] := by
  induction h with
  | nil => rfl
  | cons x h ih =>
      rw [List.map_cons, entered, ih]
      rfl

theorem handled_answered {C : Type} (d : Delivered C) (h : HandlerHist R (Delivered C)) :
    handled (h.map (handlerEmbedding R d).answered) = h.map (Prod.mk d) := by
  induction h with
  | nil => rfl
  | cons x h ih => exact congrArg (List.cons (d, x)) ih

theorem handlerEntry_of_guard {ev : List (Event (loops R F) (handlers R F))}
    {x : Answered (loopSig R F.Consumer)} (hG : loopGuard ev (.own x.op)) :
    handlerEntry x = none := by
  obtain ⟨o, r⟩ := x
  cases o with
  | handler d o => exact hG.elim
  | _ => rfl

/-- What a party has done: the handlers that have come to their end (the latest first),
the one that is running, and the deliveries that have entered and wait. -/
structure Served (R : Runtime) (F : Fleet) (h : LoopHist R F.Consumer)
    (done : List (Delivered F.Consumer × HandlerHist R (Delivered F.Consumer)))
    (running : Option (Delivered F.Consumer × HandlerHist R (Delivered F.Consumer)))
    (waiting : List (Delivered F.Consumer)) : Prop where
  entered : entered h = (done.reverse ++ running.toList).map Prod.fst ++ waiting
  handled : handled h = (running.toList ++ done).flatMap fun p => p.2.map (Prod.mk p.1)
  ended : ∀ p ∈ done, ((handlers R F).program p.1).Leads p.2 (.ret ())
  unfinished : ∀ p ∈ running, ∃ o k, ((handlers R F).program p.1).Leads p.2 (.call o k)

/-- The calls that have returned, in the history of their caller. -/
theorem served_unfolds {acts : List (Act (handlers R F))}
    {ev : List (Event (loops R F) (handlers R F))} {is : List ℕ} {h : LoopHist R F.Consumer}
    (hu : (serving R F).Unfolds ((F.start R).run acts) ev is h)
    (hal : ∀ {x e}, x :: e <:+ ev → loopGuard e x.request) :
    ∃ done : List (Delivered F.Consumer × HandlerHist R (Delivered F.Consumer)),
      entered h = entriesOf ev ∧ (done.map Prod.fst).reverse = callsOf ev ∧
      handled h = done.flatMap (fun p => p.2.map (Prod.mk p.1)) ∧
      ∀ p ∈ done, ((handlers R F).program p.1).Leads p.2 (.ret ()) := by
  induction hu with
  | nil => exact ⟨[], rfl, rfl, rfl, by simp⟩
  | @own ev is h x _ ih =>
      obtain ⟨done, hen, hcalls, hha, hend⟩ :=
        ih fun hsuf => hal (hsuf.trans (List.suffix_cons _ _))
      have hnone := handlerEntry_of_guard (hal (List.suffix_refl _))
      refine ⟨done, ?_, hcalls, ?_, hend⟩
      · rw [entered, hen, entriesOf]
      · rw [← hha]
        exact List.filterMap_cons_none hnone
  | @call ev is h i d h' r hi _ ih =>
      obtain ⟨done, hen, hcalls, hha, hend⟩ :=
        ih fun hsuf => hal (hsuf.trans (List.suffix_cons _ _))
      refine ⟨(d, h') :: done, ?_, ?_, ?_, ?_⟩
      · show entered (h'.map (handlerEmbedding R d).answered ++ h) = _
        rw [entered_append, entered_answered, List.append_nil, hen, entriesOf]
      · rw [List.map_cons, List.reverse_cons, hcalls, callsOf]
      · show handled (h'.map (handlerEmbedding R d).answered ++ h) = _
        rw [handled, List.filterMap_append, ← handled, ← handled, handled_answered, hha,
          List.flatMap_cons]
      · intro p hp
        rcases List.mem_cons.mp hp with rfl | hp
        · exact World.leads_run _ acts hi
        · exact hend p hp

/-- The handlers are called in the order of the deliveries. -/
theorem calls_prefix_entries {ev : List (Event (loops R F) (handlers R F))}
    (hal : ∀ {x e}, x :: e <:+ ev → loopGuard e x.request) : callsOf ev <+: entriesOf ev := by
  induction ev with
  | nil => exact List.nil_prefix
  | cons x ev ih =>
      have hrest := ih fun hsuf => hal (hsuf.trans (List.suffix_cons _ _))
      cases x with
      | own x => exact hrest.trans (List.prefix_append _ _)
      | call d r => exact hal (List.suffix_refl _)

/-- Every run of loops is a run of handlers on the same broker. -/
theorem loops_simulate (acts : List (Act (loops R F))) :
    ∃ acts' σs owner, (serving R F).Simulates
      ((World.init (M := loops R F) (.empty F)).run acts) ((F.start R).run acts') σs owner := by
  obtain ⟨acts', σs, owner, hs, -⟩ := (Delegation.simulates_init (serving R F) (.empty F)).run
    (P := fun _ => True) trivial acts fun _ _ _ _ _ _ _ _ _ => trivial
  exact ⟨acts', σs, owner, hs⟩

end

/-- Every loop handles the messages that it fetches one after the other, in their order,
each one exactly once and to the end of its handler. It fetches again, or ends, only when
all of them have been handled. -/
theorem fetchLoop_serves_in_order (R : Runtime) (F : Fleet) (acts : List (Act (loops R F)))
    {t : ℕ} {i : F.Consumer} {batch turns : ℕ} {h : LoopHist R F.Consumer}
    {p : Looping R F.Consumer Unit}
    (ht : ((World.init (M := loops R F) (.empty F)).run acts).threads[t]? =
      some ⟨.loop i batch turns, h, p⟩) :
    ∃ done running waiting, Served R F h done running waiting ∧
      ((∃ j n, p.next? = some (.fetch j n)) ∨ p = .ret () → running = none ∧ waiting = []) := by
  obtain ⟨acts', σs, owner, hs⟩ := loops_simulate acts
  obtain ⟨σ, -, hf⟩ := hs.session ht
  obtain ⟨cs, -, -, hst⟩ := hf.stands
  have hal := @hf.allowed
  obtain ⟨waiting, hwaiting⟩ := calls_prefix_entries hal
  -- between two calls nobody is running
  have hbetween : ∀ {h}, (serving R F).Unfolds ((F.start R).run acts') σ.events σ.returned h →
      ∃ done, Served R F h done none waiting := by
    intro h hu
    obtain ⟨done, hen, hcalls, hha, hend⟩ := served_unfolds hu hal
    refine ⟨done, ?_, by simpa using hha, hend, by simp⟩
    rw [hen, ← hwaiting, ← hcalls]
    simp
  have hidle : callsOf σ.events = entriesOf σ.events → waiting = [] := by
    intro heq
    rw [← heq] at hwaiting
    exact List.append_right_eq_self.mp hwaiting
  cases hst with
  | ended _ hu hq =>
      obtain ⟨done, hd⟩ := hbetween hu
      exact ⟨done, none, waiting, hd, fun _ => ⟨rfl, hidle hq.1⟩⟩
  | own _ hu _ hG =>
      obtain ⟨done, hd⟩ := hbetween hu
      refine ⟨done, none, waiting, hd, ?_⟩
      rintro (⟨j, n, hnext⟩ | hret)
      · obtain rfl := Option.some.inj hnext
        exact ⟨rfl, hidle hG⟩
      · cases hret
  | @inside u d h' o k h₀ _ k' _ _ hthread hu hh hG _ hp =>
      obtain ⟨done, hen, hcalls, hha, hend⟩ := served_unfolds hu hal
      obtain ⟨waiting', hwaiting'⟩ := hG
      subst hh hp
      refine ⟨done, some (d, h'), waiting', ⟨?_, ?_, hend, ?_⟩, ?_⟩
      · show entered (h'.map (handlerEmbedding R d).answered ++ h₀) = _
        rw [entered_append, entered_answered, List.append_nil, hen, ← hwaiting', ← hcalls]
        simp
      · show handled (h'.map (handlerEmbedding R d).answered ++ h₀) = _
        rw [handled, List.filterMap_append, ← handled, ← handled, handled_answered, hha]
        simp
      · intro q hq
        obtain rfl := Option.mem_some.mp hq
        exact ⟨o, k, World.leads_run _ acts' hthread⟩
      · rintro (⟨j, n, hnext⟩ | hret)
        · cases hnext
        · cases hret

/-- One loop fetches the last delivery of a message, on which the action fails; a second
delivery has been lost before. -/
def fetchedOnce : List (Act (loops .plain sampleFleet)) :=
  let ch := acting (.failed (.other "failed" none)) .ok
  [.spawn (.lost () [(2, 1)]), .step 0 ⟨ch, none, .ok [], false, false, none⟩,
    .spawn (.loop () 1 1), .step 1 ⟨ch, none, .ok [], false, false, none⟩] ++
  List.replicate 7 (.step 1 ⟨ch, none, .ok [(1, 1)], false, false, none⟩)

/-- The thread of the loop in `fetchedOnce`, with its message handled. -/
theorem fetchLoop_serves_in_order_fetchedOnce :
    ∃ h p, ((World.init (M := loops .plain sampleFleet) (.empty sampleFleet)).run
        fetchedOnce).threads[1]? = some ⟨.loop () 1 1, h, p⟩ ∧
      entered h = [⟨(), 1, 1⟩] ∧
      ∃ done running waiting, Served .plain sampleFleet h done running waiting ∧
        ((∃ j n, p.next? = some (.fetch j n)) ∨ p = .ret () → running = none ∧ waiting = []) :=
  ⟨_, _, rfl, rfl, fetchLoop_serves_in_order .plain sampleFleet fetchedOnce (t := 1) rfl⟩

/-! ### No silent loss -/

end TransportNats.Delivery
