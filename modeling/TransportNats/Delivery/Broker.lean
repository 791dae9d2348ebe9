import TransportNats.Delivery.Handler

/-!
The broker that the handlers run against.

Any number of consumers read one stream and dead-letter into one other stream.
A delivery is a message handed to a handler of some consumer under a delivery
number; the same message may be handed out again at any time, also while
earlier handlers of it still run, but never twice under one number. A request
may fail, and a failed request may or may not have been applied.

Of the executions nothing is assumed: the stores of the idempotent executor and
the action itself give any answers they like.
-/

namespace TransportNats.Delivery

open Interleaving Idempotency

/-! ### Consumers -/

/-- What serves the messages of one consumer. -/
structure Worker where
  binding : Binding
  actionMeta : Option IdempotencyConfig
  kind : StoreKind

def Worker.handle (R : Runtime) {D : Type} (W : Worker) (msg : NatsMsg D) : Handler R D Unit :=
  W.binding.handle R W.kind W.actionMeta msg

/-- The consumers of a stream, each with an accepted binding. Consumers of one
stream with one name are one consumer. -/
structure Fleet where
  stream : String
  /-- The messages of the stream by sequence. -/
  message : ℕ → Msg
  Consumer : Type
  decEq : DecidableEq Consumer
  worker : Consumer → Worker
  accepted : ∀ i, (worker i).binding.validate = none
  bound : ∀ i, (worker i).binding.stream = stream
  named : Function.Injective fun i => (worker i).binding.name

instance (F : Fleet) : DecidableEq F.Consumer := F.decEq

def Fleet.binding (F : Fleet) (i : F.Consumer) : Binding := (F.worker i).binding

/-- One delivery of a message to a consumer. -/
@[ext] structure Delivered (C : Type) where
  consumer : C
  sequence : ℕ
  number : ℕ
  deriving DecidableEq

namespace Fleet

variable (F : Fleet)

/-- The message as a handler gets it. -/
def natsMsg (d : Delivered F.Consumer) : NatsMsg (Delivered F.Consumer) :=
  ⟨F.message d.sequence, d⟩

/-- What the reply subject of a delivery says. -/
def metadata (d : Delivered F.Consumer) : Metadata := ⟨F.stream, d.sequence, d.number⟩

end Fleet

/-! ### The broker -/

/-- A record in the dead-letter stream. -/
structure Record where
  subject : String
  id : String
  letter : DeadLetter

structure Broker (F : Fleet) where
  /-- The deliveries so far. -/
  handed : List (Delivered F.Consumer)
  /-- The messages that are not pending any more. -/
  settled : List (F.Consumer × ℕ)
  /-- The dead-letter stream. -/
  records : List Record

def Broker.empty (F : Fleet) : Broker F := ⟨[], [], []⟩

inductive BrokerFault
  | ok
  | dropped (err : Err)
  | lost (err : Err)

structure BrokerChoice (R : Runtime) where
  fault : BrokerFault := .ok
  clock : I64 := .zero
  answers : (o : ExecOp) → o.Ret R

/-- A request that turns the state into `s'` if it is applied. -/
def BrokerFault.request {F : Fleet} (s s' : Broker F) : BrokerFault → Broker F × Option Err
  | .ok => (s', none)
  | .dropped err => (s, some err)
  | .lost err => (s', some err)

namespace Broker

variable {F : Fleet}

/-- The messages that an acknowledgement of `d` settles: under `AckAll` every
message delivered so far up to its sequence, else only its own. -/
def covered (s : Broker F) (d : Delivered F.Consumer) : List (F.Consumer × ℕ) :=
  if (F.binding d.consumer).ackPolicy = .ackAll then
    (d.consumer, d.sequence) :: (s.handed.filter fun d' =>
      d'.consumer = d.consumer ∧ d'.sequence ≤ d.sequence).map fun d' =>
        (d'.consumer, d'.sequence)
  else [(d.consumer, d.sequence)]

/-- JetStream treats a termination like an acknowledgement. -/
def settle (s : Broker F) (d : Delivered F.Consumer) : Broker F :=
  { s with settled := s.covered d ++ s.settled }

/-- A message id that the stream has seen is not stored again. -/
def store (s : Broker F) (record : Record) : Broker F :=
  if s.records.any fun r => r.id = record.id then s
  else { s with records := record :: s.records }

/-- A delivery number is handed out once. A consumer without acknowledgements
does not keep what it has delivered pending. -/
def deliver (d : Delivered F.Consumer) (s : Broker F) : Option (Broker F) :=
  if d.number = 0 ∨ d ∈ s.handed then none
  else some
    { s with
      handed := d :: s.handed
      settled :=
        if (F.binding d.consumer).ackPolicy = .ackNone then
          (d.consumer, d.sequence) :: s.settled
        else s.settled }

def op (R : Runtime) (ch : BrokerChoice R) (s : Broker F) :
    (o : HandlerOp (Delivered F.Consumer)) → Broker F × o.Ret R
  | .exec o => (s, ch.answers o)
  | .metadata d =>
      (s, match ch.fault with
        | .ok => .ok (F.metadata d)
        | .dropped err | .lost err => .error err)
  | .now => (s, ch.clock)
  | .ackSync d => ch.fault.request s (s.settle d)
  | .nakWithDelay _ _ => ch.fault.request s s
  | .publish subject id letter => ch.fault.request s (s.store ⟨subject, id, letter⟩)
  | .term d => ch.fault.request s (s.settle d)

end Broker

/-- Any number of handlers of all consumers of the stream. -/
@[reducible] def handlers (R : Runtime) (F : Fleet) : System where
  sig := handlerSig R (Delivered F.Consumer)
  State := Broker F
  Call := Delivered F.Consumer
  Result := Unit
  Choice := BrokerChoice R
  Env := Empty
  program d := (F.worker d.consumer).handle R (F.natsMsg d)
  exec := Broker.op R
  enter := Broker.deliver
  env e _ := e.elim

abbrev Fleet.start (F : Fleet) (R : Runtime) : World (handlers R F) :=
  World.init (M := handlers R F) (.empty F)

/-! ### What an operation can do -/

section
variable {R : Runtime} {F : Fleet}

/-- The request `o`, if it is applied to `s`, makes it `s'`. -/
inductive Alters (s : Broker F) : HandlerOp (Delivered F.Consumer) → Broker F → Prop
  | ackSync (d : Delivered F.Consumer) : Alters s (.ackSync d) (s.settle d)
  | term (d : Delivered F.Consumer) : Alters s (.term d) (s.settle d)
  | publish (subject id : String) (letter : DeadLetter) :
      Alters s (.publish subject id letter) (s.store ⟨subject, id, letter⟩)

theorem request_alters {s s' : Broker F} {o : HandlerOp (Delivered F.Consumer)}
    (fault : BrokerFault) (h : Alters s o s') :
    (fault.request s s').1 = s ∨ Alters s o (fault.request s s').1 := by
  cases fault with
  | ok => exact .inr h
  | dropped err => exact .inl rfl
  | lost err => exact .inr h

theorem op_effect (ch : BrokerChoice R) (s : Broker F) (o : HandlerOp (Delivered F.Consumer)) :
    (s.op R ch o).1 = s ∨ Alters s o (s.op R ch o).1 := by
  cases o with
  | ackSync d => exact request_alters ch.fault (.ackSync d)
  | term d => exact request_alters ch.fault (.term d)
  | publish subject id letter => exact request_alters ch.fault (.publish subject id letter)
  | nakWithDelay d delay =>
      left
      show (ch.fault.request s s).1 = s
      cases ch.fault <;> rfl
  | _ => exact .inl rfl

theorem records_store (s : Broker F) (record : Record) :
    s.records ⊆ (s.store record).records ∧
      ∃ r ∈ (s.store record).records, r.id = record.id := by
  unfold Broker.store
  split
  · rename_i hseen
    obtain ⟨r, hr, hid⟩ := List.any_eq_true.mp hseen
    exact ⟨List.Subset.refl _, r, hr, by simpa using hid⟩
  · exact ⟨List.subset_cons_self _ _, record, List.mem_cons_self, rfl⟩

theorem mem_store {s : Broker F} {record r : Record} (hr : r ∈ (s.store record).records) :
    r ∈ s.records ∨ r = record := by
  unfold Broker.store at hr
  split at hr
  · exact .inl hr
  · exact (List.mem_cons.mp hr).symm

/-- Unless acknowledgements are cumulative, only the message itself is settled. -/
theorem mem_covered {s : Broker F} {d : Delivered F.Consumer} {i : F.Consumer} {n : ℕ}
    (hi : (F.binding i).ackPolicy ≠ .ackAll) (hmem : (i, n) ∈ s.covered d) :
    d.consumer = i ∧ d.sequence = n := by
  unfold Broker.covered at hmem
  split at hmem
  · rename_i hall
    rcases List.mem_cons.mp hmem with heq | hmem
    · obtain ⟨rfl, rfl⟩ := Prod.mk.inj heq
      exact ⟨rfl, rfl⟩
    · obtain ⟨d', hd', heq⟩ := List.mem_map.mp hmem
      obtain ⟨hc, -⟩ := Prod.mk.inj heq
      have hd := (List.mem_filter.mp hd').2
      simp only [decide_eq_true_eq] at hd
      exact absurd (by rw [← hc, hd.1]; exact hall) hi
  · obtain ⟨rfl, rfl⟩ := Prod.mk.inj (List.mem_singleton.mp hmem)
    exact ⟨rfl, rfl⟩

theorem self_mem_covered (s : Broker F) (d : Delivered F.Consumer) :
    (d.consumer, d.sequence) ∈ s.covered d := by
  unfold Broker.covered
  split
  · exact List.mem_cons_self
  · exact List.mem_singleton_self _

/-- Dead letters stay, settled messages stay settled, and delivery numbers stay
handed out. -/
structure Grows (s s' : Broker F) : Prop where
  handed : s.handed ⊆ s'.handed
  settled : s.settled ⊆ s'.settled
  records : s.records ⊆ s'.records

theorem Grows.refl (s : Broker F) : Grows s s :=
  ⟨List.Subset.refl _, List.Subset.refl _, List.Subset.refl _⟩

theorem Alters.grows {s s' : Broker F} {o : HandlerOp (Delivered F.Consumer)}
    (h : Alters s o s') : Grows s s' := by
  cases h with
  | ackSync d => exact ⟨List.Subset.refl _, List.subset_append_right _ _, List.Subset.refl _⟩
  | term d => exact ⟨List.Subset.refl _, List.subset_append_right _ _, List.Subset.refl _⟩
  | publish subject id letter =>
      refine ⟨?_, ?_, (records_store s _).1⟩ <;>
        · unfold Broker.store
          split <;> exact List.Subset.refl _

theorem op_grows (ch : BrokerChoice R) (s : Broker F) (o : HandlerOp (Delivered F.Consumer)) :
    Grows s (s.op R ch o).1 := by
  rcases op_effect ch s o with h | h
  · rw [h]
    exact .refl s
  · exact h.grows

/-- What a delivery changes. -/
structure Delivers (d : Delivered F.Consumer) (s s' : Broker F) : Prop where
  number : d.number ≠ 0
  fresh : d ∉ s.handed
  handed : s'.handed = d :: s.handed
  records : s'.records = s.records
  settled : s'.settled = s.settled ∨
    (F.binding d.consumer).ackPolicy = .ackNone ∧
      s'.settled = (d.consumer, d.sequence) :: s.settled

theorem delivers_of_deliver {d : Delivered F.Consumer} {s s' : Broker F}
    (h : s.deliver d = some s') : Delivers d s s' := by
  unfold Broker.deliver at h
  split at h
  · cases h
  · rename_i hnew
    obtain rfl := Option.some.inj h
    refine ⟨fun h0 => hnew (.inl h0), fun hd => hnew (.inr hd), rfl, rfl, ?_⟩
    dsimp only
    split
    · exact .inr ⟨‹_›, rfl⟩
    · exact .inl rfl

theorem Delivers.grows {d : Delivered F.Consumer} {s s' : Broker F} (h : Delivers d s s') :
    Grows s s' where
  handed := h.handed ▸ List.subset_cons_self _ _
  settled := by
    rcases h.settled with h | ⟨-, h⟩
    · rw [h]
      exact List.Subset.refl _
    · rw [h]
      exact List.subset_cons_self _ _
  records := h.records ▸ List.Subset.refl _

theorem handlers_grows {w w' : World (handlers R F)} {a : Act (handlers R F)}
    (hm : w.Moves a w') : Grows w.state w'.state := by
  cases hm with
  | idle => exact .refl _
  | enter h => exact (delivers_of_deliver h).grows
  | @perform t ch d h o k ht => exact op_grows ch w.state o
  | env e => exact e.elim

end

end TransportNats.Delivery
