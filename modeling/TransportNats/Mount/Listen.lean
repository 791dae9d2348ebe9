import TransportNats.Library.Splitting
import TransportNats.Lifecycle.Runner
import TransportNats.Mount.Actions

/-!
What `nats.listen` serves.

In a flow an action gets its bindings from modifiers, whose text may be
malformed. Such a text becomes a binding as well, one that only says what was
expected, and `nats.listen` refuses to start when it meets one. It serves the
actions that the request names; if none is named, it asks the resolver for all
actions and keeps those with a binding of this transport. The binding of a
malformed text is not one of these.
-/

namespace TransportNats.Mount

open Interleaving
open Delivery (second)

/-! ### Texts of modifiers -/

/-- `unicode.IsSpace`. -/
def isSpace (c : Char) : Bool :=
  c = ' ' || ('\t' ≤ c && c ≤ '\r') || c.toNat ∈ [0x85, 0xA0, 0x1680, 0x2028, 0x2029, 0x202F,
    0x205F, 0x3000] || (0x2000 ≤ c.toNat && c.toNat ≤ 0x200A)

/-- `strings.TrimSpace`. -/
def trimSpace (s : String) : String :=
  String.ofList (((s.toList.dropWhile isSpace).reverse.dropWhile isSpace).reverse)

/-- `strings.Split` at a separator of one character. -/
def split (s : String) (sep : Char) : List String := (s.toList.splitOn sep).map String.ofList

/-- `strings.Cut` at a separator of one character: what stands before the first
one, and what stands after it if there is one. -/
def cut (s : String) (sep : Char) : String × Option String :=
  match Splitting.splitFirst sep s.toList with
  | none => (s, none)
  | some (before, after) => (String.ofList before, some (String.ofList after))

/-! ### Bindings of modifiers -/

def durableWork (stream subject durable deadLetterSubject : String) : Delivery.DurableBinding where
  stream := stream
  subject := subject
  durable := durable
  deadLetterSubject := deadLetterSubject
  maxDeliver := ⟨5, by decide, by decide⟩
  ackWait := 30 * second
  retryDelay := second
  maxAckPending := 64

def consumer (stream subject durable : String) : Delivery.ConsumerBinding where
  stream := stream
  subject := subject
  durable := durable
  deliverPolicy := .deliverAll
  ackPolicy := .ackExplicit
  replayPolicy := .replayInstant
  maxDeliver := ⟨5, by decide, by decide⟩
  ackWait := 30 * second
  maxAckPending := 256

def objectStore (bucket pattern : String) : Object.ObjectBinding where
  bucket := bucket
  pattern := bytesOf pattern
  maxBytes := 8 * 1024 * 1024

def service (service version endpoint subject : String) : ServiceBinding where
  service := service
  version := version
  description := "Nexss action " ++ endpoint
  endpoint := endpoint
  subject := subject

/-- The modifiers by which a flow binds an action to this transport. -/
inductive Modifier
  | natsTopic | natsRequest | natsRPC | natsDurable | natsConsumer | natsKV | natsObject | natsMicro

/-- A binding from a text of as many parts as `count` says. -/
def splitBinding (count : ℕ) (expected : String) (bind : (ℕ → String) → Binding)
    (raw : String) : Binding :=
  let parts := split raw ':'
  if parts.length ≠ count then .invalid expected else bind fun i => parts.getD i ""

/-- A binding from a text of two parts, the second of which may be empty. -/
def cutBinding (expected : String) (bind : String → String → Binding) (raw : String) : Binding :=
  match cut raw ':' with
  | (_, none) => .invalid expected
  | (first, some rest) => bind (trimSpace first) (trimSpace rest)

/-- The binding that a modifier gives an action. -/
def Modifier.binding (raw : String) : Modifier → Binding
  | .natsTopic =>
      let (subject, queue) := cut raw '@'
      .topic (trimSpace subject) (trimSpace (queue.getD ""))
  | .natsRequest | .natsRPC => .request (trimSpace raw) 0
  | .natsDurable =>
      splitBinding 4 "@nats_durable expects stream:subject:durable:dlq"
        (fun part => .durable (durableWork (part 0) (part 1) (part 2) (part 3))) raw
  | .natsConsumer =>
      splitBinding 3 "@nats_consumer expects stream:subject:durable"
        (fun part => .consumer (consumer (part 0) (part 1) (part 2))) raw
  | .natsKV =>
      cutBinding "@nats_kv expects bucket:key (key may be empty to watch all keys)" .kv raw
  | .natsObject =>
      cutBinding "@nats_object expects bucket:pattern (pattern may be empty to watch all objects)"
        (fun bucket pattern => .object (objectStore bucket pattern)) raw
  | .natsMicro =>
      splitBinding 4 "@nats_micro expects service:version:endpoint:subject"
        (fun part => .service (service (part 0) (part 1) (part 2) (part 3))) raw

/-! ### The request -/

def stringOf : Json → Option String
  | .str s => some s
  | _ => none

/-- The names in the field `endpoints` of the input; whatever is not a string is
skipped. -/
def endpointsOf : Json → List String
  | .obj fields =>
      match fields.find? fun kv => kv.1 = "endpoints" with
      | some (_, .arr elems) => elems.filterMap stringOf
      | _ => []
  | _ => []

/-- A resolver of actions. `actions` is `none` if it cannot list them; a listed
action may be nil. -/
structure Resolver where
  action : String → Option Action
  actions : Option (List (Option Action))

/-- `natsBindingCheckers`. -/
def natsBindingCheckers : List (Binding → Bool) :=
  [(· matches .topic _ _), (· matches .request _ _), (· matches .durable _),
   (· matches .consumer _), (· matches .kv _ _), (· matches .object _), (· matches .service _)]

/-- A binding of this transport. -/
def Binding.isNATS (b : Binding) : Bool := natsBindingCheckers.any fun f => f b

/-- The action has a binding of this transport. -/
def Action.natsBound (act : Action) : Bool := act.bindings.any Binding.isNATS

def filterNATSBoundActions : List (Option Action) → List Action
  | [] => []
  | none :: actions => filterNATSBoundActions actions
  | some act :: actions =>
      if act.natsBound then act :: filterNATSBoundActions actions
      else filterNATSBoundActions actions

/-- The loop over the named endpoints. -/
def resolveEndpoints (r : Resolver) : List String → Except Err (List Action)
  | [] => .ok []
  | name :: names =>
      match r.action name with
      | none => .error (.app .notFound ("nats.listen: endpoint not found: " ++ name))
      | some act =>
          match resolveEndpoints r names with
          | .error err => .error err
          | .ok acts => .ok (act :: acts)

def selectActions (r : Resolver) (endpoints : List String) : Except Err (List Action) :=
  if endpoints ≠ [] then resolveEndpoints r endpoints
  else
    match filterNATSBoundActions (r.actions.getD []) with
    | [] => .error (.other "nats.listen: no actions found" none)
    | act :: acts => .ok (act :: acts)

def Binding.invalidText : Binding → Option String
  | .invalid text => some text
  | _ => none

/-- The two loops that look for an invalid binding. -/
def checkBindings : List Action → Option Err
  | [] => none
  | act :: acts =>
      match act.bindings.findSome? Binding.invalidText with
      | some bad =>
          some (.app .badRequest ("nats.listen: action " ++
            Object.quote (bytesOf (act.name.getD "")) ++ " has invalid binding: " ++ bad))
      | none => checkBindings acts

/-- The actions to mount, or the error for which none is mounted. -/
def resolveActions (resolver : Option Resolver) (input : Json) : Except Err (List Action) :=
  match resolver with
  | none => .error (.other "nats.listen: action resolver is nil" none)
  | some r =>
      match selectActions r (endpointsOf input) with
      | .error err => .error err
      | .ok acts =>
          match checkBindings acts with
          | some err => .error err
          | none => .ok acts

/-- The operations of the lifecycle, with the actions resolved to `r`. -/
def resolving (r : Except Err (List Lifecycle.Action)) :
    (o : Lifecycle.Op) → Lifecycle.Routine o.Ret
  | .external .resolveActions => pure r
  | o => .perform (S := Lifecycle.lifecycleSig) o

/-- `nats.listen` with its request. -/
def listenAction (ctx : Lifecycle.Ctx) (resolver : Option Resolver) (input : Json) :
    Lifecycle.Routine (Option Err) :=
  (Lifecycle.listen ctx).interp
    (resolving ((resolveActions resolver input).map (·.map Action.toLifecycle)))

/-! ### Malformed texts -/

/-- The texts that a modifier can read. -/
def Modifier.Accepts (raw : String) : Modifier → Prop
  | .natsTopic | .natsRequest | .natsRPC => True
  | .natsDurable | .natsMicro => (split raw ':').length = 4
  | .natsConsumer => (split raw ':').length = 3
  | .natsKV | .natsObject => ':' ∈ raw.toList

/-- The binding is one of this transport where `accepted` holds, and is invalid
elsewhere. -/
def Binding.NATSIff (b : Binding) (accepted : Prop) : Prop :=
  (b.isNATS ∧ accepted) ∨ ((∃ text, b = .invalid text) ∧ ¬ accepted)

theorem cut_snd_eq_none {s : String} {sep : Char} : (cut s sep).2 = none ↔ sep ∉ s.toList := by
  rw [← Splitting.splitFirst_eq_none, cut]
  cases Splitting.splitFirst sep s.toList <;> simp

theorem natsIff_splitBinding (count : ℕ) (expected raw : String)
    (bind : (ℕ → String) → Binding) (hbind : ∀ part, (bind part).isNATS) :
    (splitBinding count expected bind raw).NATSIff ((split raw ':').length = count) := by
  rw [splitBinding]
  by_cases hcount : (split raw ':').length = count
  · rw [if_neg (not_not.mpr hcount)]
    exact .inl ⟨hbind _, hcount⟩
  · rw [if_pos hcount]
    exact .inr ⟨⟨expected, rfl⟩, hcount⟩

theorem natsIff_cutBinding (expected raw : String) (bind : String → String → Binding)
    (hbind : ∀ first rest, (bind first rest).isNATS) :
    (cutBinding expected bind raw).NATSIff (':' ∈ raw.toList) := by
  have hcut : (cut raw ':').2 = none ↔ ':' ∉ raw.toList := cut_snd_eq_none
  rw [cutBinding]
  generalize cut raw ':' = parts at hcut
  obtain ⟨first, _ | rest⟩ := parts
  · exact .inr ⟨⟨expected, rfl⟩, hcut.mp rfl⟩
  · exact .inl ⟨hbind _ _, not_not.mp fun h => Option.some_ne_none _ (hcut.mpr h)⟩

/-- A modifier gives a binding of this transport for the texts it can read, and
an invalid one for all others. -/
theorem Modifier.natsIff_binding (m : Modifier) (raw : String) :
    (m.binding raw).NATSIff (m.Accepts raw) := by
  cases m with
  | natsTopic => exact .inl ⟨rfl, trivial⟩
  | natsRequest => exact .inl ⟨rfl, trivial⟩
  | natsRPC => exact .inl ⟨rfl, trivial⟩
  | natsKV =>
      rw [binding, Accepts]
      exact natsIff_cutBinding _ raw _ fun _ _ => rfl
  | natsObject =>
      rw [binding, Accepts]
      exact natsIff_cutBinding _ raw _ fun _ _ => rfl
  | natsDurable =>
      rw [binding, Accepts]
      exact natsIff_splitBinding 4 _ raw _ fun _ => rfl
  | natsConsumer =>
      rw [binding, Accepts]
      exact natsIff_splitBinding 3 _ raw _ fun _ => rfl
  | natsMicro =>
      rw [binding, Accepts]
      exact natsIff_splitBinding 4 _ raw _ fun _ => rfl

theorem Binding.not_isNATS_invalid (text : String) : ¬ (Binding.invalid text).isNATS :=
  Bool.false_ne_true

theorem Binding.NATSIff.isNATS_iff {b : Binding} {accepted : Prop} (h : b.NATSIff accepted) :
    b.isNATS ↔ accepted := by
  rcases h with ⟨hb, ha⟩ | ⟨⟨text, rfl⟩, ha⟩
  · exact iff_of_true hb ha
  · exact iff_of_false (not_isNATS_invalid text) ha

theorem Binding.NATSIff.invalid_iff {b : Binding} {accepted : Prop} (h : b.NATSIff accepted) :
    (∃ text, b = .invalid text) ↔ ¬ accepted := by
  rcases h with ⟨hb, ha⟩ | ⟨htext, ha⟩
  · refine iff_of_false ?_ (not_not.mpr ha)
    rintro ⟨text, rfl⟩
    exact not_isNATS_invalid text hb
  · exact iff_of_true htext ha

/-! ### Starting and refusing -/

section
variable {ctx : Lifecycle.Ctx} {resolver : Option Resolver} {input : Json}

/-- The call ends with an error before it has done anything. -/
def Refuses (p : Lifecycle.Routine (Option Err)) : Prop := ∃ err, p.result? = some (some err)

theorem listenAction_of_error {err : Err} (h : resolveActions resolver input = .error err) :
    listenAction ctx resolver input = pure (some err) := by
  unfold listenAction
  rw [h]
  rfl

/-- A call that does not refuse begins by mounting what was resolved. -/
theorem next?_listenAction {acts : List Action} (h : resolveActions resolver input = .ok acts) :
    (listenAction ctx resolver input).next? =
      some (.pool (.mount (acts.map Action.toLifecycle))) := by
  unfold listenAction
  rw [h]
  rfl

theorem refuses_iff :
    Refuses (listenAction ctx resolver input) ↔
      ∀ acts, resolveActions resolver input ≠ .ok acts := by
  constructor
  · rintro ⟨err, hret⟩ acts hok
    have hnext : (listenAction ctx resolver input).next? = _ := next?_listenAction hok
    cases hp : listenAction ctx resolver input with
    | ret a =>
        rw [hp] at hnext
        cases hnext
    | call o k =>
        rw [hp] at hret
        cases hret
  · intro hne
    cases hres : resolveActions resolver input with
    | error err => exact ⟨err, by rw [listenAction_of_error hres]; rfl⟩
    | ok acts => exact absurd hres (hne acts)

end

/-! ### Invalid bindings -/

/-- The action carries the binding of a malformed modifier. -/
def Action.CarriesInvalid (act : Action) : Prop := ∃ text, Binding.invalid text ∈ act.bindings

/-- An action with what its modifiers bind it to. -/
def Action.ofModifiers (name : String) (mods : List (Modifier × String)) : Action :=
  ⟨some name, true, mods.map fun m => m.1.binding m.2⟩

theorem Action.carriesInvalid_ofModifiers {name : String} {mods : List (Modifier × String)} :
    (ofModifiers name mods).CarriesInvalid ↔ ∃ m ∈ mods, ¬ m.1.Accepts m.2 := by
  simp only [CarriesInvalid, ofModifiers, List.mem_map,
    ← (Modifier.natsIff_binding _ _).invalid_iff]
  constructor
  · rintro ⟨text, m, hm, htext⟩
    exact ⟨m, hm, text, htext⟩
  · rintro ⟨m, hm, text, htext⟩
    exact ⟨text, m, hm, htext⟩

/-- Only an action that has another, well-formed modifier is found. -/
theorem Action.natsBound_ofModifiers {name : String} {mods : List (Modifier × String)} :
    (ofModifiers name mods).natsBound ↔ ∃ m ∈ mods, m.1.Accepts m.2 := by
  simp only [natsBound, ofModifiers, List.any_map, List.any_eq_true, Function.comp_apply,
    (Modifier.natsIff_binding _ _).isNATS_iff]

theorem findSome?_invalidText_eq_none {act : Action} :
    act.bindings.findSome? Binding.invalidText = none ↔ ¬ act.CarriesInvalid := by
  rw [List.findSome?_eq_none_iff]
  constructor
  · rintro h ⟨text, hmem⟩
    cases h _ hmem
  · intro h b hmem
    cases b with
    | invalid text => exact absurd ⟨text, hmem⟩ h
    | _ => rfl

theorem checkBindings_eq_none {acts : List Action} :
    checkBindings acts = none ↔ ∀ act ∈ acts, ¬ act.CarriesInvalid := by
  induction acts with
  | nil => simp [checkBindings]
  | cons act acts ih =>
      rw [checkBindings, List.forall_mem_cons, ← ih, ← findSome?_invalidText_eq_none]
      cases act.bindings.findSome? Binding.invalidText <;> simp

theorem resolveActions_eq_ok {r : Resolver} {input : Json} {acts : List Action} :
    resolveActions (some r) input = .ok acts ↔
      selectActions r (endpointsOf input) = .ok acts ∧ ∀ act ∈ acts, ¬ act.CarriesInvalid := by
  rw [← checkBindings_eq_none, resolveActions]
  cases hsel : selectActions r (endpointsOf input) with
  | error err => simp
  | ok selected =>
      dsimp only
      cases hcheck : checkBindings selected with
      | some err =>
          simp only [reduceCtorEq, Except.ok.injEq, false_iff, not_and]
          rintro rfl hnone
          rw [hcheck] at hnone
          cases hnone
      | none =>
          simp only [Except.ok.injEq, iff_self_and]
          rintro rfl
          exact hcheck

/-- The actions in a list that may have nil entries. -/
def Resolver.listed (r : Resolver) : List Action := (r.actions.getD []).filterMap id

theorem filterNATSBoundActions_eq (actions : List (Option Action)) :
    filterNATSBoundActions actions = (actions.filterMap id).filter Action.natsBound := by
  induction actions with
  | nil => rfl
  | cons act actions ih =>
      cases act with
      | none => exact ih
      | some act =>
          have hcons : (some act :: actions).filterMap id = act :: actions.filterMap id := rfl
          rw [filterNATSBoundActions, hcons, List.filter_cons, ih]

/-- The named actions are all selected. -/
theorem mem_of_resolveEndpoints {r : Resolver} {names : List String} {acts : List Action}
    (h : resolveEndpoints r names = .ok acts) {name : String} (hname : name ∈ names)
    {act : Action} (hact : r.action name = some act) : act ∈ acts := by
  induction names generalizing acts with
  | nil => cases hname
  | cons first names ih =>
      rw [resolveEndpoints] at h
      cases hfirst : r.action first with
      | none => simp [hfirst] at h
      | some found =>
          rw [hfirst] at h
          cases hrest : resolveEndpoints r names with
          | error err => simp [hrest] at h
          | ok rest =>
              rw [hrest] at h
              cases h
              rcases List.mem_cons.mp hname with rfl | hname
              · obtain rfl := Option.some.inj (hfirst.symm.trans hact)
                exact List.mem_cons_self
              · exact List.mem_cons_of_mem _ (ih hrest hname)

/-- Without a named endpoint the bound actions of the list are selected. -/
theorem selectActions_nil {r : Resolver} {acts : List Action} :
    selectActions r [] = .ok acts ↔ acts ≠ [] ∧ acts = r.listed.filter Action.natsBound := by
  rw [selectActions, if_neg (not_not.mpr rfl), filterNATSBoundActions_eq, Resolver.listed]
  cases ((r.actions.getD []).filterMap id).filter Action.natsBound with
  | nil => simp
  | cons act rest =>
      simp only [Except.ok.injEq, ne_eq]
      constructor
      · rintro rfl
        simp
      · rintro ⟨-, rfl⟩
        rfl

/-! ### Which malformed bindings are reported -/

/-- The actions that a call is asked to consider: those the request names, or all
that the resolver lists. -/
def Considered (resolver : Option Resolver) (input : Json) (act : Action) : Prop :=
  ∃ r, resolver = some r ∧
    if endpointsOf input ≠ [] then ∃ name ∈ endpointsOf input, r.action name = some act
    else act ∈ r.listed

/-- An invalid binding of an action to consider stops the call. -/
def Reports (ctx : Lifecycle.Ctx) (resolver : Option Resolver) (input : Json) : Prop :=
  (∃ act, Considered resolver input act ∧ act.CarriesInvalid) →
    Refuses (listenAction ctx resolver input)

/-- Among these actions there is one with an invalid binding and one bound to this
transport, but none is both. -/
def Overlooked (acts : List Action) : Prop :=
  (∃ act ∈ acts, act.CarriesInvalid) ∧ (∃ act ∈ acts, act.natsBound) ∧
    ∀ act ∈ acts, act.natsBound → ¬ act.CarriesInvalid

/-- In terms of the texts in a flow: each action is either malformed throughout or
well-formed throughout, and both kinds occur. -/
theorem overlooked_ofModifiers {flow : List (String × List (Modifier × String))} :
    Overlooked (flow.map fun act => .ofModifiers act.1 act.2) ↔
      (∃ act ∈ flow, ∃ m ∈ act.2, ¬ m.1.Accepts m.2) ∧
        (∃ act ∈ flow, ∃ m ∈ act.2, m.1.Accepts m.2) ∧
          ∀ act ∈ flow, (∃ m ∈ act.2, m.1.Accepts m.2) → ∀ m ∈ act.2, m.1.Accepts m.2 := by
  simp only [Overlooked, List.mem_map, exists_exists_and_eq_and,
    forall_exists_index, and_imp, forall_apply_eq_imp_iff₂, Action.carriesInvalid_ofModifiers,
    Action.natsBound_ofModifiers, not_exists, not_and, not_not]

theorem reports_of_named {ctx : Lifecycle.Ctx} {r : Resolver} {input : Json}
    (hnamed : endpointsOf input ≠ []) : Reports ctx (some r) input := by
  rintro ⟨act, ⟨r', hr, hact⟩, hinvalid⟩
  obtain rfl := Option.some.inj hr
  rw [if_pos hnamed] at hact
  obtain ⟨name, hname, hfound⟩ := hact
  rw [refuses_iff]
  intro acts hok
  obtain ⟨hsel, hvalid⟩ := resolveActions_eq_ok.mp hok
  rw [selectActions, if_pos hnamed] at hsel
  exact hvalid act (mem_of_resolveEndpoints hsel hname hfound) hinvalid

theorem reports_iff_of_listed {ctx : Lifecycle.Ctx} {r : Resolver} {input : Json}
    (hnone : endpointsOf input = []) :
    Reports ctx (some r) input ↔ ¬ Overlooked r.listed := by
  have hconsidered : ∀ act, Considered (some r) input act ↔ act ∈ r.listed := by
    intro act
    simp [Considered, hnone]
  unfold Reports
  rw [refuses_iff]
  simp only [hconsidered]
  constructor
  · rintro h ⟨⟨act, hact, hinvalid⟩, ⟨bound, hmem, hbound⟩, hdisjoint⟩
    refine h ⟨act, hact, hinvalid⟩ (r.listed.filter Action.natsBound) ?_
    rw [resolveActions_eq_ok, hnone, selectActions_nil]
    refine ⟨⟨List.ne_nil_of_mem (List.mem_filter.mpr ⟨hmem, hbound⟩), rfl⟩, fun a ha => ?_⟩
    exact hdisjoint a (List.mem_filter.mp ha).1 (List.mem_filter.mp ha).2
  · rintro hover hinvalid acts hok
    rw [resolveActions_eq_ok, hnone, selectActions_nil] at hok
    obtain ⟨⟨hne, rfl⟩, hvalid⟩ := hok
    obtain ⟨bound, hmem⟩ := List.exists_mem_of_ne_nil _ hne
    refine hover ⟨hinvalid, ⟨bound, (List.mem_filter.mp hmem).1, (List.mem_filter.mp hmem).2⟩,
      fun act hact hbound => hvalid act (List.mem_filter.mpr ⟨hact, hbound⟩)⟩

/-- A malformed modifier stops `nats.listen` unless its action was only listed,
has no other binding to this transport, and some other action is served. -/
theorem reports_iff (ctx : Lifecycle.Ctx) (resolver : Option Resolver) (input : Json) :
    Reports ctx resolver input ↔
      endpointsOf input ≠ [] ∨ ∀ r, resolver = some r → ¬ Overlooked r.listed := by
  cases resolver with
  | none =>
      refine iff_of_true ?_ (.inr fun r hr => by cases hr)
      rintro ⟨act, ⟨r, hr, -⟩, -⟩
      cases hr
  | some r =>
      by_cases hnamed : endpointsOf input = []
      · rw [reports_iff_of_listed hnamed]
        simp [hnamed]
      · exact iff_of_true (reports_of_named hnamed) (.inl hnamed)

/-! ### A worker that is not started -/

/-- The dead-letter subject was forgotten. -/
def ordersWorker : Action :=
  .ofModifiers "orders.process" [(.natsDurable, "ORDERS:orders.new:worker")]

def ordersNotice : Action := .ofModifiers "orders.notice" [(.natsTopic, "orders")]

def ordersResolver : Resolver where
  action name :=
    if name = "orders.process" then some ordersWorker
    else if name = "orders.notice" then some ordersNotice
    else none
  actions := some [some ordersWorker, some ordersNotice]

def namedRequest : Json := .obj [("endpoints", .arr [.str "orders.process"])]

theorem ordersWorker_carriesInvalid : ordersWorker.CarriesInvalid := by
  have hlength : (split "ORDERS:orders.new:worker" ':').length ≠ 4 := by decide
  exact Action.carriesInvalid_ofModifiers.mpr ⟨_, List.mem_cons_self, hlength⟩

/-- The worker is reported when it is named, and left out without a word when it
is not. -/
theorem ordersWorker_left_out :
    Refuses (listenAction [] (some ordersResolver) namedRequest) ∧
      (listenAction [] (some ordersResolver) (.obj [])).next? =
        some (.pool (.mount [⟨true, [.topic "orders" ""]⟩])) ∧
      ¬ Reports [] (some ordersResolver) (.obj []) := by
  have hlisted : resolveActions (some ordersResolver) (.obj []) = .ok [ordersNotice] := rfl
  have hnamed : endpointsOf namedRequest ≠ [] := List.cons_ne_nil _ _
  refine ⟨?_, next?_listenAction hlisted, fun h => ?_⟩
  · refine reports_of_named hnamed ⟨ordersWorker, ⟨ordersResolver, rfl, ?_⟩,
      ordersWorker_carriesInvalid⟩
    rw [if_pos hnamed]
    exact ⟨"orders.process", List.mem_cons_self, rfl⟩
  · have hrefuses := h ⟨ordersWorker, ⟨ordersResolver, rfl, List.mem_cons_self⟩,
      ordersWorker_carriesInvalid⟩
    exact refuses_iff.mp hrefuses _ hlisted

end TransportNats.Mount
