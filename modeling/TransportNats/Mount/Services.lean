import TransportNats.Library.Grouping
import TransportNats.Lifecycle.Runner
import TransportNats.Mount.Actions
import Mathlib.Logic.Basic

/-!
Mounting micro services.

`mountMicroServices` goes over the bindings of all actions once, collecting the
endpoints of each service, and then creates the services one after the other.
`AddService` may fail, and so may each `AddEndpoint`; a service that could not
get all its endpoints is stopped again, and nothing after it is mounted.
-/

namespace TransportNats.Mount

open Interleaving Program

/-! ### Endpoints and their groups -/

/-- A `microEndpoint`; its description is that of the action. -/
structure MicroEndpoint where
  binding : ServiceBinding
  exec : Action

def MicroEndpoint.service (ep : MicroEndpoint) : String := ep.binding.service

/-- The inner loop over the bindings of one action. -/
def groupBindings (act : Action) (g : Grouping String MicroEndpoint) :
    List Binding → Grouping String MicroEndpoint
  | [] => g
  | .service sb :: bindings => groupBindings act (g.add MicroEndpoint.service ⟨sb, act⟩) bindings
  | _ :: bindings => groupBindings act g bindings

/-- The outer loop, over the actions. -/
def groupActions (g : Grouping String MicroEndpoint) :
    List Action → Grouping String MicroEndpoint
  | [] => g
  | act :: actions =>
      if act.executable then groupActions (groupBindings act g act.bindings) actions
      else groupActions g actions

/-- The endpoint of an action's service binding. -/
def endpointOf (act : Action) : Binding → Option MicroEndpoint
  | .service sb => some ⟨sb, act⟩
  | _ => none

/-- Every service binding of every executable action. -/
def microEndpoints (actions : List Action) : List MicroEndpoint :=
  (actions.filter (·.executable)).flatMap fun act => act.bindings.filterMap (endpointOf act)

theorem microEndpoints_cons (act : Action) (actions : List Action) :
    microEndpoints (act :: actions) =
      (if act.executable then act.bindings.filterMap (endpointOf act) else []) ++
        microEndpoints actions := by
  cases h : act.executable <;> simp [microEndpoints, h]

theorem groupBindings_eq (act : Action) (g : Grouping String MicroEndpoint)
    (bindings : List Binding) :
    groupBindings act g bindings =
      (bindings.filterMap (endpointOf act)).foldl (Grouping.add MicroEndpoint.service) g := by
  induction bindings generalizing g with
  | nil => rfl
  | cons b bindings ih => cases b <;> exact ih _

theorem groupActions_eq (g : Grouping String MicroEndpoint) (actions : List Action) :
    groupActions g actions =
      (microEndpoints actions).foldl (Grouping.add MicroEndpoint.service) g := by
  induction actions generalizing g with
  | nil => rfl
  | cons act actions ih =>
      rw [groupActions, microEndpoints_cons, List.foldl_append]
      split
      · rw [ih, groupBindings_eq]
      · rw [ih, List.foldl_nil]

/-- The two loops group the endpoints by their service. -/
theorem groupActions_empty (actions : List Action) :
    groupActions .empty actions = .ofList MicroEndpoint.service (microEndpoints actions) :=
  groupActions_eq .empty actions

/-! ### The operations of the micro package -/

/-- A `micro.Config`. -/
structure ServiceConfig where
  name : String
  version : String
  description : String
  metadata : List (String × String)

inductive EndpointOpt
  | subject (s : String)
  | queueGroup (s : String)
  | metadata (md : List (String × String))

inductive MicroOp (Svc : Type)
  | addService (config : ServiceConfig)
  | addEndpoint (svc : Svc) (name : String) (handler : MicroEndpoint) (opts : List EndpointOpt)
  | stop (svc : Svc)
  | appendService (svc : Svc)

@[reducible] def MicroOp.Ret {Svc : Type} : MicroOp Svc → Type
  | .addService _ => Except Err Svc
  | .addEndpoint _ _ _ _ => Option Err
  | .stop _ => Option Err
  | .appendService _ => Unit

abbrev microSig (Svc : Type) : Signature := ⟨MicroOp Svc, MicroOp.Ret⟩

abbrev Mounter (Svc : Type) := Program (microSig Svc)

/-! ### Mounting -/

def ServiceBinding.config (b : ServiceBinding) : ServiceConfig where
  name := b.service
  version := b.version
  description := b.description
  metadata := b.metadata

def ServiceBinding.opts (b : ServiceBinding) : List EndpointOpt :=
  [.subject b.subject] ++ (if b.queueGroup ≠ "" then [.queueGroup b.queueGroup] else []) ++
    if b.metadata ≠ [] then [.metadata b.metadata] else []

/-- How `mountMicroServices` ends: it returns, or it reads the head of a group
that has none. -/
inductive Mounted
  | returned (err : Option Err)
  | panicked

section
variable {Svc : Type}

/-- `registerMicroEndpoint`; the handler runs the action of the endpoint. -/
def registerMicroEndpoint (svc : Svc) (ep : MicroEndpoint) : Mounter Svc (Option Err) :=
  .perform (S := microSig Svc) (.addEndpoint svc ep.binding.endpoint ep ep.binding.opts)

def registerMicroEndpoints (svc : Svc) : List MicroEndpoint → Mounter Svc (Option Err)
  | [] => return none
  | ep :: eps => do
      match ← registerMicroEndpoint svc ep with
      | some err => return some err
      | none => registerMicroEndpoints svc eps

/-- The loop over the services in their order. -/
def mountGroups (g : Grouping String MicroEndpoint) : List String → Mounter Svc Mounted
  | [] => return .returned none
  | name :: order =>
      match (g.groups name).getD [] with
      | [] => return .panicked
      | head :: eps => do
          match ← .perform (S := microSig Svc) (.addService head.binding.config) with
          | .error err => return .returned (some (mapError err))
          | .ok svc =>
              match ← registerMicroEndpoints svc (head :: eps) with
              | some err =>
                  let _ ← .perform (S := microSig Svc) (.stop svc)
                  return .returned (some err)
              | none =>
                  .perform (S := microSig Svc) (.appendService svc)
                  mountGroups g order

def mountMicroServices (Svc : Type) (actions : List Action) : Mounter Svc Mounted :=
  let g := groupActions .empty actions
  mountGroups g g.order

end

/-! ### A run with given failures -/

/-- An endpoint as a service has it. -/
structure Registered where
  name : String
  handler : MicroEndpoint
  opts : List EndpointOpt

structure Service where
  config : ServiceConfig
  endpoints : List Registered
  /-- Whether `Stop` was called. -/
  stopped : Bool

/-- The services that were created, and those of them in `t.microServices`. A
service is known by its place among those created. -/
structure State where
  services : List Service
  microServices : List ℕ
  calls : ℕ

/-- Which calls fail, by their number. -/
structure Faults where
  addService : ℕ → Option Err
  addEndpoint : ℕ → Option Err
  stop : ℕ → Option Err

def exec (F : Faults) (s : State) : (o : MicroOp ℕ) → State × o.Ret
  | .addService config =>
      match F.addService s.calls with
      | some err => ({ s with calls := s.calls + 1 }, .error err)
      | none =>
          ({ s with services := s.services ++ [⟨config, [], false⟩], calls := s.calls + 1 },
            .ok s.services.length)
  | .addEndpoint svc name handler opts =>
      match F.addEndpoint s.calls with
      | some err => ({ s with calls := s.calls + 1 }, some err)
      | none =>
          ({ s with
              services := s.services.modify svc fun service =>
                { service with endpoints := service.endpoints ++ [⟨name, handler, opts⟩] }
              calls := s.calls + 1 }, none)
  | .stop svc =>
      ({ s with
          services := s.services.modify svc fun service => { service with stopped := true }
          calls := s.calls + 1 }, F.stop s.calls)
  | .appendService svc => ({ s with microServices := s.microServices ++ [svc] }, ())

/-- The endpoint as it is registered. -/
def MicroEndpoint.registered (ep : MicroEndpoint) : Registered :=
  ⟨ep.binding.endpoint, ep, ep.binding.opts⟩

/-- The service of a group when some of its endpoints have been registered. -/
def serviceWith (head : MicroEndpoint) (eps : List MicroEndpoint) (stopped : Bool) : Service :=
  ⟨head.binding.config, eps.map MicroEndpoint.registered, stopped⟩

theorem modify_append_singleton {α : Type} (pre : List α) (a : α) (f : α → α) :
    (pre ++ [a]).modify pre.length f = pre ++ [f a] := by
  induction pre with
  | nil => rfl
  | cons b pre ih =>
      change b :: (pre ++ [a]).modify pre.length f = _
      rw [ih]
      rfl

/-- Registering stops at the first endpoint that is refused. -/
theorem alone_registerMicroEndpoints (F : Faults) (eps : List MicroEndpoint) {s : State}
    {pre : List Service} {head : MicroEndpoint} {before : List MicroEndpoint}
    (hs : s.services = pre ++ [serviceWith head before false]) :
    ∃ done calls r,
      (registerMicroEndpoints pre.length eps).alone (exec F) s =
          ({ s with
              services := pre ++ [serviceWith head (before ++ done) false], calls := calls }, r) ∧
        done <+: eps ∧ (r = none → done = eps) := by
  induction eps generalizing s before with
  | nil => exact ⟨[], s.calls, none, by simp [registerMicroEndpoints, ← hs], by simp, by simp⟩
  | cons ep eps ih =>
      rw [registerMicroEndpoints, registerMicroEndpoint, alone_perform_bind]
      cases hf : F.addEndpoint s.calls with
      | some err =>
          refine ⟨[], s.calls + 1, some err, ?_, by simp, by simp⟩
          simp [exec, hf, ← hs]
      | none =>
          have hexec : exec F s (.addEndpoint pre.length ep.binding.endpoint ep ep.binding.opts) =
              ({ s with
                  services := pre ++ [serviceWith head (before ++ [ep]) false],
                  calls := s.calls + 1 }, none) := by
            simp only [exec, hf, hs, modify_append_singleton]
            simp [serviceWith, MicroEndpoint.registered]
          rw [hexec]
          obtain ⟨done, calls, r, hrun, hdone, hr⟩ :=
            ih (s := { s with
              services := pre ++ [serviceWith head (before ++ [ep]) false],
              calls := s.calls + 1 }) rfl
          refine ⟨ep :: done, calls, r, ?_, ?_, fun h => by rw [hr h]⟩
          · simpa using hrun
          · exact (List.prefix_append_right_inj [ep]).mpr hdone

/-- What mounting the services of `order` comes to, when `n` services exist
before: which services are created, which of them are mounted, and the error. -/
inductive Outcome (group : String → List MicroEndpoint) :
    ℕ → List String → List Service → List ℕ → Option Err → Prop
  | finished (n : ℕ) : Outcome group n [] [] [] none
  | refused (n : ℕ) (name : String) (order : List String) (err : Err) :
      Outcome group n (name :: order) [] [] (some err)
  | broken {name : String} {head : MicroEndpoint} {eps done : List MicroEndpoint} (n : ℕ)
      (order : List String) (err : Err) (hgroup : group name = head :: eps)
      (hdone : done <+: head :: eps) :
      Outcome group n (name :: order) [serviceWith head done true] [] (some err)
  | mounted {name : String} {head : MicroEndpoint} {eps : List MicroEndpoint} {n : ℕ}
      {order : List String} {services : List Service} {ids : List ℕ} {err : Option Err}
      (hgroup : group name = head :: eps) (hrest : Outcome group (n + 1) order services ids err) :
      Outcome group n (name :: order) (serviceWith head (head :: eps) false :: services)
        (n :: ids) err

/-- One round of the loop over the services: the service is refused, or created
and stopped with some of its endpoints, or mounted with all of them. -/
theorem alone_mountGroups_cons (F : Faults) {g : Grouping String MicroEndpoint} {name : String}
    {head : MicroEndpoint} {eps : List MicroEndpoint}
    (hgroup : (g.groups name).getD [] = head :: eps) (order : List String) (s : State) :
    (∃ calls err, (mountGroups g (name :: order)).alone (exec F) s =
      (⟨s.services, s.microServices, calls⟩, .returned (some err))) ∨
    (∃ done calls err, done <+: head :: eps ∧
      (mountGroups g (name :: order)).alone (exec F) s =
        (⟨s.services ++ [serviceWith head done true], s.microServices, calls⟩,
          .returned (some err))) ∨
    ∃ calls, (mountGroups g (name :: order)).alone (exec F) s =
      (mountGroups g order).alone (exec F)
        ⟨s.services ++ [serviceWith head (head :: eps) false],
          s.microServices ++ [s.services.length], calls⟩ := by
  rw [mountGroups, hgroup]
  dsimp only
  rw [alone_perform_bind]
  cases hf : F.addService s.calls with
  | some err =>
      refine .inl ⟨s.calls + 1, mapError err, ?_⟩
      simp [exec, hf]
  | none =>
      have hexec : exec F s (.addService head.binding.config) =
          ({ s with
              services := s.services ++ [serviceWith head [] false],
              calls := s.calls + 1 }, .ok s.services.length) := by
        simp [exec, hf, serviceWith]
      rw [hexec]
      dsimp only
      have hs : State.services { s with
          services := s.services ++ [serviceWith head [] false],
          calls := s.calls + 1 } = s.services ++ [serviceWith head [] false] := rfl
      obtain ⟨done, calls, r, hrun, hdone, hr⟩ :=
        alone_registerMicroEndpoints F (head :: eps) hs
      rw [alone_bind, hrun]
      cases r with
      | some err =>
          refine .inr (.inl ⟨done, calls + 1, err, hdone, ?_⟩)
          dsimp only
          rw [alone_perform_bind]
          simp [exec, modify_append_singleton, serviceWith]
      | none =>
          obtain rfl := hr rfl
          refine .inr (.inr ⟨calls, ?_⟩)
          dsimp only
          rw [alone_perform_bind]
          simp [exec]

/-- The loop over the services has one of these outcomes if no group is empty. -/
theorem alone_mountGroups (F : Faults) {g : Grouping String MicroEndpoint}
    {group : String → List MicroEndpoint} {order : List String}
    (hg : ∀ name ∈ order, (g.groups name).getD [] = group name)
    (hne : ∀ name ∈ order, group name ≠ []) (s : State) :
    ∃ services ids calls err, Outcome group s.services.length order services ids err ∧
      (mountGroups g order).alone (exec F) s =
        (⟨s.services ++ services, s.microServices ++ ids, calls⟩, .returned err) := by
  induction order generalizing s with
  | nil => exact ⟨[], [], s.calls, none, .finished _, by simp [mountGroups]⟩
  | cons name order ih =>
      obtain ⟨head, eps, hgroup⟩ := List.exists_cons_of_ne_nil (hne name List.mem_cons_self)
      have hhead := (hg name List.mem_cons_self).trans hgroup
      rcases alone_mountGroups_cons F hhead order s with ⟨calls, err, hrun⟩ |
        ⟨done, calls, err, hdone, hrun⟩ | ⟨calls, hrun⟩
      · exact ⟨[], [], calls, some err, .refused _ _ _ _, by simp [hrun]⟩
      · exact ⟨[serviceWith head done true], [], calls, some err,
          .broken _ _ _ hgroup hdone, by simp [hrun]⟩
      · obtain ⟨services, ids, calls', err, hout, hrest⟩ :=
          ih (fun n hn => hg n (List.mem_cons_of_mem _ hn))
            (fun n hn => hne n (List.mem_cons_of_mem _ hn))
            ⟨s.services ++ [serviceWith head (head :: eps) false],
              s.microServices ++ [s.services.length], calls⟩
        refine ⟨serviceWith head (head :: eps) false :: services,
          s.services.length :: ids, calls', err, .mounted hgroup ?_, ?_⟩
        · simpa using hout
        · rw [hrun, hrest]
          simp

namespace Outcome

variable {group : String → List MicroEndpoint} {n : ℕ} {order : List String}
  {services : List Service} {ids : List ℕ} {err : Option Err}

/-- The services created are the first ones of the order. -/
theorem names (h : Outcome group n order services ids err)
    (hname : ∀ name ∈ order, ∀ ep ∈ group name, ep.service = name) :
    services.map (·.config.name) <+: order := by
  induction h with
  | finished => exact List.prefix_rfl
  | refused => exact List.nil_prefix
  | @broken name head eps done n order err hgroup hdone =>
      have hhead : head.binding.service = name :=
        hname name List.mem_cons_self head (by simp [hgroup])
      simp [serviceWith, ServiceBinding.config, hhead]
  | @mounted name head eps n order services ids err hgroup hrest ih =>
      have hhead : head.binding.service = name :=
        hname name List.mem_cons_self head (by simp [hgroup])
      have hrest := ih fun n hn => hname n (List.mem_cons_of_mem _ hn)
      simpa [serviceWith, ServiceBinding.config, hhead] using hrest

/-- A service has endpoints of its group only, from the first one on. -/
theorem endpoints (h : Outcome group n order services ids err)
    (hname : ∀ name ∈ order, ∀ ep ∈ group name, ep.service = name) :
    ∀ service ∈ services,
      service.endpoints <+: (group service.config.name).map MicroEndpoint.registered := by
  induction h with
  | finished => simp
  | refused => simp
  | @broken name head eps done n order err hgroup hdone =>
      have hhead : head.binding.service = name :=
        hname name List.mem_cons_self head (by simp [hgroup])
      intro service hmem
      obtain rfl := List.mem_singleton.mp hmem
      simp only [serviceWith, ServiceBinding.config, hhead, hgroup]
      exact hdone.map _
  | @mounted name head eps n order services ids err hgroup hrest ih =>
      have hhead : head.binding.service = name :=
        hname name List.mem_cons_self head (by simp [hgroup])
      intro service hmem
      rcases List.mem_cons.mp hmem with rfl | hmem
      · simp only [serviceWith, ServiceBinding.config, hhead, hgroup]
        exact List.prefix_rfl
      · exact ih (fun n hn => hname n (List.mem_cons_of_mem _ hn)) service hmem

/-- Without an error every endpoint of every group is registered. -/
theorem complete (h : Outcome group n order services ids err) (herr : err = none) :
    services.flatMap (·.endpoints) =
      order.flatMap fun name => (group name).map MicroEndpoint.registered := by
  induction h with
  | finished => rfl
  | refused => cases herr
  | broken => cases herr
  | mounted hgroup hrest ih =>
      rw [List.flatMap_cons, List.flatMap_cons, ih herr, hgroup]
      rfl

/-- A service is mounted unless it was stopped. -/
theorem mem_ids_iff (h : Outcome group n order services ids err) :
    ∀ i service, services[i]? = some service → (n + i ∈ ids ↔ service.stopped = false) := by
  induction h with
  | finished => simp
  | refused => simp
  | broken =>
      intro i service hi
      obtain ⟨hlt, rfl⟩ := List.getElem?_eq_some_iff.mp hi
      simp [serviceWith]
  | mounted hgroup hrest ih =>
      intro i service hi
      cases i with
      | zero =>
          obtain rfl := Option.some.inj hi
          simp [serviceWith]
      | succ i =>
          have hiff := ih i service hi
          rw [← hiff, List.mem_cons]
          constructor
          · rintro (heq | hmem)
            · omega
            · rwa [Nat.add_assoc, Nat.add_comm 1 i]
          · intro hmem
            rw [Nat.add_assoc, Nat.add_comm 1 i] at hmem
            exact .inr hmem

end Outcome

/-! ### Nothing lost, nothing doubled -/

/-- The services created between two states. -/
def State.since (s s' : State) : List Service := s'.services.drop s.services.length

/-- What mounting the services of `actions` owes, from `s` to `s'`. -/
structure Accounted (actions : List Action) (s s' : State) (err : Option Err) : Prop where
  created : (s.since s').map (·.config.name) <+:
    ((microEndpoints actions).map MicroEndpoint.service).eraseDups
  once : ((s.since s').map (·.config.name)).Nodup
  within : ∀ service ∈ s.since s', service.endpoints <+:
    ((microEndpoints actions).filter fun ep => ep.service = service.config.name).map
      MicroEndpoint.registered
  complete : err = none → ((s.since s').flatMap (·.endpoints)).Perm
    ((microEndpoints actions).map MicroEndpoint.registered)
  settled : ∀ i service, s.services.length ≤ i → s'.services[i]? = some service →
    (i ∈ s'.microServices ↔ ¬ service.stopped)

/-- Whichever calls fail, `mountMicroServices` returns and accounts for every
service it has created. -/
theorem mountMicroServices_accounted (F : Faults) (actions : List Action) (s : State)
    (hs : ∀ i ∈ s.microServices, i < s.services.length) :
    ∃ s' err, (mountMicroServices ℕ actions).alone (exec F) s = (s', .returned err) ∧
      Accounted actions s s' err := by
  obtain ⟨services, ids, calls, err, hout, hrun⟩ := alone_mountGroups F
    (Grouping.getD_groups (microEndpoints actions)) (fun name hn => Grouping.fiber_ne_nil hn) s
  have hname : ∀ name ∈ (Grouping.ofList MicroEndpoint.service (microEndpoints actions)).order,
      ∀ ep ∈ Grouping.fiber MicroEndpoint.service (microEndpoints actions) name,
        ep.service = name := fun _ _ _ hep => (Grouping.mem_fiber.mp hep).2
  have hsince : s.since ⟨s.services ++ services, s.microServices ++ ids, calls⟩ = services := by
    simp [State.since]
  refine ⟨⟨s.services ++ services, s.microServices ++ ids, calls⟩, err, ?_,
    ⟨?_, ?_, ?_, ?_, ?_⟩⟩
  · rw [mountMicroServices, groupActions_empty]
    exact hrun
  · rw [hsince, ← Grouping.order_ofList]
    exact hout.names hname
  · rw [hsince]
    exact (hout.names hname).sublist.nodup (Grouping.nodup_order_ofList _)
  · rw [hsince]
    exact hout.endpoints hname
  · intro herr
    rw [hsince, hout.complete herr, ← List.map_flatMap]
    exact (Grouping.flatMap_order_perm _).map _
  · intro i service hi hget
    obtain ⟨j, rfl⟩ := Nat.exists_eq_add_of_le hi
    have hget' : services[j]? = some service := by
      rwa [List.getElem?_append_right (Nat.le_add_right _ _), Nat.add_sub_cancel_left] at hget
    have hold : s.services.length + j ∉ s.microServices := fun hmem =>
      absurd (hs _ hmem) (by omega)
    rw [List.mem_append, or_iff_right hold, hout.mem_ids_iff j service hget',
      Bool.not_eq_true]

/-- An action in two services. -/
def ordersAction : Action :=
  ⟨some "orders.get", true,
    [.service ⟨"orders", "1.0.0", "", "get", "orders.get", "", 0, []⟩, .topic "orders" "",
      .service ⟨"audit", "1.0.0", "", "get", "audit.get", "", 0, []⟩,
      .service ⟨"orders", "1.0.0", "", "list", "orders.list", "", 0, []⟩]⟩

/-- The second endpoint of the first service is refused. -/
theorem mountMicroServices_accounted_refused :
    ∃ s' err, (mountMicroServices ℕ [ordersAction]).alone
        (exec ⟨fun _ => none, fun n => if n = 2 then some (.other "duplicate" none) else none,
          fun _ => none⟩) ⟨[], [], 0⟩ = (s', .returned err) ∧
      Accounted [ordersAction] ⟨[], [], 0⟩ s' err :=
  mountMicroServices_accounted _ [ordersAction] ⟨[], [], 0⟩ (by simp)

/-! ### The lifecycle's view -/

/-- The operations of the micro package as the lifecycle of a transport has them. -/
def toRoutine : (o : MicroOp Lifecycle.Resource) → Lifecycle.Routine o.Ret
  | .addService config => Lifecycle.pool (.openResource (.addService config.name))
  | .addEndpoint svc name _ _ => Lifecycle.external (.addEndpoint svc name)
  | .stop svc => do
      Lifecycle.pool (.release svc)
      return none
  | .appendService svc => Lifecycle.pool (.appendService svc)

/-- The error that is returned. -/
def Mounted.err : Mounted → Option Err
  | .returned err => err
  | .panicked => none

theorem interp_registerMicroEndpoints (svc : Lifecycle.Resource) (eps : List MicroEndpoint) :
    (registerMicroEndpoints svc eps).interp toRoutine =
      Lifecycle.registerEndpoints svc (eps.map (·.binding.endpoint)) := by
  induction eps with
  | nil => rfl
  | cons ep eps ih =>
      rw [registerMicroEndpoints, registerMicroEndpoint, interp_perform_bind, List.map_cons,
        Lifecycle.registerEndpoints]
      refine congrArg _ (funext fun r => ?_)
      cases r with
      | some err => rfl
      | none => exact ih

theorem interp_mountGroups {g : Grouping String MicroEndpoint}
    {group : String → List MicroEndpoint} {order : List String}
    (hg : ∀ name ∈ order, (g.groups name).getD [] = group name)
    (hne : ∀ name ∈ order, group name ≠ [])
    (hname : ∀ name ∈ order, ∀ ep ∈ group name, ep.service = name) :
    ((mountGroups g order).interp toRoutine >>= fun r => pure r.err) =
      Lifecycle.mountServices
        (order.map fun name => (name, (group name).map (·.binding.endpoint))) := by
  induction order with
  | nil => rfl
  | cons name order ih =>
      rw [mountGroups, hg name List.mem_cons_self]
      cases hgroup : group name with
      | nil => exact absurd hgroup (hne name List.mem_cons_self)
      | cons head eps =>
          obtain rfl : head.service = name :=
            hname name List.mem_cons_self head (by simp [hgroup])
          have hrest := ih (fun n hn => hg n (List.mem_cons_of_mem _ hn))
            (fun n hn => hne n (List.mem_cons_of_mem _ hn))
            (fun n hn => hname n (List.mem_cons_of_mem _ hn))
          rw [List.map_cons, Lifecycle.mountServices, hgroup]
          dsimp only
          rw [interp_perform_bind, Program.bind_assoc]
          refine congrArg _ (funext fun r => ?_)
          cases r with
          | error err => rfl
          | ok svc =>
              dsimp only
              rw [interp_bind, Program.bind_assoc, interp_registerMicroEndpoints]
              refine congrArg _ (funext fun r => ?_)
              cases r with
              | some err => rfl
              | none =>
                  dsimp only
                  rw [interp_perform_bind, Program.bind_assoc, hrest]
                  rfl

/-- The service and the endpoint of a binding of the lifecycle. -/
def servicePair : Lifecycle.Binding → Option (String × String)
  | .service name endpoint => some (name, endpoint)
  | _ => none

def MicroEndpoint.pair (ep : MicroEndpoint) : String × String := (ep.service, ep.binding.endpoint)

theorem filterMap_servicePair (act : Action) (bindings : List Binding) :
    (bindings.map Binding.toLifecycle).filterMap servicePair =
      (bindings.filterMap (endpointOf act)).map MicroEndpoint.pair := by
  induction bindings with
  | nil => rfl
  | cons b bindings ih =>
      cases b with
      | service sb => exact congrArg _ ih
      | _ => exact ih

/-- What the lifecycle groups are the endpoints. -/
theorem filterMap_executableBindings (actions : List Action) :
    (Lifecycle.executableBindings (actions.map Action.toLifecycle)).filterMap servicePair =
      (microEndpoints actions).map MicroEndpoint.pair := by
  induction actions with
  | nil => rfl
  | cons act actions ih =>
      rw [microEndpoints_cons, List.map_append, ← ih]
      cases hexec : act.executable <;>
        simp [Lifecycle.executableBindings, Action.toLifecycle, hexec, filterMap_servicePair act]

theorem serviceGroups_toLifecycle (actions : List Action) :
    Lifecycle.serviceGroups (actions.map Action.toLifecycle) =
      (Grouping.ofList MicroEndpoint.service (microEndpoints actions)).order.map fun name =>
        (name, (Grouping.fiber MicroEndpoint.service (microEndpoints actions) name).map
          (·.binding.endpoint)) := by
  have hpairs := filterMap_executableBindings actions
  change (((Lifecycle.executableBindings _).filterMap servicePair).map _).eraseDups.map
    (fun name => (name, (((Lifecycle.executableBindings _).filterMap servicePair).filter _).map _))
    = _
  rw [hpairs, Grouping.order_ofList, List.map_map]
  refine List.map_congr_left fun name _ => ?_
  rw [List.filter_map, List.map_map]
  rfl

/-- Mounting in the lifecycle of a transport is this program, seen through what
it opens and releases. -/
theorem mountServices_eq_interp (actions : List Action) :
    Lifecycle.mountServices (Lifecycle.serviceGroups (actions.map Action.toLifecycle)) =
      ((mountMicroServices Lifecycle.Resource actions).interp toRoutine >>= fun r =>
        pure r.err) := by
  rw [mountMicroServices, groupActions_empty, serviceGroups_toLifecycle]
  refine (interp_mountGroups (Grouping.getD_groups (microEndpoints actions))
    (fun name hn => ?_) (fun name hn ep hep => ?_)).symm
  · exact Grouping.fiber_ne_nil hn
  · exact (Grouping.mem_fiber.mp hep).2

end TransportNats.Mount
