import TransportNats.Lifecycle.Operations
import TransportNats.Object.Events

/-!
Actions with everything their bindings say.

The lifecycle of a transport needs only what a binding opens. Here a binding has
all its fields, and there are two more kinds: the one by which a malformed
modifier of a flow is remembered, and the bindings of other transports.
-/

namespace TransportNats.Mount

structure ServiceBinding where
  service : String
  version : String
  description : String
  endpoint : String
  subject : String
  queueGroup : String := ""
  timeout : ℤ := 0
  metadata : List (String × String) := []

inductive Binding
  | topic (subject queueGroup : String)
  | request (subject : String) (timeout : ℤ)
  | durable (b : Delivery.DurableBinding)
  | consumer (b : Delivery.ConsumerBinding)
  | kv (bucket key : String)
  | object (b : Object.ObjectBinding)
  | service (b : ServiceBinding)
  /-- An `invalidBinding` of package `nexssflow`. -/
  | invalid (text : String)
  | foreign

/-- An `action.AnyAction`. `name` is that of its description, if it has one;
`executable` says whether it implements `action.Executable`. -/
structure Action where
  name : Option String
  executable : Bool
  bindings : List Binding

/-- What mounting makes of a binding: `invalid` and `foreign` ones are skipped. -/
def Binding.toLifecycle : Binding → Lifecycle.Binding
  | .topic subject queueGroup => .topic subject queueGroup
  | .request subject _ => .request subject
  | .durable b => .durable b
  | .consumer b => .consumer b
  | .kv bucket key => .kv bucket key
  | .object b => .object b.bucket
  | .service b => .service b.service b.endpoint
  | .invalid _ | .foreign => .unsupported

def Action.toLifecycle (act : Action) : Lifecycle.Action where
  executable := act.executable
  bindings := act.bindings.map Binding.toLifecycle

end TransportNats.Mount
