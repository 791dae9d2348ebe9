import Mathlib.Logic.Function.Basic
import TransportNats.Go

/-!
Identifiers that travel with a message.

The caller's context has a request, an execution, a trace and a span identifier,
each possibly empty. `injectContextHeaders` writes those it has into the headers
of a message, and whoever serves the message puts what it finds there into the
context of the action. There are two readers. `extractContextHeaders` takes each
identifier by itself; the endpoint of a micro service reads three of them, the
span only where it finds a trace, and the execution not at all.
-/

namespace TransportNats.Identifiers

inductive Ident
  | request | execution | trace | span
  deriving DecidableEq

/-! ### Headers -/

/-- A `nats.Header` that is not nil, as the list of its entries. -/
abbrev Header := List (String × List String)

namespace Header

/-- `Header.Get`: the first value, or the empty string. -/
def get (h : Header) (key : String) : String :=
  match h.find? fun kv => kv.1 = key with
  | some (_, value :: _) => value
  | _ => ""

/-- `Header.Set`. -/
def set (h : Header) (key value : String) : Header :=
  (key, [value]) :: h.filter fun kv => kv.1 ≠ key

@[simp] theorem get_set_self (h : Header) (key value : String) :
    (h.set key value).get key = value := by
  simp [get, set]

theorem get_set_of_ne (h : Header) {key key' : String} (value : String) (hne : key' ≠ key) :
    (h.set key value).get key' = h.get key' := by
  have hfind : (h.filter fun kv => kv.1 ≠ key).find? (fun kv => kv.1 = key') =
      h.find? fun kv => kv.1 = key' := by
    rw [List.find?_filter]
    congr 1
    funext kv
    by_cases hk : kv.1 = key' <;> simp [hk, hne]
  unfold get set
  rw [List.find?_cons_of_neg (by simpa using hne.symm), hfind]

end Header

/-! ### Contexts -/

/-- Contexts, and what the packages `xctx`, `action`, `transport` and `identity`
do with their identifiers. -/
structure Contexts where
  Ctx : Type
  background : Ctx
  /-- `xctx.RequestIDFrom`, `ExecutionIDFrom`, `TraceIDFrom` and `SpanIDFrom`. -/
  idFrom : Ident → Ctx → String
  /-- `xctx.WithRequestID`, `WithExecutionID`, `WithTraceID` and `WithSpanID`. -/
  withID : Ident → Ctx → String → Ctx
  /-- `action.WithTraceContext`. -/
  withTraceContext : Ctx → String → String → Ctx
  /-- `context.WithTimeout`. -/
  withTimeout : Ctx → ℤ → Ctx
  /-- `transport.HeaderRequestID`, `HeaderExecutionID`, `HeaderTraceID` and
  `HeaderSpanID`. -/
  header : Ident → String
  /-- `identity.HeaderExecutionID`. -/
  identityHeader : String
  idFrom_background : ∀ i, idFrom i background = ""
  idFrom_withID : ∀ i j c id, idFrom j (withID i c id) = if j = i then id else idFrom j c
  idFrom_withTraceContext : ∀ j c traceID spanID,
    idFrom j (withTraceContext c traceID spanID) =
      if j = .trace then traceID else if j = .span then spanID else idFrom j c
  idFrom_withTimeout : ∀ j c d, idFrom j (withTimeout c d) = idFrom j c
  header_injective : Function.Injective header
  identityHeader_eq : identityHeader = header .execution

/-- An `xctx.RequestScope`. -/
structure RequestScope where
  endpoint : String := ""
  requestID : String := ""
  traceID : String := ""
  spanID : String := ""

/-- The parts of a message that are read here; the header may be nil. -/
structure Msg where
  subject : String
  header : Option Header

/-- `Header.Get` on a header that may be nil. -/
def Msg.get (msg : Msg) (key : String) : String :=
  match msg.header with
  | none => ""
  | some h => h.get key

variable (K : Contexts)

/-! ### The writer -/

/-- One `if` of `injectContextHeaders`. -/
def setID (i : Ident) (id : String) (h : Header) : Header :=
  if id ≠ "" then h.set (K.header i) id else h

def injectContextHeaders (ctx : K.Ctx) (msg : Msg) : Msg :=
  let reqID := K.idFrom .request ctx
  let execID := K.idFrom .execution ctx
  let traceID := K.idFrom .trace ctx
  let spanID := K.idFrom .span ctx
  if reqID = "" ∧ execID = "" ∧ traceID = "" ∧ spanID = "" then msg
  else
    let h := msg.header.getD []
    let h := setID K .request reqID h
    let h := setID K .execution execID h
    let h := setID K .trace traceID h
    let h := setID K .span spanID h
    { msg with header := some h }

/-! ### The readers -/

def extractContextHeaders (ctx : K.Ctx) (msg : Msg) (scope : RequestScope) :
    K.Ctx × RequestScope :=
  if msg.header.isNone then (ctx, scope)
  else
    let reqID := msg.get (K.header .request)
    let scope := if reqID ≠ "" then { scope with requestID := reqID } else scope
    let ctx := if reqID ≠ "" then K.withID .request ctx reqID else ctx
    let execID := msg.get K.identityHeader
    let ctx := if execID ≠ "" then K.withID .execution ctx execID else ctx
    let traceID := msg.get (K.header .trace)
    let scope := if traceID ≠ "" then { scope with traceID := traceID } else scope
    let ctx := if traceID ≠ "" then K.withID .trace ctx traceID else ctx
    let spanID := msg.get (K.header .span)
    let scope := if spanID ≠ "" then { scope with spanID := spanID } else scope
    let ctx := if spanID ≠ "" then K.withID .span ctx spanID else ctx
    (ctx, scope)

/-- The beginning of the handler of `registerMicroEndpoint`. -/
def microContext (ctx : K.Ctx) (msg : Msg) (scope : RequestScope) (timeout : ℤ) :
    K.Ctx × RequestScope :=
  let reqID := msg.get (K.header .request)
  let scope := if reqID ≠ "" then { scope with requestID := reqID } else scope
  let ctx := if reqID ≠ "" then K.withID .request ctx reqID else ctx
  let traceID := msg.get (K.header .trace)
  let ctx :=
    if traceID ≠ "" then K.withTraceContext ctx traceID (msg.get (K.header .span)) else ctx
  let ctx := if 0 < timeout then K.withTimeout ctx timeout else ctx
  (ctx, scope)

/-- What serves a message; a request binding is served as a topic. -/
inductive Path
  | topic | durable | consumer
  | micro (service endpoint : String) (timeout : ℤ)

/-- The context and the scope with which the action is run, from those that
`xctx.NewScope` gives. -/
def Path.serve (ctx : K.Ctx) (msg : Msg) (scope : RequestScope) : Path → K.Ctx × RequestScope
  | .topic => extractContextHeaders K ctx msg { scope with endpoint := "nats." ++ msg.subject }
  | .durable =>
      extractContextHeaders K ctx msg { scope with endpoint := "nats.durable." ++ msg.subject }
  | .consumer =>
      extractContextHeaders K ctx msg { scope with endpoint := "nats.consumer." ++ msg.subject }
  | .micro service endpoint timeout =>
      microContext K ctx msg
        { scope with endpoint := "nats.micro." ++ service ++ "." ++ endpoint } timeout

/-! ### What arrives -/

variable {K}

theorem get_setID (i j : Ident) (id : String) (h : Header) :
    (setID K i id h).get (K.header j) = if j = i ∧ id ≠ "" then id else h.get (K.header j) := by
  unfold setID
  by_cases hid : id = ""
  · simp [hid]
  · by_cases hj : j = i
    · simp [hid, hj]
    · rw [if_pos hid, if_neg fun h => hj h.1,
        Header.get_set_of_ne h id fun heq => hj (K.header_injective heq)]

theorem get_getD (msg : Msg) (key : String) : (msg.header.getD []).get key = msg.get key := by
  unfold Msg.get
  cases msg.header <;> rfl

/-- An identifier that the caller has is in the headers, and no other header is
touched. -/
theorem get_injectContextHeaders (ctx : K.Ctx) (msg : Msg) (i : Ident) :
    (injectContextHeaders K ctx msg).get (K.header i) =
      if K.idFrom i ctx ≠ "" then K.idFrom i ctx else msg.get (K.header i) := by
  unfold injectContextHeaders
  dsimp only
  split
  · rename_i hnone
    obtain ⟨hreq, hexec, htrace, hspan⟩ := hnone
    cases i <;> simp [hreq, hexec, htrace, hspan]
  · simp only [Msg.get, get_setID, get_getD]
    cases i <;> simp

theorem isSome_injectContextHeaders (ctx : K.Ctx) (msg : Msg) {i : Ident}
    (hi : K.idFrom i ctx ≠ "") : (injectContextHeaders K ctx msg).header.isNone = false := by
  unfold injectContextHeaders
  dsimp only
  split
  · rename_i hnone
    obtain ⟨hreq, hexec, htrace, hspan⟩ := hnone
    cases i <;> contradiction
  · rfl

/-- One `if` of a reader. -/
theorem idFrom_ite (i j : Ident) (ctx : K.Ctx) (id : String) :
    K.idFrom j (if id ≠ "" then K.withID i ctx id else ctx) =
      if j = i ∧ id ≠ "" then id else K.idFrom j ctx := by
  by_cases hid : id = ""
  · simp [hid]
  · by_cases hj : j = i <;> simp [hid, hj, K.idFrom_withID]

/-- The first reader takes each identifier by itself. -/
theorem idFrom_extractContextHeaders (ctx : K.Ctx) (msg : Msg) (scope : RequestScope) (j : Ident)
    (hmsg : msg.header.isNone = false) (hj : msg.get (K.header j) ≠ "") :
    K.idFrom j (extractContextHeaders K ctx msg scope).1 = msg.get (K.header j) := by
  unfold extractContextHeaders
  rw [hmsg, if_neg Bool.false_ne_true, K.identityHeader_eq]
  simp only [idFrom_ite]
  cases j <;> simp [hj]

/-- The identifiers in the context of an endpoint of a micro service. -/
def microID (ctx : K.Ctx) (msg : Msg) : Ident → String
  | .request =>
      if msg.get (K.header .request) ≠ "" then msg.get (K.header .request)
      else K.idFrom .request ctx
  | .execution => K.idFrom .execution ctx
  | .trace =>
      if msg.get (K.header .trace) ≠ "" then msg.get (K.header .trace) else K.idFrom .trace ctx
  | .span =>
      if msg.get (K.header .trace) ≠ "" then msg.get (K.header .span) else K.idFrom .span ctx

theorem idFrom_microContext (ctx : K.Ctx) (msg : Msg) (scope : RequestScope) (timeout : ℤ)
    (j : Ident) : K.idFrom j (microContext K ctx msg scope timeout).1 = microID ctx msg j := by
  have htimeout : ∀ c : K.Ctx,
      K.idFrom j (if 0 < timeout then K.withTimeout c timeout else c) = K.idFrom j c := by
    intro c
    split
    · exact K.idFrom_withTimeout j c timeout
    · rfl
  unfold microContext
  simp only [htimeout]
  by_cases htrace : msg.get (K.header .trace) ≠ ""
  · rw [if_pos htrace, K.idFrom_withTraceContext, idFrom_ite]
    cases j <;> simp [microID, htrace]
  · rw [if_neg htrace, idFrom_ite]
    cases j <;> simp [microID, htrace]

/-- Whatever context the server has, the action gets each identifier of the
caller. -/
def Propagates (K : Contexts) (path : Path) (caller : K.Ctx) : Prop :=
  ∀ (ctx : K.Ctx) (msg : Msg) (scope : RequestScope) (i : Ident), K.idFrom i caller ≠ "" →
    K.idFrom i (path.serve K ctx (injectContextHeaders K caller msg) scope).1 = K.idFrom i caller

/-- The combinations of identifiers that the path does not lose. -/
def Path.Keeps (executionID traceID spanID : String) : Path → Prop
  | .topic | .durable | .consumer => True
  | .micro _ _ _ => executionID = "" ∧ (traceID = "" → spanID = "")

theorem propagates_extract {caller : K.Ctx} (ctx : K.Ctx) (msg : Msg) (scope : RequestScope)
    {i : Ident} (hi : K.idFrom i caller ≠ "") :
    K.idFrom i (extractContextHeaders K ctx (injectContextHeaders K caller msg) scope).1 =
      K.idFrom i caller := by
  have hget := (get_injectContextHeaders caller msg i).trans (if_pos hi)
  rw [idFrom_extractContextHeaders _ _ _ _ (isSome_injectContextHeaders caller msg hi)
    (by rwa [hget]), hget]

theorem propagates_micro {caller : K.Ctx} (service endpoint : String) (timeout : ℤ)
    (hexec : K.idFrom .execution caller = "")
    (hspan : K.idFrom .trace caller = "" → K.idFrom .span caller = "") :
    Propagates K (.micro service endpoint timeout) caller := by
  intro ctx msg scope i hi
  have hget := (get_injectContextHeaders caller msg i).trans (if_pos hi)
  rw [Path.serve, idFrom_microContext]
  cases i with
  | request => rw [microID, hget, if_pos hi]
  | execution => exact absurd hexec hi
  | trace => rw [microID, hget, if_pos hi]
  | span =>
      have htrace : K.idFrom .trace caller ≠ "" := fun h => hi (hspan h)
      rw [microID, get_injectContextHeaders caller msg .trace, if_pos htrace, if_pos htrace, hget]

/-- The identifiers of a caller arrive, whichever they are, unless a micro
service serves the message and there is an execution, or a span without a trace. -/
theorem propagates_iff (K : Contexts) (path : Path) (caller : K.Ctx) :
    Propagates K path caller ↔
      path.Keeps (K.idFrom .execution caller) (K.idFrom .trace caller) (K.idFrom .span caller) := by
  constructor
  · intro h
    cases path with
    | micro service endpoint timeout =>
        -- a server without identifiers of its own, and a message without headers
        have hget := h K.background ⟨"", none⟩ {}
        simp only [Path.serve, idFrom_microContext] at hget
        refine ⟨?_, fun htrace => ?_⟩
        · by_contra hexec
          exact hexec ((hget .execution hexec).symm.trans (K.idFrom_background .execution))
        · by_contra hspan
          have hnone : (injectContextHeaders K caller ⟨"", none⟩).get (K.header .trace) = "" := by
            rw [get_injectContextHeaders, if_neg (not_not.mpr htrace)]
            rfl
          have hmicro := hget .span hspan
          rw [microID, hnone, if_neg (not_not.mpr rfl), K.idFrom_background] at hmicro
          exact hspan hmicro.symm
    | _ => trivial
  · intro hkeeps
    cases path with
    | micro service endpoint timeout =>
        exact propagates_micro service endpoint timeout hkeeps.1 hkeeps.2
    | _ =>
        intro ctx msg scope i hi
        exact propagates_extract ctx msg _ hi

/-! ### An execution that is lost -/

def headerName : Ident → String
  | .request => "X-Request-ID"
  | .execution => "X-Execution-ID"
  | .trace => "X-Trace-ID"
  | .span => "X-Span-ID"

theorem headerName_injective : Function.Injective headerName := by
  intro i j h
  cases i <;> cases j <;> first | rfl | exact absurd h (by decide)

/-- Contexts that are their identifiers. -/
def plainContexts : Contexts where
  Ctx := Ident → String
  background _ := ""
  idFrom i c := c i
  withID i c id := fun j => if j = i then id else c j
  withTraceContext c traceID spanID := fun j =>
    if j = .trace then traceID else if j = .span then spanID else c j
  withTimeout c _ := c
  header := headerName
  identityHeader := headerName .execution
  idFrom_background _ := rfl
  idFrom_withID _ _ _ _ := rfl
  idFrom_withTraceContext _ _ _ _ := rfl
  idFrom_withTimeout _ _ _ := rfl
  header_injective := headerName_injective
  identityHeader_eq := rfl

/-- A caller with all four identifiers. -/
def tracedCaller : Ident → String
  | .request => "r1"
  | .execution => "e1"
  | .trace => "t1"
  | .span => "s1"

/-- The execution of a call arrives at a topic and not at a micro service. -/
theorem execution_lost :
    (Path.topic.serve plainContexts plainContexts.background
        (injectContextHeaders plainContexts tracedCaller ⟨"orders.get", none⟩) {}).1 .execution =
          "e1" ∧
      ¬ Propagates plainContexts (.micro "orders" "get" 0) tracedCaller := by
  refine ⟨by decide, fun h => ?_⟩
  have hexec := h plainContexts.background ⟨"orders.get", none⟩ {} .execution (by decide)
  exact absurd hexec (by decide)

end TransportNats.Identifiers
