import TransportNats.Mount.Listen

/-!
The texts of the modifiers as a format.

What a flow asks for with a modifier is a route: the names of a stream, a
subject, a bucket, as the modifier demands. Written out, with the separator of
its modifier between the names, a route is read back as it was, and every text
that a modifier does not refuse means some route. The readers differ in what
they forgive: where the text is cut at its first separator, blanks around a name
are dropped and the last name may contain the separator; where it is split at
all of them, blanks are kept and no name may contain it.

That a text can be read does not mean that its binding can be mounted. The
defaults that the constructors add never stand in the way: mounting refuses a
durable, consumer, key-value or object route outright exactly if a name that it
needs is empty, and refuses none of the others, whose names go to the client
library as they are.
-/

namespace TransportNats.Mount

open Interleaving

/-! ### Routes -/

/-- What a flow asks for with a modifier. -/
inductive Route
  | topic (subject queue : String)
  | request (subject : String)
  | rpc (subject : String)
  | durable (stream subject durable dlq : String)
  | consumer (stream subject durable : String)
  | kv (bucket key : String)
  | object (bucket pattern : String)
  | micro (service version endpoint subject : String)

namespace Route

def modifier : Route → Modifier
  | .topic _ _ => .natsTopic
  | .request _ => .natsRequest
  | .rpc _ => .natsRPC
  | .durable _ _ _ _ => .natsDurable
  | .consumer _ _ _ => .natsConsumer
  | .kv _ _ => .natsKV
  | .object _ _ => .natsObject
  | .micro _ _ _ _ => .natsMicro

def binding : Route → Binding
  | .topic subject queue => .topic subject queue
  | .request subject | .rpc subject => .request subject 0
  | .durable stream subject name dlq => .durable (durableWork stream subject name dlq)
  | .consumer stream subject name => .consumer (Mount.consumer stream subject name)
  | .kv bucket key => .kv bucket key
  | .object bucket pattern => .object (objectStore bucket pattern)
  | .micro name version endpoint subject => .service (service name version endpoint subject)

end Route

/-- The parts with a separator between them. -/
def join (sep : Char) (parts : List String) : String :=
  String.ofList ([sep].intercalate (parts.map String.toList))

/-- The text with which a flow asks for a route. -/
def Route.text : Route → String
  | .topic subject queue => if queue = "" then subject else join '@' [subject, queue]
  | .request subject | .rpc subject => subject
  | .durable stream subject name dlq => join ':' [stream, subject, name, dlq]
  | .consumer stream subject name => join ':' [stream, subject, name]
  | .kv bucket key => join ':' [bucket, key]
  | .object bucket pattern => join ':' [bucket, pattern]
  | .micro name version endpoint subject => join ':' [name, version, endpoint, subject]

/-- No blanks at either end. -/
def Trimmed (s : String) : Prop := trimSpace s = s

/-- The routes that a text can say. A text that is cut at its first separator has none in
the name before it, and no blanks at the ends of its names; a text that is split at every
separator has none in any of its names, the last one included. -/
def Route.WellFormed : Route → Prop
  | .topic subject queue => Trimmed subject ∧ Trimmed queue ∧ '@' ∉ subject.toList
  | .request subject | .rpc subject => Trimmed subject
  | .durable stream subject name dlq => ∀ part ∈ [stream, subject, name, dlq], ':' ∉ part.toList
  | .consumer stream subject name => ∀ part ∈ [stream, subject, name], ':' ∉ part.toList
  | .kv bucket rest | .object bucket rest => Trimmed bucket ∧ Trimmed rest ∧ ':' ∉ bucket.toList
  | .micro name version endpoint subject =>
      ∀ part ∈ [name, version, endpoint, subject], ':' ∉ part.toList

/-! ### Reading what was written -/

theorem split_join {sep : Char} {parts : List String} (hne : parts ≠ [])
    (hparts : ∀ part ∈ parts, sep ∉ part.toList) : split (join sep parts) sep = parts := by
  have hsplit : ([sep].intercalate (parts.map String.toList)).splitOn sep =
      parts.map String.toList :=
    List.splitOn_intercalate sep (by simpa using hparts) (by simpa using hne)
  rw [split, join, String.toList_ofList, hsplit, List.map_map]
  simp [Function.comp_def]

theorem cut_join {sep : Char} {first rest : String} (hfirst : sep ∉ first.toList) :
    cut (join sep [first, rest]) sep = (first, some rest) := by
  have hsplit : Splitting.splitFirst sep (join sep [first, rest]).toList =
      some (first.toList, rest.toList) :=
    Splitting.splitFirst_eq_some.mpr ⟨by simp [join, List.intercalate], hfirst⟩
  simp only [cut, hsplit, String.ofList_toList]

theorem cut_of_not_mem {sep : Char} {s : String} (hs : sep ∉ s.toList) : cut s sep = (s, none) := by
  rw [cut, Splitting.splitFirst_eq_none.mpr hs]

theorem splitBinding_join {count : ℕ} {expected : String} {bind : (ℕ → String) → Binding}
    {parts : List String} (hcount : parts.length = count) (hpos : 0 < count)
    (hparts : ∀ part ∈ parts, ':' ∉ part.toList) :
    splitBinding count expected bind (join ':' parts) = bind fun i => parts.getD i "" := by
  have hne : parts ≠ [] := List.ne_nil_of_length_pos (by omega)
  rw [splitBinding, split_join hne hparts]
  exact if_neg (not_not.mpr hcount)

theorem cutBinding_join {expected : String} {bind : String → String → Binding}
    {first rest : String} (hfirst : Trimmed first) (hrest : Trimmed rest)
    (hsep : ':' ∉ first.toList) :
    cutBinding expected bind (join ':' [first, rest]) = bind first rest := by
  rw [cutBinding, cut_join hsep]
  exact congrArg₂ bind hfirst hrest

/-- A route that is written out is read back as it was. -/
theorem Route.binding_text {r : Route} (hr : r.WellFormed) :
    r.modifier.binding r.text = r.binding := by
  cases r with
  | topic subject queue =>
      obtain ⟨hsubject, hqueue, hsep⟩ := hr
      rw [modifier, Modifier.binding, text, binding]
      by_cases hempty : queue = ""
      · subst hempty
        rw [if_pos rfl, cut_of_not_mem hsep]
        exact congrArg₂ Binding.topic hsubject hqueue
      · rw [if_neg hempty, cut_join hsep]
        exact congrArg₂ Binding.topic hsubject hqueue
  | request subject =>
      have htrimmed : trimSpace subject = subject := hr
      exact congrArg (Binding.request · 0) htrimmed
  | rpc subject =>
      have htrimmed : trimSpace subject = subject := hr
      exact congrArg (Binding.request · 0) htrimmed
  | durable stream subject name dlq =>
      rw [modifier, Modifier.binding, text, splitBinding_join (by rfl) (by decide) hr]
      rfl
  | consumer stream subject name =>
      rw [modifier, Modifier.binding, text, splitBinding_join (by rfl) (by decide) hr]
      rfl
  | kv bucket key =>
      rw [modifier, Modifier.binding, text, cutBinding_join hr.1 hr.2.1 hr.2.2, binding]
  | object bucket pattern =>
      rw [modifier, Modifier.binding, text, cutBinding_join hr.1 hr.2.1 hr.2.2, binding]
  | micro name version endpoint subject =>
      rw [modifier, Modifier.binding, text, splitBinding_join (by rfl) (by decide) hr]
      rfl

/-! ### What a text means -/

theorem trimSpace_eq (s : String) : trimSpace s = String.ofList (Splitting.trim isSpace s.toList) :=
  rfl

theorem trimmed_trimSpace (s : String) : Trimmed (trimSpace s) := by
  rw [Trimmed, trimSpace_eq, trimSpace_eq, String.toList_ofList, Splitting.trim_trim]

theorem notMem_trimSpace {s : String} {c : Char} (h : c ∉ s.toList) :
    c ∉ (trimSpace s).toList := by
  rw [trimSpace_eq, String.toList_ofList]
  exact fun hmem => h ((Splitting.trim_sublist isSpace s.toList).subset hmem)

theorem notMem_fst_cut (s : String) (sep : Char) : sep ∉ (cut s sep).1.toList := by
  rw [cut]
  rcases hs : Splitting.splitFirst sep s.toList with _ | ⟨first, rest⟩
  · exact Splitting.splitFirst_eq_none.mp hs
  · simpa using (Splitting.splitFirst_eq_some.mp hs).2

theorem notMem_of_mem_split {s : String} {sep : Char} {part : String} (h : part ∈ split s sep) :
    sep ∉ part.toList := by
  obtain ⟨chars, hchars, rfl⟩ := List.mem_map.mp h
  rw [String.toList_ofList]
  exact Splitting.notMem_of_mem_splitOn hchars

theorem invalid_or_split {count : ℕ} {expected raw : String} {bind : (ℕ → String) → Binding} :
    (∃ text, splitBinding count expected bind raw = .invalid text) ∨
      ∃ parts : List String, parts.length = count ∧ (∀ part ∈ parts, ':' ∉ part.toList) ∧
        splitBinding count expected bind raw = bind fun i => parts.getD i "" := by
  rw [splitBinding]
  split
  · exact .inl ⟨expected, rfl⟩
  · rename_i hcount
    exact .inr ⟨_, not_not.mp hcount, fun _ => notMem_of_mem_split, rfl⟩

theorem invalid_or_cut {expected raw : String} {bind : String → String → Binding} :
    (∃ text, cutBinding expected bind raw = .invalid text) ∨
      ∃ first rest, Trimmed first ∧ Trimmed rest ∧ ':' ∉ first.toList ∧
        cutBinding expected bind raw = bind first rest := by
  have hfirst := notMem_fst_cut raw ':'
  rw [cutBinding]
  rcases hcut : cut raw ':' with ⟨first, _ | rest⟩
  · exact .inl ⟨expected, rfl⟩
  · rw [hcut] at hfirst
    exact .inr ⟨_, _, trimmed_trimSpace first, trimmed_trimSpace rest, notMem_trimSpace hfirst, rfl⟩

/-- A text is refused, or it means a route. -/
theorem Modifier.invalid_or_route (m : Modifier) (raw : String) :
    (∃ text, m.binding raw = .invalid text) ∨
      ∃ r : Route, r.WellFormed ∧ r.modifier = m ∧ m.binding raw = r.binding := by
  cases m with
  | natsTopic =>
      refine .inr ⟨.topic _ _, ⟨trimmed_trimSpace _, trimmed_trimSpace _, ?_⟩, rfl, rfl⟩
      exact notMem_trimSpace (notMem_fst_cut raw '@')
  | natsRequest => exact .inr ⟨.request _, trimmed_trimSpace raw, rfl, rfl⟩
  | natsRPC => exact .inr ⟨.rpc _, trimmed_trimSpace raw, rfl, rfl⟩
  | natsDurable =>
      rw [Modifier.binding]
      refine invalid_or_split.imp_right ?_
      rintro ⟨parts, hcount, hparts, hbinding⟩
      obtain ⟨stream, subject, name, dlq, rfl⟩ := List.length_eq_four.mp hcount
      exact ⟨.durable stream subject name dlq, hparts, rfl, hbinding⟩
  | natsConsumer =>
      rw [Modifier.binding]
      refine invalid_or_split.imp_right ?_
      rintro ⟨parts, hcount, hparts, hbinding⟩
      obtain ⟨stream, subject, name, rfl⟩ := List.length_eq_three.mp hcount
      exact ⟨.consumer stream subject name, hparts, rfl, hbinding⟩
  | natsKV =>
      rw [Modifier.binding]
      refine invalid_or_cut.imp_right ?_
      rintro ⟨bucket, key, hbucket, hkey, hsep, hbinding⟩
      exact ⟨.kv bucket key, ⟨hbucket, hkey, hsep⟩, rfl, hbinding⟩
  | natsObject =>
      rw [Modifier.binding]
      refine invalid_or_cut.imp_right ?_
      rintro ⟨bucket, pattern, hbucket, hpattern, hsep, hbinding⟩
      exact ⟨.object bucket pattern, ⟨hbucket, hpattern, hsep⟩, rfl, hbinding⟩
  | natsMicro =>
      rw [Modifier.binding]
      refine invalid_or_split.imp_right ?_
      rintro ⟨parts, hcount, hparts, hbinding⟩
      obtain ⟨name, version, endpoint, subject, rfl⟩ := List.length_eq_four.mp hcount
      exact ⟨.micro name version endpoint subject, hparts, rfl, hbinding⟩

/-! ### Mounting -/

/-- A name is missing that mounting asks for: any name of a durable or a consumer route, and
the bucket of the watchers. It asks for none of a topic, a request or a service. -/
def Route.Lacks : Route → Prop
  | .durable stream subject name dlq => "" ∈ [stream, subject, name, dlq]
  | .consumer stream subject name => "" ∈ [stream, subject, name]
  | .kv bucket _ | .object bucket _ => bucket = ""
  | .topic _ _ | .request _ | .rpc _ | .micro _ _ _ _ => False

theorem not_refuses_of_result? {p : Lifecycle.Routine (Option Err)} (h : p.result? = none) :
    ¬ Refuses p := by
  rintro ⟨err, herr⟩
  rw [h] at herr
  cases herr

section
variable {ctx : Lifecycle.Ctx} {nc : Lifecycle.Conn}

theorem refuses_subscribeDurable {b : Delivery.DurableBinding} :
    Refuses (Lifecycle.subscribeDurable ctx nc b) ↔ Delivery.validateDurableBinding b ≠ none := by
  rcases h : Delivery.validateDurableBinding b with _ | err
  · refine iff_of_false (not_refuses_of_result? ?_) (not_not.mpr rfl)
    rw [Lifecycle.subscribeDurable, h]
    rfl
  · refine iff_of_true ⟨err, ?_⟩ (Option.some_ne_none err)
    rw [Lifecycle.subscribeDurable, h]
    rfl

theorem refuses_subscribeConsumer {b : Delivery.ConsumerBinding} :
    Refuses (Lifecycle.subscribeConsumer ctx nc b) ↔
      Delivery.validateConsumerBinding b ≠ none := by
  rcases h : Delivery.validateConsumerBinding b with _ | err
  · refine iff_of_false (not_refuses_of_result? ?_) (not_not.mpr rfl)
    rw [Lifecycle.subscribeConsumer, h]
    rfl
  · refine iff_of_true ⟨err, ?_⟩ (Option.some_ne_none err)
    rw [Lifecycle.subscribeConsumer, h]
    rfl

theorem refuses_mountKV {bucket key : String} :
    Refuses (Lifecycle.mountKV ctx bucket key) ↔ bucket = "" := by
  by_cases h : bucket = ""
  · refine iff_of_true ?_ h
    rw [Lifecycle.mountKV, if_pos h]
    exact ⟨_, rfl⟩
  · refine iff_of_false (not_refuses_of_result? ?_) h
    rw [Lifecycle.mountKV, if_neg h]
    rfl

theorem refuses_mountObjectStore {bucket : String} :
    Refuses (Lifecycle.mountObjectStore ctx bucket) ↔ bucket = "" := by
  by_cases h : bucket = ""
  · refine iff_of_true ?_ h
    rw [Lifecycle.mountObjectStore, if_pos h]
    exact ⟨_, rfl⟩
  · refine iff_of_false (not_refuses_of_result? ?_) h
    rw [Lifecycle.mountObjectStore, if_neg h]
    rfl

end

/-- The policy that `DurableWork` sets passes the checks. -/
theorem validate_durableWork {stream subject name dlq : String} :
    Delivery.validateDurableBinding (durableWork stream subject name dlq) = none ↔
      stream ≠ "" ∧ subject ≠ "" ∧ name ≠ "" ∧ dlq ≠ "" := by
  simp [Delivery.validateDurableBinding, durableWork, Delivery.second]

/-- The policies that `Consumer` sets pass the checks. -/
theorem validate_consumer {stream subject name : String} :
    Delivery.validateConsumerBinding (consumer stream subject name) = none ↔
      stream ≠ "" ∧ subject ≠ "" ∧ name ≠ "" := by
  simp [Delivery.validateConsumerBinding, consumer, Delivery.second]

/-- Mounting refuses a route at once exactly if a name is missing: the defaults
of its binding pass every check. -/
theorem Route.refuses_iff_lacks (r : Route) (ctx : Lifecycle.Ctx) (nc : Lifecycle.Conn) :
    Refuses (Lifecycle.mountBinding ctx nc r.binding.toLifecycle) ↔ r.Lacks := by
  cases r with
  | durable stream subject name dlq =>
      refine refuses_subscribeDurable.trans ?_
      rw [Ne, validate_durableWork, Lacks]
      simp only [List.mem_cons, List.not_mem_nil, eq_comm, or_false]
      tauto
  | consumer stream subject name =>
      refine refuses_subscribeConsumer.trans ?_
      rw [Ne, validate_consumer, Lacks]
      simp only [List.mem_cons, List.not_mem_nil, eq_comm, or_false]
      tauto
  | kv bucket key => exact refuses_mountKV
  | object bucket pattern => exact refuses_mountObjectStore
  | topic subject queue => exact iff_of_false (not_refuses_of_result? rfl) id
  | request subject => exact iff_of_false (not_refuses_of_result? rfl) id
  | rpc subject => exact iff_of_false (not_refuses_of_result? rfl) id
  | micro name version endpoint subject =>
      -- services are mounted later, together
      refine iff_of_false ?_ id
      rintro ⟨err, herr⟩
      cases Option.some.inj herr

/-- The texts of the modifiers are a format: what is written is read back, what is
read and not refused is a route that can be written, and mounting refuses a route
at once exactly if a name is missing that it asks for. -/
theorem modifiers_roundTrip :
    (∀ r : Route, r.WellFormed → r.modifier.binding r.text = r.binding) ∧
      (∀ (m : Modifier) (raw : String), (∃ text, m.binding raw = .invalid text) ∨
        ∃ r : Route, r.WellFormed ∧ r.modifier = m ∧ m.binding raw = r.binding) ∧
      ∀ (r : Route) (ctx : Lifecycle.Ctx) (nc : Lifecycle.Conn),
        Refuses (Lifecycle.mountBinding ctx nc r.binding.toLifecycle) ↔ r.Lacks :=
  ⟨fun _ => Route.binding_text, Modifier.invalid_or_route, Route.refuses_iff_lacks⟩

/-- A durable route without a place for its dead letters can be written and read,
and is not mounted. -/
theorem modifiers_roundTrip_durable :
    Modifier.natsDurable.binding "ORDERS:orders.new:worker:" =
        (Route.durable "ORDERS" "orders.new" "worker" "").binding ∧
      Refuses (Lifecycle.mountBinding [] (.dialed 0)
        (Route.durable "ORDERS" "orders.new" "worker" "").binding.toLifecycle) := by
  have hwell : (Route.durable "ORDERS" "orders.new" "worker" "").WellFormed := by
    rw [Route.WellFormed]
    decide
  have htext : (Route.durable "ORDERS" "orders.new" "worker" "").text =
      "ORDERS:orders.new:worker:" := by
    rw [Route.text]
    decide
  have hlacks : (Route.durable "ORDERS" "orders.new" "worker" "").Lacks := by
    rw [Route.Lacks]
    decide
  obtain ⟨hread, -, hmount⟩ := modifiers_roundTrip
  exact ⟨htext ▸ hread _ hwell, (hmount _ _ _).mpr hlacks⟩

end TransportNats.Mount
