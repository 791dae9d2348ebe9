import TransportNats.Lifecycle.Accepted

/-!
Who has which connection.

The gate has at most one holder, and only the holder changes the connection of
the transport. So what the holder has seen since it took the gate stays true
until it releases it: a dial begins only where there is no open connection, and
a dialed connection that is open is either the transport's or in the hand of
the holder. These facts hold whatever else runs, `Do` included.
-/

namespace TransportNats.Lifecycle

open Interleaving

/-! ### The invariant -/

/-- There is no connection, or one that is closed. -/
def Link.Vacant (l : Link) : Prop := ∀ nc, l.conn = some nc → nc ∈ l.closed

/-- What the marks of a goroutine say about the link. -/
structure LinkMarks.Fits (m : LinkMarks) (l : Link) : Prop where
  locked : m.looked ≠ none ∨ m.vacant = true ∨ m.hand ≠ none ∨ m.registered ≠ none →
    m.gate = true
  dialing : m.looked ≠ none ∨ m.vacant = true ∨ m.hand ≠ none → l.providedConn = false
  looked : ∀ c, m.looked = some c → l.conn = c
  vacant : m.vacant = true ∨ m.hand ≠ none → l.Vacant
  hand : m.hand ≠ some .supplied
  registered : ∀ tok, m.registered = some tok → l.connectCancel = some tok

structure Owned (l : Link) (ms : List LinkMarks) : Prop where
  gate : Exclusive l.connectGate (·.gate) ms
  fits : ∀ (i : ℕ) (m : LinkMarks), ms[i]? = some m → m.Fits l
  owned : ∀ n, n < l.dials → .dialed n ∉ l.closed →
    l.conn = some (.dialed n) ∨ ∃ (i : ℕ) (m : LinkMarks), ms[i]? = some m ∧
      m.hand = some (.dialed n)
  supplied : l.conn = some .supplied → l.providedConn = true
  provided : l.providedConn = true → l.conn = none ∨ l.conn = some .supplied

/-! ### Marks that fit -/

section
variable {m m' : LinkMarks} {l l' : Link}

/-- Without the gate there is nothing to fit. -/
theorem LinkMarks.Fits.of_gate_eq_false (hf : m.Fits l) (hm : m.gate = false) (l' : Link) :
    m.Fits l' := by
  have hnone : ¬ (m.looked ≠ none ∨ m.vacant = true ∨ m.hand ≠ none ∨ m.registered ≠ none) :=
    fun h => by
      rw [hf.locked h] at hm
      cases hm
  simp only [not_or, ne_eq, not_not, Bool.not_eq_true] at hnone
  obtain ⟨hlooked, hvacant, hhand, hreg⟩ := hnone
  exact ⟨hf.locked, by simp [hlooked, hvacant, hhand], by simp [hlooked],
    by simp [hvacant, hhand], hf.hand, by simp [hreg]⟩

/-- What a link may do without regard to the gate: connections get closed, and
fields change that the marks say nothing about. -/
structure Link.Keeps (l l' : Link) : Prop where
  conn : l'.conn = l.conn
  providedConn : l'.providedConn = l.providedConn
  connectCancel : l'.connectCancel = l.connectCancel
  connectGate : l'.connectGate = l.connectGate
  dials : l'.dials = l.dials
  closed : l.closed ⊆ l'.closed

theorem LinkMarks.Fits.keeps (hf : m.Fits l) (hk : l.Keeps l') : m.Fits l' where
  locked := hf.locked
  dialing h := hk.providedConn.trans (hf.dialing h)
  looked c hc := hk.conn.trans (hf.looked c hc)
  vacant h nc hnc := hk.closed (hf.vacant h nc (hk.conn.symm.trans hnc))
  hand := hf.hand
  registered tok htok := hk.connectCancel.trans (hf.registered tok htok)

end

section
variable {l l' : Link} {ms : List LinkMarks} {t : ℕ} {m m' : LinkMarks}

theorem Owned.keeps (ho : Owned l ms) (hk : l.Keeps l') : Owned l' ms where
  gate := hk.connectGate.symm ▸ ho.gate
  fits i m hm := (ho.fits i m hm).keeps hk
  owned n hn hopen := by
    rw [hk.conn]
    exact ho.owned n (hk.dials ▸ hn) fun h => hopen (hk.closed h)
  supplied h := hk.providedConn.trans (ho.supplied (hk.conn.symm.trans h))
  provided h := hk.conn.symm ▸ ho.provided (hk.providedConn.symm.trans h)

/-- A goroutine changes marks that say nothing about the gate or its hand. -/
theorem Owned.remark (ho : Owned l ms) (ht : ms[t]? = some m) (m' : LinkMarks)
    (hgate : m'.gate = m.gate) (hhand : m'.hand = m.hand) (hf : m'.Fits l) :
    Owned l (ms.set t m') where
  gate := ho.gate.keep ht fun h => hgate ▸ h
  fits := forall_set hf fun i x _ hx => ho.fits i x hx
  owned n hn hopen := (ho.owned n hn hopen).imp_right
    (exists_set (P := fun x : LinkMarks => x.hand = some (.dialed n)) ht m' fun h => hhand.trans h)
  supplied := ho.supplied
  provided := ho.provided

/-- The holder of the gate may do anything to the link, as long as its own marks
fit and no open connection gets lost. -/
theorem Owned.holder (ho : Owned l ms) (ht : ms[t]? = some m) (hm : m.gate = true)
    (hgate : Exclusive l'.connectGate (·.gate) (ms.set t m')) (hf : m'.Fits l')
    (howned : ∀ n, n < l'.dials → .dialed n ∉ l'.closed →
      l'.conn = some (.dialed n) ∨ m'.hand = some (.dialed n))
    (hsupplied : l'.conn = some .supplied → l'.providedConn = true)
    (hprovided : l'.providedConn = true → l'.conn = none ∨ l'.conn = some .supplied) :
    Owned l' (ms.set t m') where
  gate := hgate
  fits := forall_set hf fun i x hi hx =>
    (ho.fits i x hx).of_gate_eq_false (ho.gate.eq_false ht hm hi hx) l'
  owned n hn hopen := (howned n hn hopen).imp_right fun h => ⟨t, m', getElem?_set_self_of ht m', h⟩
  supplied := hsupplied
  provided := hprovided

/-- Only the holder of the gate has a connection in its hand. -/
theorem Owned.owned_holder (ho : Owned l ms) (ht : ms[t]? = some m) (hm : m.gate = true) {n : ℕ}
    (hn : n < l.dials) (hopen : .dialed n ∉ l.closed) :
    l.conn = some (.dialed n) ∨ m.hand = some (.dialed n) := by
  refine (ho.owned n hn hopen).imp_right fun ⟨i, x, hx, hhand⟩ => ?_
  have hgate : x.gate = true := (ho.fits i x hx).locked (.inr (.inr (.inl (by simp [hhand]))))
  obtain rfl := ho.gate.unique i t x m hx ht hgate hm
  obtain rfl := Option.some.inj (hx.symm.trans ht)
  exact hhand

end

/-! ### One operation -/

section
variable {l : Link} {ms : List LinkMarks} {t : ℕ} {m : LinkMarks} {p : PoolMarks}

theorem LinkMarks.Fits.forget (hf : m.Fits l) :
    ({ m with looked := none, vacant := false } : LinkMarks).Fits l where
  locked h := by
    rcases h with h | h | h
    · exact absurd rfl h
    · cases h
    · exact hf.locked (.inr (.inr h))
  dialing h := by
    rcases h with h | h | h
    · exact absurd rfl h
    · cases h
    · exact hf.dialing (.inr (.inr h))
  looked := nofun
  vacant h := by
    rcases h with h | h
    · cases h
    · exact hf.vacant (.inr h)
  hand := hf.hand
  registered := hf.registered

/-- A look under the gate says what the connection is until the gate is released. -/
theorem LinkMarks.Fits.look (hf : m.Fits l) (hgate : m.gate = true)
    (hprovided : l.providedConn = false) :
    ({ m with looked := some l.conn, vacant := l.conn.isNone } : LinkMarks).Fits l where
  locked _ := hgate
  dialing _ := hprovided
  looked _ hc := Option.some.inj hc
  vacant h := by
    rcases h with h | h
    · intro nc hnc
      rw [hnc] at h
      cases h
    · exact hf.vacant (.inr h)
  hand := hf.hand
  registered := hf.registered

theorem Owned.readConn (ho : Owned l ms) (ht : ms[t]? = some m) :
    Owned l (ms.set t (m.after .readConn ⟨l.conn, l.initErr, l.providedConn, l.closing⟩)) := by
  refine ho.remark ht _ rfl rfl ?_
  by_cases husable : (m.gate && !l.closing && !l.providedConn) = true
  · obtain ⟨⟨hgate, -⟩, hprovided⟩ :
        (m.gate = true ∧ l.closing = false) ∧ l.providedConn = false := by simpa using husable
    simpa [LinkMarks.after, husable] using (ho.fits t m ht).look hgate hprovided
  · simpa [LinkMarks.after, husable] using (ho.fits t m ht).forget

theorem Owned.isClosed (ho : Owned l ms) (ht : ms[t]? = some m) (nc : Conn) :
    Owned l (ms.set t (m.after (.isClosed nc) (nc ∈ l.closed))) := by
  have hf := ho.fits t m ht
  refine ho.remark ht _ rfl rfl ?_
  by_cases hseen : nc ∈ l.closed ∧ m.looked = some (some nc)
  · obtain ⟨hclosed, hlooked⟩ := hseen
    have hconn : l.conn = some nc := hf.looked _ hlooked
    have hsome : m.looked ≠ none := by simp [hlooked]
    exact {
      locked := fun _ => hf.locked (.inl hsome)
      dialing := fun _ => hf.dialing (.inl hsome)
      looked := hf.looked
      vacant := fun _ nc' hnc' => by
        obtain rfl := Option.some.inj (hconn.symm.trans hnc')
        exact hclosed
      hand := hf.hand
      registered := hf.registered }
  · have hsame : m.after (.isClosed nc) (nc ∈ l.closed) = m := by
      have hfalse : (decide (nc ∈ l.closed) && decide (m.looked = some (some nc))) = false := by
        simpa using hseen
      simp [LinkMarks.after, hfalse]
    rw [hsame]
    exact hf

/-- The marks of a goroutine that has just released the gate. -/
theorem LinkMarks.fits_of_none (hlooked : m.looked = none) (hvacant : m.vacant = false)
    (hhand : m.hand = none) (hreg : m.registered = none) (l : Link) : m.Fits l where
  locked h := by simp [hlooked, hvacant, hhand, hreg] at h
  dialing h := by simp [hlooked, hvacant, hhand] at h
  looked c hc := by simp [hlooked] at hc
  vacant h := by simp [hvacant, hhand] at h
  hand := by simp [hhand]
  registered tok htok := by simp [hreg] at htok

theorem Owned.lock (ho : Owned l ms) (ht : ms[t]? = some m) (hfree : l.connectGate = false) :
    Owned { l with connectGate := true } (ms.set t { m with gate := true }) := by
  have hx := ho.gate
  rw [hfree] at hx
  have hf := ho.fits t m ht
  have hself : ({ m with gate := true } : LinkMarks).Fits { l with connectGate := true } :=
    ⟨fun _ => rfl, hf.dialing, hf.looked, hf.vacant, hf.hand, hf.registered⟩
  exact {
    gate := hx.acquire _
    fits := forall_set hself fun i x _ hx => { ho.fits i x hx with }
    owned := fun n hn hopen => (ho.owned n hn hopen).imp_right
      (exists_set (P := fun x : LinkMarks => x.hand = some (.dialed n)) ht
        { m with gate := true } fun h => h)
    supplied := ho.supplied
    provided := ho.provided }

theorem Owned.unlock (ho : Owned l ms) (ht : ms[t]? = some m) (hgate : m.gate = true)
    (hhand : m.hand = none) (hreg : m.registered = none) :
    Owned { l with connectGate := false }
      (ms.set t { m with gate := false, looked := none, vacant := false }) := by
  refine ho.holder ht hgate (ho.gate.release ht hgate rfl)
    (LinkMarks.fits_of_none (m := { m with gate := false, looked := none, vacant := false })
      rfl rfl hhand hreg _) (fun n hn hopen => ?_) ho.supplied ho.provided
  refine .inl ((ho.owned_holder ht hgate hn hopen).resolve_right ?_)
  rw [hhand]
  exact nofun

theorem Owned.publish (ho : Owned l ms) (ht : ms[t]? = some m) (hgate : m.gate = true)
    (tok : Token) :
    Owned { l with connectCancel := some tok } (ms.set t { m with registered := some tok }) := by
  refine ho.holder ht hgate (ho.gate.keep ht id)
    { ho.fits t m ht with
      locked := fun _ => hgate
      registered := fun _ h => h }
    (fun n hn hopen => ho.owned_holder ht hgate hn hopen) ho.supplied ho.provided

theorem Owned.withdraw (ho : Owned l ms) (ht : ms[t]? = some m) (hgate : m.gate = true) :
    Owned { l with connectCancel := none } (ms.set t { m with registered := none }) :=
  ho.holder ht hgate (ho.gate.keep ht id)
    { ho.fits t m ht with
      locked := fun _ => hgate
      registered := nofun }
    (fun _ hn hopen => ho.owned_holder ht hgate hn hopen) ho.supplied ho.provided

/-- A new connection is in the hand of the holder, and it is the only open one. -/
theorem Owned.dial (ho : Owned l ms) (ht : ms[t]? = some m) (hvacant : m.vacant = true)
    (hgate : m.gate = true) (hhand : m.hand = none) :
    Owned { l with dials := l.dials + 1 } (ms.set t { m with hand := some (.dialed l.dials) }) := by
  have hf := ho.fits t m ht
  refine ho.holder ht hgate (ho.gate.keep ht id)
    { locked := fun _ => hgate
      dialing := fun _ => hf.dialing (.inr (.inl hvacant))
      looked := hf.looked
      vacant := fun _ => hf.vacant (.inl hvacant)
      hand := nofun
      registered := hf.registered } (fun n hn hopen => ?_) ho.supplied ho.provided
  rcases Nat.lt_succ_iff_lt_or_eq.mp hn with hn | rfl
  · refine .inl ((ho.owned_holder ht hgate hn hopen).resolve_right ?_)
    rw [hhand]
    exact nofun
  · exact .inr rfl

theorem Owned.store (ho : Owned l ms) (ht : ms[t]? = some m) (hvacant : m.vacant = true)
    (hgate : m.gate = true) {nc : Conn} (hhand : m.hand = some nc) :
    Owned { l with conn := some nc, js := true }
      (ms.set t { m with hand := none, looked := none, vacant := false }) := by
  have hf := ho.fits t m ht
  have hprovided : l.providedConn = false := hf.dialing (.inr (.inl hvacant))
  refine ho.holder ht hgate (ho.gate.keep ht id)
    { locked := fun _ => hgate
      dialing := by simp
      looked := nofun
      vacant := by simp
      hand := nofun
      registered := hf.registered } (fun n hn hopen => ?_) (fun h => ?_) (fun h => ?_)
  · rcases ho.owned_holder ht hgate hn hopen with hconn | hn
    · exact absurd (hf.vacant (.inl hvacant) _ hconn) hopen
    · exact .inl (hhand.symm.trans hn)
  · exact absurd (hhand.trans h) hf.hand
  · rw [hprovided] at h
    cases h

theorem Owned.close (ho : Owned l ms) (ht : ms[t]? = some m) (hgate : m.gate = true) {nc : Conn}
    (hhand : m.hand = some nc) :
    Owned { l with closed := nc :: l.closed } (ms.set t { m with hand := none }) := by
  have hf := ho.fits t m ht
  have hclosed : l.closed ⊆ nc :: l.closed := List.subset_cons_self _ _
  refine ho.holder ht hgate (ho.gate.keep ht id)
    { locked := fun _ => hgate
      dialing := fun h => hf.dialing (h.imp_right fun h => .inl (h.resolve_right (by simp)))
      looked := hf.looked
      vacant := fun h nc' hnc' => hclosed (hf.vacant (.inl (h.resolve_right (by simp))) nc' hnc')
      hand := nofun
      registered := hf.registered } (fun n hn hopen => ?_) ho.supplied ho.provided
  refine .inl ((ho.owned_holder ht hgate hn fun h => hopen (hclosed h)).resolve_right fun hn => ?_)
  obtain rfl := Option.some.inj (hhand.symm.trans hn)
  exact hopen List.mem_cons_self

/-- Whoever takes the connection has it in its hand, unless the caller supplied it. -/
theorem Owned.take (ho : Owned l ms) (ht : ms[t]? = some m) (hgate : m.gate = true)
    (hhand : m.hand = none) (hvacant : m.vacant = false) :
    Owned { l with conn := none, js := false }
      (ms.set t { m with
        took := true, looked := none, hand := if l.providedConn then none else l.conn }) := by
  have hf := ho.fits t m ht
  refine ho.holder ht hgate (ho.gate.keep ht id)
    { locked := fun _ => hgate
      dialing := fun h => ?_
      looked := nofun
      vacant := fun _ => nofun
      hand := fun h => ?_
      registered := hf.registered } (fun n hn hopen => ?_) nofun fun _ => .inl rfl
  · cases hprovided : l.providedConn
    · rfl
    · simp [hvacant, hprovided] at h
  · cases hprovided : l.providedConn
    · rw [hprovided] at h
      rw [ho.supplied h] at hprovided
      cases hprovided
    · rw [hprovided] at h
      cases h
  · rcases ho.owned_holder ht hgate hn hopen with hconn | hn
    · refine .inr ?_
      cases hprovided : l.providedConn
      · exact hconn
      · rcases ho.provided hprovided with h | h <;> rw [h] at hconn <;> cases hconn
    · rw [hhand] at hn
      cases hn

variable {s : State} {ch : Choice}

/-- Ownership is kept by every operation on the link. -/
theorem Owned.step (ho : Owned s.link ms) (ht : ms[t]? = some m) {o : LinkOp}
    (ha : m.allows p o) (hr : (Op.link o).canProceed ch s = true) :
    Owned (o.exec (fun o => ch (.link o)) s.link).1
      (ms.set t (m.after o (o.exec (fun o => ch (.link o)) s.link).2)) := by
  have hf := ho.fits t m ht
  have hquiet : Owned s.link (ms.set t m) := ho.remark ht m rfl rfl hf
  cases o with
  | ctxErr ctx => exact hquiet
  | withCancel => exact hquiet.keeps ⟨rfl, rfl, rfl, rfl, rfl, List.Subset.refl _⟩
  | cancel tok =>
      exact (ho.remark ht { m with owes := none } rfl rfl { hf with }).keeps
        ⟨rfl, rfl, rfl, rfl, rfl, List.Subset.refl _⟩
  | readConn => exact ho.readConn ht
  | isClosed nc => exact ho.isClosed ht nc
  | lockConnect ctx =>
      simp only [Op.canProceed] at hr
      simp only [LinkOp.exec]
      cases hch : ch (.link (.lockConnect ctx)) with
      | none =>
          rw [hch] at hr
          exact ho.lock ht (by simpa using hr)
      | some err => exact hquiet
  | lockGate => exact ho.lock ht (by simpa [Op.canProceed] using hr)
  | unlockConnect => exact ho.unlock ht ha.1 ha.2.1 ha.2.2
  | readURL => exact hquiet
  | publishCancel tok =>
      simp only [LinkOp.exec]
      split
      · exact hquiet
      · exact ho.publish ht ha.2 tok
  | withdrawCancel => exact ho.withdraw ht ha
  | connect url =>
      simp only [LinkOp.exec]
      cases ch (.link (.connect url)) with
      | error err => exact hquiet
      | ok nc => exact ho.dial ht ha.1 ha.2.1 ha.2.2.1
  | isConnected nc => exact hquiet
  | awaitConnected ctx connectCtx nc => exact hquiet
  | awaitEnd ctx connectCtx nc => exact hquiet
  | jetStream nc => exact hquiet
  | storeConn nc =>
      simp only [LinkOp.exec]
      split
      · exact hquiet
      · exact ho.store ht ha.1 ha.2.1 ha.2.2
  | closeConn nc => exact ho.close ht ha.1 ha.2
  | setClosing =>
      exact (ho.remark ht { m with closes := true, owes := s.link.connectCancel }
        rfl rfl { hf with }).keeps ⟨rfl, rfl, rfl, rfl, rfl, List.Subset.refl _⟩
  | takeConn => exact ho.take ht ha.1 ha.2.1 ha.2.2.1
  | readInitErr => exact hquiet

/-! ### A closed transport -/

/-- Goroutine `t` has taken the connection of a closing transport: as long as
`closing` stays set nobody dials, and nobody else has a connection in its hand. -/
structure Shut (l : Link) (ms : List LinkMarks) (t : ℕ) : Prop where
  closing : l.closing = true
  conn : l.conn = none
  blind : ∀ (i : ℕ) (m : LinkMarks), ms[i]? = some m → m.looked = none ∧ m.vacant = false
  hands : ∀ (i : ℕ) (m : LinkMarks), ms[i]? = some m → i ≠ t → m.hand = none

theorem Shut.update {l' : Link} {u : ℕ} {m' : LinkMarks} (hs : Shut l ms u)
    (hclosing : l'.closing = true) (hconn : l'.conn = none) (hlooked : m'.looked = none)
    (hvacant : m'.vacant = false) (hhand : t ≠ u → m'.hand = none) :
    Shut l' (ms.set t m') u where
  closing := hclosing
  conn := hconn
  blind := forall_set ⟨hlooked, hvacant⟩ fun i x _ hx => hs.blind i x hx
  hands := forall_set hhand fun i x _ hx => hs.hands i x hx

theorem Shut.take (ho : Owned l ms) (ht : ms[t]? = some m) (hgate : m.gate = true)
    (hvacant : m.vacant = false) (hclosing : l.closing = true) :
    Shut { l with conn := none, js := false }
      (ms.set t { m with
        took := true, looked := none, hand := if l.providedConn then none else l.conn }) t where
  closing := hclosing
  conn := rfl
  blind := forall_set ⟨rfl, hvacant⟩ fun i x hi hx => by
    have hfree := ho.gate.eq_false ht hgate hi hx
    have hlocked := (ho.fits i x hx).locked
    constructor
    · by_contra h
      rw [hlocked (.inl h)] at hfree
      cases hfree
    · by_contra h
      rw [hlocked (.inr (.inl (by simpa using h)))] at hfree
      cases hfree
  hands := forall_set (fun h => absurd rfl h) fun i x hi hx _ => by
    by_contra h
    have hfree := ho.gate.eq_false ht hgate hi hx
    rw [(ho.fits i x hx).locked (.inr (.inr (.inl h)))] at hfree
    cases hfree

/-- A closed transport stays closed, whatever is done to the link. -/
theorem Shut.step {u : ℕ} (hs : Shut s.link ms u) (ht : ms[t]? = some m) {o : LinkOp}
    (ha : m.allows p o) :
    Shut (o.exec (fun o => ch (.link o)) s.link).1
      (ms.set t (m.after o (o.exec (fun o => ch (.link o)) s.link).2)) u := by
  obtain ⟨hlooked, hvacant⟩ := hs.blind t m ht
  have hquiet : Shut s.link (ms.set t m) u :=
    hs.update hs.closing hs.conn hlooked hvacant (hs.hands t m ht)
  cases o with
  | ctxErr ctx => exact hquiet
  | withCancel => exact { hquiet with }
  | cancel tok => exact hs.update hs.closing hs.conn hlooked hvacant (hs.hands t m ht)
  | readConn =>
      refine hs.update hs.closing hs.conn ?_ ?_ (hs.hands t m ht)
      · simp [LinkMarks.after, LinkOp.exec, hs.closing]
      · simp [LinkMarks.after, LinkOp.exec, hs.closing]
  | isClosed nc =>
      refine hs.update hs.closing hs.conn hlooked ?_ (hs.hands t m ht)
      simp [LinkMarks.after, hlooked, hvacant]
  | lockConnect ctx =>
      simp only [LinkOp.exec]
      cases ch (.link (.lockConnect ctx)) with
      | none => exact hs.update hs.closing hs.conn hlooked hvacant (hs.hands t m ht)
      | some err => exact hquiet
  | lockGate => exact hs.update hs.closing hs.conn hlooked hvacant (hs.hands t m ht)
  | unlockConnect => exact hs.update hs.closing hs.conn rfl rfl (hs.hands t m ht)
  | readURL => exact hquiet
  | publishCancel tok =>
      simp only [LinkOp.exec, hs.closing, if_true]
      exact hquiet
  | withdrawCancel => exact hs.update hs.closing hs.conn hlooked hvacant (hs.hands t m ht)
  | connect url => cases hvacant.symm.trans ha.1
  | isConnected nc => exact hquiet
  | awaitConnected ctx connectCtx nc => exact hquiet
  | awaitEnd ctx connectCtx nc => exact hquiet
  | jetStream nc => exact hquiet
  | storeConn nc =>
      simp only [LinkOp.exec, hs.closing, if_true]
      exact hquiet
  | closeConn nc => exact hs.update hs.closing hs.conn hlooked hvacant fun _ => rfl
  | setClosing => exact hs.update rfl hs.conn hlooked hvacant (hs.hands t m ht)
  | takeConn =>
      refine hs.update hs.closing rfl rfl hvacant fun _ => ?_
      simp [LinkMarks.after, LinkOp.exec, hs.conn]
  | readInitErr => exact hquiet

theorem Shut.keeps {l' : Link} (hs : Shut l ms t) (hk : l.Keeps l') (hclosing : l'.closing = true) :
    Shut l' ms t :=
  ⟨hclosing, hk.conn.trans hs.conn, hs.blind, hs.hands⟩

theorem Shut.enter (hs : Shut l ms t) : Shut l (ms ++ [atRest false false]) t :=
  ⟨hs.closing, hs.conn, forall_enter ⟨rfl, rfl⟩ hs.blind, forall_enter (fun _ => rfl) hs.hands⟩

/-- Once nobody has a connection in its hand, every dialed one is closed. -/
theorem Owned.closed_of_shut {u : ℕ} (ho : Owned l ms) (hs : Shut l ms u)
    (hu : ∀ m, ms[u]? = some m → m.hand = none) {n : ℕ} (hn : n < l.dials) :
    .dialed n ∈ l.closed := by
  by_contra hopen
  rcases ho.owned n hn hopen with hconn | ⟨i, m, hm, hhand⟩
  · rw [hs.conn] at hconn
    cases hconn
  · have hnone : m.hand = none := by
      by_cases hi : i = u
      · exact hu m (hi ▸ hm)
      · exact hs.hands i m hm hi
    rw [hnone] at hhand
    cases hhand

end

/-! ### All operations -/

/-- The link marks of all goroutines. -/
def links (ms : List Marks) : List LinkMarks := ms.map (·.link)

theorem links_set (ms : List Marks) (t : ℕ) (m : Marks) :
    links (ms.set t m) = (links ms).set t m.link := List.map_set

theorem getElem?_links {ms : List Marks} {t : ℕ} {m : Marks} (ht : ms[t]? = some m) :
    (links ms)[t]? = some m.link := getElem?_map_of _ ht

theorem exists_of_getElem?_links {ms : List Marks} {t : ℕ} {l : LinkMarks}
    (ht : (links ms)[t]? = some l) : ∃ m, ms[t]? = some m ∧ m.link = l :=
  exists_of_getElem?_map ht

theorem links_set_of_eq {ms : List Marks} {t : ℕ} {m : Marks} (ht : ms[t]? = some m) (m' : Marks)
    (hm : m'.link = m.link) : links (ms.set t m') = links ms := map_set_of_eq ht m' hm

theorem links_enter (ms : List Marks) (c : Call) :
    links (ms ++ [c.marks]) = links ms ++ [atRest false false] := by
  have hlink : c.marks.link = atRest false false := by
    cases c with
    | goroutine g turns => cases g <;> rfl
    | _ => rfl
  rw [links, List.map_append, List.map_singleton, hlink]
  rfl

/-- A new goroutine has nothing. -/
theorem Owned.enter {l : Link} {ms : List LinkMarks} (ho : Owned l ms) :
    Owned l (ms ++ [atRest false false]) where
  gate := ho.gate.enter rfl
  fits := forall_enter (LinkMarks.fits_of_none rfl rfl rfl rfl l) ho.fits
  owned n hn hopen := (ho.owned n hn hopen).imp_right exists_enter
  supplied := ho.supplied
  provided := ho.provided

/-- What the operations of a run do to the link. -/
theorem PoolOp.Does.link {s : State} {o : PoolOp} {out : State × o.Ret} (h : o.Does s out) :
    ∃ url js closing, out.1.link =
        { s.link with url := url, js := js, closing := closing } ∧
      (o ≠ .clearClosing → o ≠ .takeResources → closing = s.link.closing) := by
  cases h with
  | clearClosing => exact ⟨_, _, _, rfl, fun h => absurd rfl h⟩
  | takeResources => exact ⟨_, _, _, rfl, fun _ h => absurd rfl h⟩
  | _ => exact ⟨_, _, _, rfl, fun _ _ => rfl⟩

theorem PoolOp.exec_keeps (ch : (o : PoolOp) → o.Ret) (s : State) (o : PoolOp) :
    s.link.Keeps (o.exec ch s).1.link := by
  obtain ⟨url, js, closing, hlink, -⟩ := (PoolOp.does ch s o).link
  rw [hlink]
  exact ⟨rfl, rfl, rfl, rfl, rfl, List.Subset.refl _⟩

theorem PoolOp.exec_closing {o : PoolOp} (hclear : o ≠ .clearClosing) (htake : o ≠ .takeResources)
    (ch : (o : PoolOp) → o.Ret) (s : State) :
    (o.exec ch s).1.link.closing = s.link.closing := by
  obtain ⟨url, js, closing, hlink, hclosing⟩ := (PoolOp.does ch s o).link
  rw [hlink]
  exact hclosing hclear htake

theorem PoolOp.exec_cancelled (ch : (o : PoolOp) → o.Ret) (s : State) (o : PoolOp) :
    (o.exec ch s).1.link.cancelled = s.link.cancelled := by
  obtain ⟨url, js, closing, hlink, -⟩ := (PoolOp.does ch s o).link
  rw [hlink]

/-- No operation of a run touches the readiness signal. -/
theorem PoolOp.exec_readiness (ch : (o : PoolOp) → o.Ret) (s : State) (o : PoolOp) :
    (o.exec ch s).1.readiness = s.readiness := by
  have h := PoolOp.does ch s o
  generalize o.exec ch s = out at h ⊢
  cases h <;> rfl

theorem Event.happen_keeps (s : State) (e : Event) : s.link.Keeps (e.happen s).link := by
  cases e with
  | callerDone n err => exact ⟨rfl, rfl, rfl, rfl, rfl, List.Subset.refl _⟩
  | connLost nc => exact ⟨rfl, rfl, rfl, rfl, rfl, List.subset_cons_self _ _⟩

/-- A call that enters leaves the state as it is, unless it is a goroutine that
begins to run. -/
theorem Call.enter_cases {c : Call} {s s' : State} (h : c.enter s = some s') :
    s' = s ∧ (∀ g turns, c ≠ .goroutine g turns) ∨
      ∃ g turns, c = .goroutine g turns ∧ g ∈ s.pool.started ∧
        s' = { s with pool := { s.pool with started := s.pool.started.erase g } } := by
  cases c with
  | callback r =>
      simp only [Call.enter] at h
      split at h <;> cases h
      exact .inl ⟨rfl, nofun⟩
  | goroutine g turns =>
      simp only [Call.enter] at h
      split at h <;> cases h
      rename_i hg
      exact .inr ⟨g, turns, rfl, hg, rfl⟩
  | _ =>
      cases h
      exact .inl ⟨rfl, nofun⟩

theorem Call.enter_link {c : Call} {s s' : State} (h : c.enter s = some s') :
    s'.link = s.link := by
  rcases Call.enter_cases h with ⟨rfl, -⟩ | ⟨g, turns, -, -, rfl⟩ <;> rfl

theorem Call.enter_readiness {c : Call} {s s' : State} (h : c.enter s = some s') :
    s'.readiness = s.readiness := by
  rcases Call.enter_cases h with ⟨rfl, -⟩ | ⟨g, turns, -, -, rfl⟩ <;> rfl

/-- The operation that a goroutine performs, as an operation on the link. -/
theorem Marks.allows_link {m : Marks} {o : LinkOp} (ha : m.allows (.link o)) :
    m.link.allows m.pool o := by
  unfold Marks.allows at ha
  split at ha
  · cases ha
    trivial
  · exact ha

theorem owned_step {ch : Choice} {s : State} {ms : List Marks} {t : ℕ} {m : Marks} {o : Op}
    (ht : ms[t]? = some m) (ha : m.allows o) (hr : ready ch s o = true)
    (ho : Owned s.link (links ms)) :
    Owned (exec ch s o).1.link (links (ms.set t (m.after ⟨o, (exec ch s o).2⟩))) := by
  cases o with
  | link o =>
      rw [links_set]
      exact ho.step (getElem?_links ht) (Marks.allows_link ha) (Bool.and_eq_true_iff.mp hr).1
  | pool o =>
      rw [links_set_of_eq ht (m.after ⟨.pool o, _⟩) rfl]
      exact ho.keeps (PoolOp.exec_keeps _ s o)
  | ready o =>
      rw [links_set_of_eq ht (m.after ⟨.ready o, _⟩) rfl]
      exact ho
  | external o =>
      rw [links_set_of_eq ht (m.after ⟨.external o, _⟩) rfl]
      exact ho

end TransportNats.Lifecycle
