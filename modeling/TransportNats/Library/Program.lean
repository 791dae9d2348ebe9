import Mathlib.Logic.Basic
import Mathlib.Data.List.Basic

/-!
Programs as trees of atomic operations.

A concurrent client is a sequence of requests to a shared service with local
computation between them. `Program S α` keeps exactly that: a leaf is a
returned value, a node is one atomic operation together with what the client
does for every possible answer. The tree says nothing about the state the
operations act on; `World` gives them a state and interleaves many programs.

`Guarded` is the logic of such trees. It speaks only about the client's own
history, the operations it has performed and the answers it got, so one proof
per program is enough however many other clients run.
-/

namespace Interleaving

/-- The operations a program may perform, each with the type of its answer. -/
structure Signature where
  Op : Type
  Ret : Op → Type

/-- A program over the operations of `S` that returns an `α`. -/
inductive Program (S : Signature) (α : Type) : Type
  | ret (a : α)
  | call (o : S.Op) (k : S.Ret o → Program S α)

/-- An operation together with the answer it got. -/
structure Answered (S : Signature) where
  op : S.Op
  ret : S.Ret op

/-- What a client has done so far, the latest operation first. -/
abbrev History (S : Signature) := List (Answered S)

namespace Program

variable {S : Signature} {α β : Type}

def bind (p : Program S α) (f : α → Program S β) : Program S β :=
  match p with
  | .ret a => f a
  | .call o k => .call o fun r => (k r).bind f

instance : Monad (Program S) where
  pure := .ret
  bind := bind

/-- The program that performs one operation and returns its answer. -/
def perform (o : S.Op) : Program S (S.Ret o) := .call o .ret

/-- The value a finished program returned. -/
def result? : Program S α → Option α
  | .ret a => some a
  | .call _ _ => none

/-- The operation an unfinished program performs next. -/
def next? : Program S α → Option S.Op
  | .ret _ => none
  | .call o _ => some o

@[simp] theorem result?_ret (a : α) : (Program.ret a : Program S α).result? = some a := rfl

@[simp] theorem result?_call (o : S.Op) (k : S.Ret o → Program S α) :
    (Program.call o k).result? = none := rfl

@[simp] theorem next?_call (o : S.Op) (k : S.Ret o → Program S α) :
    (Program.call o k).next? = some o := rfl

/-! ### Guarded programs -/

/-- `Guarded G Q h p`: started after the history `h`, the program `p` performs
an operation only when `G` allows it after the history it has by then, and
returns only values that `Q` allows, whatever answers it gets. -/
def Guarded (G : History S → S.Op → Prop) (Q : History S → α → Prop) :
    History S → Program S α → Prop
  | h, .ret a => Q h a
  | h, .call o k => G h o ∧ ∀ r, Guarded G Q (⟨o, r⟩ :: h) (k r)

variable {G : History S → S.Op → Prop} {Q : History S → β → Prop}
  {h : History S}

@[simp] theorem guarded_ret (a : β) : Guarded G Q h (.ret a) ↔ Q h a := Iff.rfl

@[simp] theorem guarded_pure (a : β) : Guarded G Q h (pure a) ↔ Q h a := Iff.rfl

@[simp] theorem guarded_call (o : S.Op) (k : S.Ret o → Program S β) :
    Guarded G Q h (.call o k) ↔ G h o ∧ ∀ r, Guarded G Q (⟨o, r⟩ :: h) (k r) := Iff.rfl

/-- The sequencing rule: what follows is guarded after every history and value
with which the first program may end. -/
theorem guarded_bind (p : Program S α) (f : α → Program S β) :
    Guarded G Q h (p >>= f) ↔ Guarded G (fun h a => Guarded G Q h (f a)) h p := by
  induction p generalizing h with
  | ret a => exact Iff.rfl
  | call o k ih =>
      change (G h o ∧ ∀ r, Guarded G Q (⟨o, r⟩ :: h) (k r >>= f)) ↔ _
      simp only [guarded_call, ih]

@[simp] theorem guarded_perform_bind (o : S.Op) (f : S.Ret o → Program S β) :
    Guarded G Q h (perform o >>= f) ↔ G h o ∧ ∀ r, Guarded G Q (⟨o, r⟩ :: h) (f r) :=
  Iff.rfl

/-- The consequence rule. -/
theorem Guarded.mono {G' : History S → S.Op → Prop} {Q' : History S → β → Prop}
    {p : Program S β} (hp : Guarded G Q h p) (hG : ∀ h o, G h o → G' h o)
    (hQ : ∀ h a, Q h a → Q' h a) : Guarded G' Q' h p := by
  induction p generalizing h with
  | ret a => exact hQ h a hp
  | call o k ih => exact ⟨hG h o hp.1, fun r => ih r (hp.2 r)⟩

/-- Sequencing through a stated postcondition of the first program. -/
theorem Guarded.bind {p : Program S α} {f : α → Program S β} {R : History S → α → Prop}
    (hp : Guarded G R h p) (hf : ∀ h a, R h a → Guarded G Q h (f a)) :
    Guarded G Q h (p >>= f) :=
  (guarded_bind p f).mpr (hp.mono (fun _ _ hG => hG) hf)

/-- Nothing is asked of any program. -/
theorem guarded_true (p : Program S β) :
    Guarded (fun _ _ => True) (fun _ _ => True) h p := by
  induction p generalizing h with
  | ret a => trivial
  | call o k ih => exact ⟨trivial, fun r => ih r⟩

/-- What the guarded operations keep holds of every history on the way. -/
theorem Guarded.keeping {I : History S → Prop} {p : Program S β} (hp : Guarded G Q h p)
    (hI : I h) (hstep : ∀ h o r, I h → G h o → I (⟨o, r⟩ :: h)) :
    Guarded (fun h o => G h o ∧ I h) (fun h a => Q h a ∧ I h) h p := by
  induction p generalizing h with
  | ret a => exact ⟨hp, hI⟩
  | call o k ih => exact ⟨⟨hp.1, hI⟩, fun r => ih r (hp.2 r) (hstep h o r hI hp.1)⟩

/-! ### Uninterrupted runs -/

/-- A program run to its end on its own: each operation acts on the state that
the one before it has left. -/
def alone {σ : Type} (exec : σ → (o : S.Op) → σ × S.Ret o) : Program S α → σ → σ × α
  | .ret a, s => (s, a)
  | .call o k, s => (k (exec s o).2).alone exec (exec s o).1

section
variable {σ : Type} {exec : σ → (o : S.Op) → σ × S.Ret o}

@[simp] theorem alone_pure (a : α) (s : σ) : (pure a : Program S α).alone exec s = (s, a) := rfl

@[simp] theorem alone_perform_bind (o : S.Op) (f : S.Ret o → Program S β) (s : σ) :
    (perform o >>= f).alone exec s = (f (exec s o).2).alone exec (exec s o).1 := rfl

theorem alone_bind (p : Program S α) (f : α → Program S β) (s : σ) :
    (p >>= f).alone exec s = (f (p.alone exec s).2).alone exec (p.alone exec s).1 := by
  induction p generalizing s with
  | ret a => rfl
  | call o k ih => exact ih (exec s o).2 (exec s o).1

/-- A guarded program that runs on its own, on a state that keeps its history,
performs what is allowed and ends as its postcondition says. -/
theorem Guarded.alone {log : σ → History S} {I : σ → Prop}
    (hlog : ∀ s o, log (exec s o).1 = ⟨o, (exec s o).2⟩ :: log s)
    (hstep : ∀ s o, I s → G (log s) o → I (exec s o).1) {p : Program S β} {s : σ}
    (hp : Guarded G Q (log s) p) (hs : I s) :
    I (p.alone exec s).1 ∧ Q (log (p.alone exec s).1) (p.alone exec s).2 := by
  induction p generalizing s with
  | ret a => exact ⟨hs, hp⟩
  | call o k ih =>
      refine ih (exec s o).2 ?_ (hstep s o hs hp.1)
      rw [hlog]
      exact hp.2 _

end

end Program

/-! ### Programs inside larger programs -/

/-- The operations of `S` as some of the operations of `T`. -/
structure Embedding (S T : Signature) where
  op : S.Op → T.Op
  down : ∀ o, T.Ret (op o) → S.Ret o
  up : ∀ o, S.Ret o → T.Ret (op o)
  up_down : ∀ o r, up o (down o r) = r

namespace Embedding

variable {S T : Signature} (φ : Embedding S T)

def answered (x : Answered S) : Answered T := ⟨φ.op x.op, φ.up x.op x.ret⟩

end Embedding

namespace Program

variable {S T : Signature} {α : Type}

/-- The same program, its operations taken as operations of `T`. -/
def lift (φ : Embedding S T) : Program S α → Program T α
  | .ret a => .ret a
  | .call o k => .call (φ.op o) fun r => (k (φ.down o r)).lift φ

/-- A lifted program is guarded after any earlier history `h₀`, if the larger
guard allows what the smaller one does. -/
theorem Guarded.lift {φ : Embedding S T} {G : History S → S.Op → Prop}
    {Q : History S → α → Prop} {G' : History T → T.Op → Prop} {Q' : History T → α → Prop}
    {h : History S} {h₀ : History T} {p : Program S α} (hp : Guarded G Q h p)
    (hG : ∀ h o, G h o → G' (h.map φ.answered ++ h₀) (φ.op o))
    (hQ : ∀ h a, Q h a → Q' (h.map φ.answered ++ h₀) a) :
    Guarded G' Q' (h.map φ.answered ++ h₀) (p.lift φ) := by
  induction p generalizing h with
  | ret a => exact hQ h a hp
  | call o k ih =>
      refine ⟨hG h o hp.1, fun r => ?_⟩
      have hr := ih (φ.down o r) (hp.2 (φ.down o r))
      simpa only [List.map_cons, Embedding.answered, φ.up_down, List.cons_append] using hr

/-- The same for a program that starts afresh. -/
theorem Guarded.embed {φ : Embedding S T} {G : History S → S.Op → Prop}
    {Q : History S → α → Prop} {G' : History T → T.Op → Prop} {Q' : History T → α → Prop}
    {h₀ : History T} {p : Program S α} (hp : Guarded G Q [] p)
    (hG : ∀ h o, G h o → G' (h.map φ.answered ++ h₀) (φ.op o))
    (hQ : ∀ h a, Q h a → Q' (h.map φ.answered ++ h₀) a) : Guarded G' Q' h₀ (p.lift φ) :=
  hp.lift hG hQ

/-! ### Operations replaced by programs -/

theorem bind_assoc {β γ : Type} (p : Program S α) (f : α → Program S β)
    (g : β → Program S γ) : p >>= f >>= g = p >>= fun a => f a >>= g := by
  induction p with
  | ret a => rfl
  | call o k ih => exact congrArg (Program.call o) (funext fun r => ih r)

/-- The program `p` with `f o` in the place of every operation `o`. -/
def interp (f : (o : S.Op) → Program T (S.Ret o)) : Program S α → Program T α
  | .ret a => .ret a
  | .call o k => f o >>= fun r => (k r).interp f

section
variable {β : Type} {f : (o : S.Op) → Program T (S.Ret o)}

@[simp] theorem interp_pure (a : α) : (pure a : Program S α).interp f = pure a := rfl

@[simp] theorem interp_perform_bind (o : S.Op) (k : S.Ret o → Program S α) :
    (perform o >>= k).interp f = f o >>= fun r => (k r).interp f := rfl

theorem interp_bind (p : Program S α) (k : α → Program S β) :
    (p >>= k).interp f = p.interp f >>= fun a => (k a).interp f := by
  induction p with
  | ret a => rfl
  | call o k' ih =>
      change (f o >>= fun r => (k' r >>= k).interp f) = _
      simp only [ih]
      exact (bind_assoc _ _ _).symm

end

/-- `p.Returns h a`: when `p` performs the operations of `h` and gets their
answers, it has come to its end and returned `a`. -/
inductive Returns : Program S α → History S → α → Prop
  | ret (a : α) : Returns (.ret a) [] a
  | call {o : S.Op} {k : S.Ret o → Program S α} {r : S.Ret o} {h : History S} {a : α}
      (hk : Returns (k r) h a) : Returns (.call o k) (h ++ [⟨o, r⟩]) a

/-- The answers determine what a program returns. -/
theorem Returns.unique {p : Program S α} {h : History S} {a b : α} (ha : p.Returns h a)
    (hb : p.Returns h b) : a = b := by
  induction ha with
  | ret a =>
      cases hb
      rfl
  | @call o k r h a _ ih =>
      generalize hh : h ++ [⟨o, r⟩] = h' at hb
      cases hb with
      | @call _ _ r' h'' _ hb =>
          obtain ⟨rfl, hr⟩ := List.append_inj' hh rfl
          cases hr
          exact ih hb

/-- A program with an operation left has not returned. -/
theorem Returns.ne_nil {o : S.Op} {k : S.Ret o → Program S α} {h : History S} {a : α}
    (hret : (Program.call o k).Returns h a) : h ≠ [] := by
  cases hret
  simp

theorem Returns.of_perform {o : S.Op} {h : History S} {r : S.Ret o}
    (hret : (perform o : Program S (S.Ret o)).Returns h r) : h = [⟨o, r⟩] := by
  cases hret with
  | call hret =>
      cases hret
      rfl

/-- A lifted program returns what the program itself returns. -/
theorem Returns.of_lift {φ : Embedding S T} {p : Program S α} {h : History T} {a : α}
    (hret : (p.lift φ).Returns h a) : ∃ h', h = h'.map φ.answered ∧ p.Returns h' a := by
  induction p generalizing h with
  | ret a =>
      cases hret
      exact ⟨[], rfl, .ret a⟩
  | call o k ih =>
      cases hret with
      | @call _ _ r h' _ hret =>
          obtain ⟨h', rfl, ha⟩ := ih (φ.down o r) hret
          refine ⟨h' ++ [⟨o, φ.down o r⟩], ?_, .call ha⟩
          simp [Embedding.answered, φ.up_down]

/-- `p.Leads h q`: when `p` performs the operations of `h` and gets their answers, `q` is
what is left of it. -/
inductive Leads (p : Program S α) : History S → Program S α → Prop
  | start : Leads p [] p
  | step {h : History S} {o : S.Op} {k : S.Ret o → Program S α} (hp : Leads p h (.call o k))
      (r : S.Ret o) : Leads p (⟨o, r⟩ :: h) (k r)

theorem Leads.trans {p q q' : Program S α} {h h' : History S} (hp : p.Leads h q)
    (hq : q.Leads h' q') : p.Leads (h' ++ h) q' := by
  induction hq with
  | start => exact hp
  | step _ r ih => exact ih.step r

/-- The first part of a sequence leads to the second. -/
theorem Returns.leads_bind {β : Type} {p : Program S α} {h : History S} {a : α}
    (hret : p.Returns h a) (f : α → Program S β) : (p >>= f).Leads h (f a) := by
  induction hret with
  | ret a => exact .start
  | @call o k r h a _ ih =>
      have hstart := Leads.start (p := Program.call o fun r => k r >>= f)
      exact (hstart.step r).trans ih

/-- A sequence returns what its second part returns, and the first leads there. -/
theorem Returns.of_bind {β : Type} {p : Program S α} {f : α → Program S β} {h : History S} {b : β}
    (hret : (p >>= f).Returns h b) :
    ∃ h₁ h₂ a, h = h₂ ++ h₁ ∧ p.Returns h₁ a ∧ (p >>= f).Leads h₁ (f a) ∧
      (f a).Returns h₂ b := by
  induction p generalizing h with
  | ret a => exact ⟨[], h, a, by simp, .ret a, .start, hret⟩
  | call o k ih =>
      generalize hp : Program.call o k >>= f = p at hret
      cases hret with
      | ret => cases hp
      | @call _ _ r h' _ hret =>
          cases hp
          obtain ⟨h₁, h₂, a, rfl, ha, -, hb⟩ := ih r hret
          have hcall : (Program.call o k).Returns (h₁ ++ [⟨o, r⟩]) a := .call ha
          exact ⟨_, h₂, a, by simp, hcall, hcall.leads_bind f, hb⟩

/-- What is left of a program returns what the program returns. -/
theorem Leads.returns {p q : Program S α} {h₀ h : History S} {a : α} (hl : p.Leads h₀ q)
    (hp : p.Returns (h ++ h₀) a) : q.Returns h a := by
  induction hl generalizing h with
  | start => simpa using hp
  | @step h₀ o k _ r ih =>
      have hcall : (Program.call o k).Returns (h ++ [⟨o, r⟩]) a := ih (by simpa using hp)
      generalize hh : h ++ [⟨o, r⟩] = h' at hcall
      cases hcall with
      | @call _ _ r' h'' _ hk =>
          obtain ⟨rfl, hr⟩ := List.append_inj' hh rfl
          cases hr
          exact hk

/-- A program ends with what it has returned, and with that as the latest part
of the history. -/
theorem Guarded.returns {G : History S → S.Op → Prop} {Q : History S → α → Prop}
    {h₀ : History S} {p : Program S α} (hp : Guarded G Q h₀ p) :
    Guarded G (fun h a => Q h a ∧ ∃ hk, h = hk ++ h₀ ∧ p.Returns hk a) h₀ p := by
  induction p generalizing h₀ with
  | ret a => exact ⟨hp, [], rfl, .ret a⟩
  | call o k ih =>
      refine ⟨hp.1, fun r => (ih r (hp.2 r)).mono (fun _ _ hG => hG) ?_⟩
      rintro h a ⟨hQ, hk, rfl, hret⟩
      exact ⟨hQ, hk ++ [⟨o, r⟩], by simp, .call hret⟩

end Program

end Interleaving
