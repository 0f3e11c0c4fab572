/-!
# `OpenUI.Concurrency.Program`: thread programs over atomic actions

A thread is a program that performs one atomic action after another. `Program A α` keeps the
program's shape and leaves the meaning of the actions `A β` open: a node is an action together
with the rest of the program for each of its results. Nothing here knows what an action does.

A `Discipline` says what a thread may do and what it may rely on. `ok` is the obligation of the
program before an action, `facts` is what it may assume about the action's result, and `after`
is the thread's context once the action returned. `Discipline.wp` is the weakest precondition of
a program under a discipline, and the rules below are the ones proofs use:

* `wp_bind`: a sequence, one part at a time;
* `wp_mono`: a weaker postcondition;
* `Triple.bind`, `Triple.use`: the triples of the called parts.
-/

set_option autoImplicit false

universe u

namespace OpenUI.Concurrency

/-- A program that performs atomic actions of the family `A` and returns an `α`. -/
inductive Program (A : Type → Type u) (α : Type) : Type (max 1 u) where
  | pure (value : α)
  | act {β : Type} (action : A β) (next : β → Program A α)

namespace Program

variable {A : Type → Type u} {α β : Type}

/-- Sequential composition. The continuation is pushed below every result. -/
protected def bind (p : Program A α) (f : α → Program A β) : Program A β :=
  match p with
  | .pure a => f a
  | .act a k => .act a (fun r => (k r).bind f)

instance : Monad (Program A) where
  pure := .pure
  bind := Program.bind

/-- One action on its own is a program. -/
instance : MonadLift A (Program A) := ⟨fun a => .act a .pure⟩

/-- Sequences regroup. -/
theorem bind_assoc {γ : Type} (p : Program A α) (f : α → Program A β) (g : β → Program A γ) :
    p >>= f >>= g = p >>= fun a => f a >>= g := by
  induction p with
  | pure a => rfl
  | act a k ih => exact congrArg (Program.act a) (funext ih)

end Program

/-- What a thread may do (`ok`), what it may assume about a result (`facts`) and how its context
moves (`after`, which may look at the world the action ran in). -/
structure Discipline (A : Type → Type u) (C W : Type) where
  ok : {β : Type} → C → A β → Prop
  facts : {β : Type} → C → A β → β → Prop
  after : {β : Type} → C → A β → β → W → C

namespace Discipline

variable {A : Type → Type u} {C W α β : Type} (D : Discipline A C W)

/-- The weakest precondition of `p` for `Q`: every action on the way is allowed, whatever the
results, and the context at the end satisfies `Q`. -/
def wp : Program A α → (C → α → Prop) → C → Prop
  | .pure a, Q, c => Q c a
  | .act a k, Q, c => D.ok c a ∧ ∀ r w, D.facts c a r → wp (k r) Q (D.after c a r w)

@[simp] theorem wp_pure (a : α) (Q : C → α → Prop) (c : C) :
    D.wp (pure a) Q c = Q c a := rfl

@[simp] theorem wp_pure' (a : α) (Q : C → α → Prop) (c : C) :
    D.wp (.pure a) Q c = Q c a := rfl

@[simp] theorem wp_lift (a : A β) (Q : C → β → Prop) (c : C) :
    D.wp (liftM a) Q c = (D.ok c a ∧ ∀ r w, D.facts c a r → Q (D.after c a r w) r) := rfl

/-- A sequence is checked one part at a time. -/
@[simp] theorem wp_bind (p : Program A α) (f : α → Program A β) (Q : C → β → Prop) (c : C) :
    D.wp (p >>= f) Q c ↔ D.wp p (fun c' a => D.wp (f a) Q c') c := by
  induction p generalizing c with
  | pure a => rfl
  | act a k ih =>
      show (D.ok c a ∧ ∀ r w, D.facts c a r → D.wp (k r >>= f) Q (D.after c a r w)) ↔ _
      simp only [ih]
      rfl

/-- A weaker postcondition follows. -/
theorem wp_mono {p : Program A α} {Q Q' : C → α → Prop} {c : C}
    (h : D.wp p Q c) (hQ : ∀ c' a, Q c' a → Q' c' a) : D.wp p Q' c := by
  induction p generalizing c with
  | pure a => exact hQ c a h
  | act a k ih => exact ⟨h.1, fun r w hr => ih r (h.2 r w hr)⟩

/-- `p` may be run from every context in `P`, and ends in `Q`. -/
def Triple (P : C → Prop) (p : Program A α) (Q : C → α → Prop) : Prop :=
  ∀ c, P c → D.wp p Q c

variable {D}

/-- The triple of a part, used in the middle of a larger program. -/
theorem Triple.use {P : C → Prop} {p : Program A α} {Q Q' : C → α → Prop} {c : C}
    (h : D.Triple P p Q) (hP : P c) (hQ : ∀ c' a, Q c' a → Q' c' a) : D.wp p Q' c :=
  D.wp_mono (h c hP) hQ

/-- The triples of two parts give the triple of their sequence. -/
theorem Triple.bind {P : C → Prop} {p : Program A α} {Q : C → α → Prop} {f : α → Program A β}
    {R : C → β → Prop} (h : D.Triple P p Q) (hf : ∀ a, D.Triple (fun c => Q c a) (f a) R) :
    D.Triple P (p >>= f) R := fun c hc =>
  (D.wp_bind p f R c).mpr (h.use hc fun c' a hQ => hf a c' hQ)

end Discipline

end OpenUI.Concurrency
