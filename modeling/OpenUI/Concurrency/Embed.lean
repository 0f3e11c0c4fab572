import OpenUI.Concurrency.Program

/-!
# `OpenUI.Concurrency.Embed`: a component's program inside a system

The actions of a component are some of the actions of the system it is in, in a constructor that
takes any of them; so the system's actions may live in a larger universe. `Program.embed` performs a
program of the component inside the system.

`Discipline.wp_embed` carries over what was proved about the component on its own: the system's
contexts are related to the component's, and an action that the component may perform is one that
the system may.
-/

set_option autoImplicit false

universe u v

namespace OpenUI.Concurrency

namespace Program

variable {A : Type → Type u} {B : Type → Type v} {α β : Type}

/-- The program with every action replaced by one of the system's. -/
def embed (f : {γ : Type} → A γ → B γ) : Program A α → Program B α
  | .pure a => .pure a
  | .act a k => .act (f a) fun r => (k r).embed f

end Program

namespace Discipline

variable {A : Type → Type u} {B : Type → Type v} {C C' W W' α : Type}

/-- **A part keeps its discipline inside a system.** `S` relates the contexts of the two. -/
theorem wp_embed {D : Discipline A C W} {D' : Discipline B C' W'}
    {f : {γ : Type} → A γ → B γ} {S : C → C' → Prop}
    (hok : ∀ {γ : Type} {a : A γ} {c c'}, S c c' → D.ok c a → D'.ok c' (f a))
    (hfacts : ∀ {γ : Type} {a : A γ} {c c' r}, S c c' → D'.facts c' (f a) r → D.facts c a r)
    (hafter : ∀ {γ : Type} {a : A γ} {c c' r} (w' : W'), S c c' → D.ok c a →
      ∃ w, S (D.after c a r w) (D'.after c' (f a) r w'))
    {p : Program A α} {Q : C → α → Prop} {Q' : C' → α → Prop} {c : C} {c' : C'}
    (hQ : ∀ {c c' a}, S c c' → Q c a → Q' c' a) (hS : S c c') (h : D.wp p Q c) :
    D'.wp (p.embed f) Q' c' := by
  induction p generalizing c c' with
  | pure a => exact hQ hS h
  | act a k ih =>
    obtain ⟨hallowed, hrest⟩ := h
    refine ⟨hok hS hallowed, fun r w' hr => ?_⟩
    obtain ⟨w, hnext⟩ := hafter (r := r) w' hS hallowed
    exact ih r hnext (hrest r w (hfacts hS hr))

end Discipline

end OpenUI.Concurrency
