import Mathlib.Logic.Basic
import Mathlib.Data.List.Basic

/-!
# `OpenUI.Concurrency.Reducer`: sequences of actions on one state

A component that takes one action after another is a function `f` from a state and an action to a
state. `Along f P s as` says that every action of `as` meets `P` in the state it finds. A condition
on the steps of a run and a property of the steps of a run are both such statements.

* `Along.lift`: every step of a run under a condition has what an invariant gives it.
* `along_iff_under`, `along_iff`: when the condition is exactly what one step needs to keep the
  invariant, it is exactly what a run needs.
-/

set_option autoImplicit false

universe u v

namespace OpenUI.Concurrency

variable {S : Type u} {A : Type v}

/-- Every action of the list meets `P` in the state it finds. -/
def Along (f : S → A → S) (P : S → A → Prop) : S → List A → Prop
  | _, [] => True
  | s, a :: as => P s a ∧ Along f P (f s a) as

variable {f : S → A → S} {P C : S → A → Prop} {I : S → Prop}

/-- Every step has what the invariant gives it. -/
theorem Along.lift {s : S} {as : List A} (h : Along f C s as) (hi : I s)
    (hs : ∀ s a, I s → C s a → I (f s a)) (hp : ∀ s a, I s → C s a → P s a) : Along f P s as := by
  induction as generalizing s with
  | nil => trivial
  | cons a as ih => exact ⟨hp s a hi h.1, ih h.2 (hs s a hi h.1)⟩

/-- A condition that says exactly when a step keeps `I`, where `J` holds throughout, says exactly
when a run does. -/
theorem along_iff_under {J : S → Prop} {s : S} {as : List A} (hj : J s) (hi : I s)
    (hJ : ∀ s a, J s → J (f s a)) (hs : ∀ s a, J s → I s → (I (f s a) ↔ C s a)) :
    Along f (fun s a => I (f s a)) s as ↔ Along f C s as := by
  induction as generalizing s with
  | nil => exact Iff.rfl
  | cons a as ih =>
    rw [Along, Along, ← hs s a hj hi]
    exact and_congr_right fun h => ih (hJ s a hj) h

/-- A condition that says exactly when a step keeps the invariant says exactly when a run does. -/
theorem along_iff {s : S} {as : List A} (hi : I s) (hs : ∀ s a, I s → (I (f s a) ↔ C s a)) :
    Along f (fun s a => I (f s a)) s as ↔ Along f C s as :=
  along_iff_under (J := fun _ => True) trivial hi (fun _ _ _ => trivial) fun s a _ => hs s a

/-- What every step keeps holds at the end of every run. -/
theorem foldl_invariant {s : S} {as : List A} (hi : I s) (hs : ∀ s a, I s → I (f s a)) :
    I (as.foldl f s) := by
  induction as generalizing s with
  | nil => exact hi
  | cons a as ih => exact ih (hs s a hi)

end OpenUI.Concurrency
