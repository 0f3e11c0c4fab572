import OpenUI.Concurrency.Program

/-!
# `OpenUI.Concurrency.Fallible`: programs that may fail

A program over `ExceptT` ends with a value or with an error. `Discipline.wpExcept` is its weakest
precondition, with a postcondition for each of the two.

* `wpExcept_bind`: the parts of a sequence, where a part that fails ends it.
* `wpExcept_ask`: one action that may fail.
-/

set_option autoImplicit false

universe u

namespace OpenUI.Concurrency.Discipline

variable {A : Type → Type u} {C W α β ε : Type} (D : Discipline A C W)

/-- Ended with a value in `Q`, or with an error in `E`. -/
def Ended (Q : C → α → Prop) (E : C → ε → Prop) (c : C) : Except ε α → Prop
  | .ok a => Q c a
  | .error e => E c e

/-- The weakest precondition of a program that may fail. -/
def wpExcept (p : ExceptT ε (Program A) α) (Q : C → α → Prop) (E : C → ε → Prop) (c : C) : Prop :=
  D.wp p.run (Ended Q E) c

variable {D} {Q : C → α → Prop} {E : C → ε → Prop} {c : C}

/-- A sequence is checked one part at a time. An error of the first part is an error of the
whole. -/
theorem wpExcept_bind (p : ExceptT ε (Program A) β) (f : β → ExceptT ε (Program A) α) :
    D.wpExcept (p >>= f) Q E c ↔ D.wpExcept p (fun c' b => D.wpExcept (f b) Q E c') E c := by
  show D.wp (p.run >>= ExceptT.bindCont f) (Ended Q E) c ↔ _
  rw [wp_bind]
  have hsame : (fun c' r => D.wp (ExceptT.bindCont f r) (Ended Q E) c') =
      Ended (fun c' b => D.wpExcept (f b) Q E c') E := by
    funext c' r
    cases r with
    | ok b => rfl
    | error e => rfl
  rw [hsame]
  rfl

/-- An action whose result is a value or an error. -/
theorem wpExcept_ask (a : A (Except ε α)) :
    D.wpExcept (ExceptT.mk (liftM a)) Q E c ↔
      D.ok c a ∧ ∀ r w, D.facts c a r → Ended Q E (D.after c a r w) r := Iff.rfl

end OpenUI.Concurrency.Discipline
