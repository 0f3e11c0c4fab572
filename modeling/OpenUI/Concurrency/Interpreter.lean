import OpenUI.Concurrency.Program

/-!
# `OpenUI.Concurrency.Interpreter`: a program run by itself

`Program.interpret` runs a program to its end. A handler answers each action from a state `S` and
moves the state. Nothing else takes a turn meanwhile, so the handler's state has to hold whatever
the environment is going to answer.

* `interpret_pure`, `interpret_bind`, `interpret_lift`: a program's parts, one after another.
* `Outcome`: what holds where a program that may fail ends. `Outcome.bind` takes a sequence apart.
-/

set_option autoImplicit false

universe u

namespace OpenUI.Concurrency

/-- What a handler makes of an action: its result and the next state. -/
abbrev Handler (A : Type → Type u) (S : Type) := {β : Type} → A β → S → β × S

namespace Program

variable {A : Type → Type u} {S α β : Type}

/-- Runs a program to its end. -/
def interpret (handle : Handler A S) : Program A α → S → α × S
  | .pure a, s => (a, s)
  | .act a k, s => interpret handle (k (handle a s).1) (handle a s).2

variable (handle : Handler A S)

@[simp] theorem interpret_pure (a : α) (s : S) :
    interpret handle (pure a : Program A α) s = (a, s) := rfl

@[simp] theorem interpret_lift (a : A β) (s : S) :
    interpret handle (liftM a) s = handle a s := rfl

/-- A sequence runs one part after the other. -/
@[simp] theorem interpret_bind (p : Program A α) (f : α → Program A β) (s : S) :
    interpret handle (p >>= f) s =
      interpret handle (f (interpret handle p s).1) (interpret handle p s).2 := by
  induction p generalizing s with
  | pure a => rfl
  | act a k ih => exact ih _ _

/-! ### Programs that may fail -/

section Failing

variable {ε : Type}

/-- From `s`, the program ends without an error in `Q`, or with one in `F`. -/
def Outcome (p : ExceptT ε (Program A) α) (s : S) (Q : α → S → Prop) (F : ε → S → Prop) : Prop :=
  match interpret handle p.run s with
  | (.ok a, s') => Q a s'
  | (.error e, s') => F e s'

variable {handle} {Q : α → S → Prop} {F : ε → S → Prop} {s : S}

theorem Outcome.pure {a : α} (h : Q a s) :
    Outcome handle (Pure.pure a : ExceptT ε (Program A) α) s Q F := h

theorem Outcome.throw {e : ε} (h : F e s) :
    Outcome handle (MonadExcept.throw e : ExceptT ε (Program A) α) s Q F := h

/-- A sequence ends where its first part fails, or where the rest of it ends. -/
theorem Outcome.bind {p : ExceptT ε (Program A) β} {f : β → ExceptT ε (Program A) α}
    (h : Outcome handle p s (fun b s' => Outcome handle (f b) s' Q F) F) :
    Outcome handle (p >>= f) s Q F := by
  have hbind : interpret handle (p >>= f).run s =
      interpret handle (ExceptT.bindCont f (interpret handle p.run s).1)
        (interpret handle p.run s).2 := interpret_bind handle p.run (ExceptT.bindCont f) s
  unfold Outcome at h ⊢
  rw [hbind]
  split at h
  · rename_i hp
    rw [hp]
    exact h
  · rename_i hp
    rw [hp]
    exact h

/-- A weaker outcome follows. -/
theorem Outcome.mono {p : ExceptT ε (Program A) α} {Q' : α → S → Prop} {F' : ε → S → Prop}
    (h : Outcome handle p s Q F) (hQ : ∀ a s', Q a s' → Q' a s') (hF : ∀ e s', F e s' → F' e s') :
    Outcome handle p s Q' F' := by
  unfold Outcome at h ⊢
  split at h
  · exact hQ _ _ h
  · exact hF _ _ h

/-- One action does not fail. -/
theorem Outcome.lift {a : A α} (h : Q (handle a s).1 (handle a s).2) :
    Outcome handle (ExceptT.lift (liftM a) : ExceptT ε (Program A) α) s Q F := h

end Failing

end Program

end OpenUI.Concurrency
