import OpenUI.Concurrency.Fallible
import OpenUI.Shell.Script

/-!
# `OpenUI.Shell.Processes`: scripts as processes

Shells that run at the same time take turns, one command at a time. `process` is what one of them
does: the commands of its script, then the action of the trap that is set when the script returns,
then its exit. A `Discipline` of the turns is proved of a script by the rules below.

* `wpExcept_require_bind`, `wpExcept_status_bind`, `wpExcept_ask_bind`, `wpExcept_trap_bind`,
  `wpExcept_each`: one command or one loop at a time.
* `wp_process`: from the script to the shell that runs it.
-/

set_option autoImplicit false

namespace OpenUI.Shell

open OpenUI.Concurrency

variable {L : Type} {α β : Type}

/-- What a shell does in one turn. -/
inductive Turn (L : Type) : Type → Type 1 where
  | call {β : Type} (call : Call L β) : Turn L β
  | exit : Turn L Unit

/-- The action that is set after a call. -/
def Call.trapped : {β : Type} → Call L β → Option (List (Step L)) → Option (List (Step L))
  | _, .run _ _, action => action
  | _, .trap _ action, _ => action

/-- The action of a trap, under `set -e`. -/
def clean : List (Step L) → Program (Turn L) Unit
  | [] => pure ()
  | s :: rest => do
    let done ← Turn.call (.run s.point s.operation)
    if done || s.ignored then clean rest else pure ()

/-- The script has returned. -/
def close (action : Option (List (Step L))) : Program (Turn L) Unit := do
  clean (action.getD [])
  (Turn.exit : Turn L Unit)

/-- A shell that runs a script. -/
def process : Program (Call L) α → Option (List (Step L)) → Program (Turn L) Unit
  | .pure _, action => close action
  | .act a k, action => .act (.call a) fun r => process (k r) (a.trapped action)

/-! ### The rules -/

variable {C W : Type}

/-- The discipline of the commands of a script. -/
def commands (D : Discipline (Turn L) C W) : Discipline (Call L) C W where
  ok c a := D.ok c (.call a)
  facts c a r := D.facts c (.call a) r
  after c a r w := D.after c (.call a) r w

/-- A shell keeps a discipline when its script does, and what comes after the script. -/
theorem wp_process {D : Discipline (Turn L) C W} (trapOf : C → Option (List (Step L)))
    (htrap : ∀ {β : Type} (c : C) (a : Call L β) (r : β) (w : W),
      trapOf (D.after c (.call a) r w) = a.trapped (trapOf c))
    {p : Program (Call L) α} {Q : C → α → Prop} {R : C → Unit → Prop} {c : C}
    (h : (commands D).wp p Q c) (hQ : ∀ c r, Q c r → D.wp (close (trapOf c)) R c) :
    D.wp (process p (trapOf c)) R c := by
  induction p generalizing c with
  | pure a => exact hQ c a h
  | act a k ih =>
    refine ⟨h.1, fun r w hr => ?_⟩
    have hrest := ih r (h.2 r w hr)
    rw [show trapOf ((commands D).after c a r w) = a.trapped (trapOf c) from htrap c a r w] at hrest
    exact hrest

section Script

variable {D : Discipline (Call L) C W} {Q : C → α → Prop} {E : C → Nat → Prop} {c : C}

theorem wpExcept_status_bind {point : L} {o : Operation} {f : Bool → Script L α}
    (hok : D.ok c (.run point o))
    (hrest : ∀ done w, D.facts c (.run point o) done →
      D.wpExcept (f done) Q E (D.after c (.run point o) done w)) :
    D.wpExcept (Script.status point o >>= f) Q E c := ⟨hok, hrest⟩

theorem wpExcept_require {Q : C → Unit → Prop} {point : L} {o : Operation}
    (hok : D.ok c (.run point o))
    (hdone : ∀ w, D.facts c (.run point o) true → Q (D.after c (.run point o) true w) ())
    (hfail : ∀ w, D.facts c (.run point o) false → E (D.after c (.run point o) false w) 1) :
    D.wpExcept (Script.require point o) Q E c := by
  refine ⟨hok, fun done w hfacts => ?_⟩
  cases done with
  | true => exact hdone w hfacts
  | false => exact hfail w hfacts

theorem wpExcept_require_bind {point : L} {o : Operation} {f : Unit → Script L α}
    (hok : D.ok c (.run point o))
    (hdone : ∀ w, D.facts c (.run point o) true →
      D.wpExcept (f ()) Q E (D.after c (.run point o) true w))
    (hfail : ∀ w, D.facts c (.run point o) false → E (D.after c (.run point o) false w) 1) :
    D.wpExcept (Script.require point o >>= f) Q E c :=
  (Discipline.wpExcept_bind _ _).mpr (wpExcept_require hok hdone hfail)

theorem wpExcept_ask_bind {point : L} {holds : FileTree → Bool} {f : Bool → Script L α}
    (hok : D.ok c (.run point (.test holds)))
    (hrest : ∀ yes w, D.wpExcept (f yes) Q E (D.after c (.run point (.test holds)) yes w)) :
    D.wpExcept (Script.ask point holds >>= f) Q E c :=
  wpExcept_status_bind hok fun yes w _ => hrest yes w

theorem wpExcept_trap {Q : C → Unit → Prop} {point : L} {action : Option (List (Step L))}
    (hok : D.ok c (.trap point action)) (hrest : ∀ w, Q (D.after c (.trap point action) () w) ()) :
    D.wpExcept (Script.trap point action) Q E c := ⟨hok, fun _ w _ => hrest w⟩

theorem wpExcept_trap_bind {point : L} {action : Option (List (Step L))} {f : Unit → Script L α}
    (hok : D.ok c (.trap point action))
    (hrest : ∀ w, D.wpExcept (f ()) Q E (D.after c (.trap point action) () w)) :
    D.wpExcept (Script.trap point action >>= f) Q E c := ⟨hok, fun _ w _ => hrest w⟩

/-- A loop whose rounds leave the record as it is. -/
theorem wpExcept_each {body : β → Script L Unit} {all : List β}
    (hbody : ∀ b ∈ all, D.wpExcept (body b) (fun c' _ => c' = c) E c) :
    D.wpExcept (Script.each body all) (fun c' _ => c' = c) E c := by
  induction all with
  | nil => exact rfl
  | cons b rest ih =>
    refine (Discipline.wpExcept_bind _ _).mpr ?_
    refine D.wp_mono (hbody b List.mem_cons_self) fun c' r hr => ?_
    cases r with
    | error n => exact hr
    | ok u =>
      obtain rfl : c' = c := hr
      exact ih fun b' hb' => hbody b' (List.mem_cons_of_mem b hb')

end Script

end OpenUI.Shell
