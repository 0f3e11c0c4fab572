import OpenUI.Concurrency.Machine
import OpenUI.Deploy.Transaction
import OpenUI.Shell.Processes

/-!
# `OpenUI.Deploy.Invocations`: several invocations at a time

Any number of invocations of `transaction.sh` run on one device, and their commands interleave. An
invocation may begin at any time with an id that no running invocation has, and it runs to its end:
nothing here interrupts one.

A record is kept of what each invocation has achieved. It is written at the points of its commands
and decides nothing.
-/

set_option autoImplicit false

namespace OpenUI.Deploy

open OpenUI.Concurrency OpenUI.Shell

/-- The arguments of an invocation. -/
structure Invocation where
  action : Action
  id : String
  identity : String

/-- The device's files, and the ids of the invocations that run. -/
structure Files where
  tree : FileTree
  running : List String := []

/-- Where an invocation stands. -/
structure Standing where
  id : String
  live : Bool := true
  /-- It is past its lock and ownership checks: it has made the lock, or has seen that the lock or
  the active marker is its own. -/
  past : Bool := false
  /-- The lock's owner is its id. -/
  owns : Bool := false
  /-- The active marker is its id. -/
  marked : Bool := false
  /-- There is no active marker. -/
  cleared : Bool := false
  /-- `active.new` is its id. -/
  announced : Bool := false
  trap : Option (List (Step Point)) := none

/-- A command succeeded. -/
def Standing.passed (c : Standing) : Point → Standing
  | .lock => { c with past := true, cleared := true }
  | .relock => { c with past := true, cleared := true }
  | .owned => { c with past := true, owns := true }
  | .own => { c with past := true, owns := true, marked := true, cleared := false }
  | .owner => { c with owns := true }
  | .reowner => { c with owns := true }
  | .activeNew => { c with announced := true }
  | .active => { c with announced := false, cleared := false }
  | .remark => { c with marked := true, cleared := false }
  | .unmark => { c with marked := false, cleared := true }
  | .undoOwner => { c with owns := false }
  | .wipeOwner => { c with owns := false }
  | .unown => { c with owns := false }
  | .undoLock => { c with past := false }
  | .wipeLock => { c with past := false }
  | .unlock => { c with past := false }
  | _ => c

/-- Where an invocation stands after a turn. -/
def Standing.after {β : Type} (c : Standing) : Turn Point β → β → Files → Standing
  | .call (.run point _), done, _ => if done then c.passed point else c
  | .call (.trap _ action), _, _ => { c with trap := action }
  | .exit, _, _ => { c with live := false, past := false }

/-- A turn. -/
def turn {β : Type} : Turn Point β → Standing → Unit → Files → Option (β × Files)
  | .call (.run _ o), _, _, w => some ((o.exec w.tree).1, { w with tree := (o.exec w.tree).2 })
  | .call (.trap _ _), _, _, w => some ((), w)
  | .exit, c, _, w => some ((), { w with running := w.running.filter (· ≠ c.id) })

/-- The shell of an invocation. -/
def shell (device : Device) (invocation : Invocation) : Program (Turn Point) (Next Invocation) := do
  process (invoke device invocation.action invocation.id invocation.identity).run none
  return .stop

/-- `begin`, `restore` or `complete`, with an id that is not in use. An id is a UUID, and never the
name of a marker. -/
def Invocation.admitted (invocation : Invocation) (w : Files) : Bool :=
  invocation.action != .discardIncomplete && !w.running.contains invocation.id &&
    !(["lock", "active"].contains invocation.id)

/-- The invocations on a device. -/
def invocations (device : Device) :
    Machine (Turn Point) Standing Files Invocation Unit Invocation where
  exec := turn
  after := Standing.after
  spawns _ _ _ := []
  body := shell device
  occur x w :=
    if x.admitted w then
      some ⟨{ w with running := x.id :: w.running }, false, [(x, { id := x.id })]⟩
    else none

/-- A device before any of the invocations. -/
def device₀ (t : FileTree) : State (Turn Point) Standing Files Invocation := ⟨{ tree := t }, []⟩

end OpenUI.Deploy
