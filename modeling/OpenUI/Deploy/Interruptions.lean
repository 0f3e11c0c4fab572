import Mathlib.Logic.Relation
import OpenUI.Deploy.Invocations
import OpenUI.Shell.Signals

/-!
# `OpenUI.Deploy.Interruptions`: a device that loses its power

One invocation of `transaction.sh` comes after the other. Each is run to its end, or the power fails
before one of its commands or inside one, so that no trap runs. Between them a deployment, and
whatever else there is, changes the files outside the transactions' directory.

`Happens` takes the cuts that are looked at as a parameter. `Invocation.spares` says which ones a
later invocation can recover from.
-/

set_option autoImplicit false

namespace OpenUI.Deploy

open OpenUI.Shell OpenUI.Shell.FileTree OpenUI.Shell.Weather

/-- A device's files, and the transactions that were begun on it, with their identities. -/
structure Past where
  tree : FileTree
  begun : List (String × String) := []

/-- The transactions that were begun, after an invocation. -/
def Past.noting (past : Past) (x : Invocation) : List (String × String) :=
  if x.action = .begin then (x.id, x.identity) :: past.begun else past.begun

/-- An id is a UUID, never the name of a marker, and a `begin` has a new one. -/
def Past.admits (past : Past) (x : Invocation) : Prop :=
  x.id ∉ ["lock", "active"] ∧ (x.action = .begin → x.id ∉ past.begun.map Prod.fst)

/-- An invocation that is run to its end. -/
def finish (device : Device) (x : Invocation) (t : FileTree) : Ending × FileTree :=
  calm.ending (invoke device x.action x.id x.identity) ⟨t, none⟩

/-- Every target is nothing, or of its kind: a directory or not. -/
def Docile (kind : Target → Bool) (t : FileTree) : Prop :=
  ∀ target ∈ targets, get target t = none ∨ (get target t).isDirectory = kind target

/-- What happens on a device. -/
inductive Happens (device : Device) (kind : Target → Bool)
    (allowed : Invocation → Cut Point → Prop) : Past → Past → Prop where
  /-- Files change outside the transactions' directory. The targets keep their kinds, and the
  directories they are in stay. -/
  | changed (past : Past) (t' : FileTree) (hbase : get base t' = get base past.tree)
      (hkind : Docile kind t')
      (habove : ∀ target ∈ targets, (get (above target) past.tree).isDirectory = true →
        (get (above target) t').isDirectory = true) :
      Happens device kind allowed past { past with tree := t' }
  | finished (past : Past) (x : Invocation) (hadmits : past.admits x) :
      Happens device kind allowed past ⟨(finish device x past.tree).2, past.noting x⟩
  | interrupted (past : Past) (x : Invocation) (hadmits : past.admits x) (c : Cut Point)
      (t' : FileTree) (hcut : CutAt (invoke device x.action x.id x.identity).run past.tree c t')
      (hallowed : allowed x c) : Happens device kind allowed past ⟨t', past.noting x⟩

/-! ### Recovery -/

/-- There is neither an active marker nor a lock. -/
def Free (t : FileTree) : Prop := get active t = none ∧ get lock t = none

/-- A new `begin` comes to its end. -/
def Admitted (device : Device) (begun : List (String × String)) (t : FileTree) : Prop :=
  ∀ id identity, validId id = true → validIdentity identity = true → id ∉ ["lock", "active"] →
    id ∉ begun.map Prod.fst → (finish device ⟨.begin, id, identity⟩ t).1 = .exited 0

/-- An invocation for the transaction comes to its end, and leaves neither marker. -/
def Recovers (device : Device) (begun : List (String × String)) (id identity : String)
    (t : FileTree) : Prop :=
  ∃ action ∈ [Action.discardIncomplete, .restore],
    (finish device ⟨action, id, identity⟩ t).1 = .exited 0 ∧
      Free (finish device ⟨action, id, identity⟩ t).2 ∧
      Admitted device begun (finish device ⟨action, id, identity⟩ t).2

/-- The device is not stuck. Without markers a new `begin` comes to its end as soon as the
transactions' directory can be made. Otherwise the transaction that has the lock can be
recovered. -/
def Unwedged (device : Device) (past : Past) : Prop :=
  Free past.tree ∧ (((Operation.mkdirs base).exec past.tree).1 = true →
    Admitted device past.begun past.tree) ∨
  ∃ id identity, (id, identity) ∈ past.begun ∧ contents owner past.tree = id ∧
    Recovers device past.begun id identity past.tree

/-- What a device is asked for succeeds: `sh -n` takes the copies of the startup scripts, and the
services stop, restart and start. -/
structure Device.Works (device : Device) : Prop where
  accepts : ∀ p t, device.accepts p t = true
  stops : ∀ service t, device.stops service t = true
  restarts : ∀ t, device.restarts t = true
  starts : ∀ service t, device.starts service t = true

/-- The text that a file written at this point is to hold, where half of it is of no use. -/
def Invocation.text (x : Invocation) : Point → Option String
  | .identity => some x.identity
  | .state => some "pending"
  | .reowner | .remark => some x.id
  | .restored => some "restored"
  | .committed => some "committed"
  | _ => none

/-- The cuts after which the transaction can be recovered: not between the lock and the identity,
not between the end of a transaction and that of its lock, not inside a write of the identity, the
state or a marker unless its text is all there, and not inside the removal of a snapshot unless its
identity is left. -/
def Invocation.spares (x : Invocation) : Cut Point → Prop
  | .before point => point ∉ [.owner, .transaction, .trap, .parts, .identity, .discardUnown,
      .discardUnlock, .reowner, .unlock]
  | .inside point left =>
    point ∉ [.lock, .owner, .transaction, .parts, .relock] ∧
      (∀ text ∈ x.text point, contents [] left = text) ∧
      (point = .discard → contents ["identity"] left = x.identity ∧ get ["state"] left = none)

end OpenUI.Deploy
