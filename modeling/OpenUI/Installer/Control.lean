import OpenUI.Concurrency.Machine
import OpenUI.Installer.Model

/-!
# `OpenUI.Installer.Control`: safe stopping boundaries

`control.rs`: five atomics and a mutex that the worker of an operation shares with the user
interface. An action is one access to them. `wait_timeout_while` is the loop of the standard
library: it looks at its condition under the mutex, and gives the mutex back while it sleeps. It may
wake at any time.

The worker calls `checkpoint`, `await_approval` and `enter_critical` in any order, and `finish` at
the end. A note is kept of what the operation and the user interface were told, the latest first.
-/

set_option autoImplicit false

namespace OpenUI.Installer.Control

open OpenUI.Concurrency

/-- A call that returns nothing or fails. -/
abbrev Outcome := Except InstallerError Unit

/-- What was done. -/
inductive Note where
  /-- An operation was started. -/
  | started
  /-- A stop returned `Ok`; an operation was running then, or not. -/
  | stopped (running : Bool)
  /-- The operation entered its critical phase. -/
  | critical
  /-- `await_approval` began to wait. -/
  | waiting
  /-- A `confirm` made its choice. -/
  | confirmed (accepted : Bool)
  /-- `await_approval` returned `Ok`. -/
  | approved
  deriving DecidableEq

/-- The fields of a `Control`, whether the mutex is held, and the notes. -/
structure World where
  running : Bool := false
  critical : Bool := false
  stopped : Bool := false
  approval : Option Bool := none
  waiting : Bool := false
  held : Bool := false
  log : List Note := []

/-- What a worker calls next. -/
inductive Next where
  | checkpoint
  | awaitApproval
  | enterCritical
  | finish
  deriving DecidableEq

/-- What a thread does at once. -/
inductive Call : Type → Type where
  /-- `running.swap(true)`. -/
  | swapRunning : Call Bool
  | storeRunning (value : Bool) : Call Unit
  | loadCritical : Call Bool
  | storeCritical (value : Bool) : Call Unit
  | loadStopped : Call Bool
  | storeStopped (value : Bool) : Call Unit
  | loadWaiting : Call Bool
  | storeWaiting (value : Bool) : Call Unit
  | lock : Call Unit
  | unlock : Call Unit
  | choice : Call (Option Bool)
  | setChoice (value : Option Bool) : Call Unit
  /-- `wake.notify_all`. -/
  | notifyAll : Call Unit
  /-- The closure `await_approval` is called with. -/
  | notify : Call Unit
  /-- The time of `wait_timeout_while` is over. -/
  | elapsed : Call Bool
  /-- What the operation does next. -/
  | next : Call Next
  /-- `stop` returns to the user interface. -/
  | stopReturns (result : Outcome) : Call Unit
  /-- `await_approval` returns to the operation. -/
  | approvalReturns (result : Outcome) : Call Unit

/-- What the environment decides. -/
structure Input where
  elapsed : Bool := false
  next : Next := .finish

/-- Where a thread stands. -/
structure Ctx where
  /-- It is the worker of the operation under way. -/
  operates : Bool := false
  /-- It has not cleared the stop flag of that operation yet. -/
  starting : Bool := false
  /-- It holds the mutex, and under it has seen that nothing was stopped, and cleared the choice. -/
  holds : Bool := false
  clear : Bool := false
  emptied : Bool := false
  /-- It waits for an approval, and has seen it. -/
  awaiting : Bool := false
  chosen : Bool := false
  /-- It has set the stop flag, and has not returned yet. -/
  stopping : Bool := false

/-- A note is added when something was done. -/
def World.noteIf (condition : Bool) (n : Note) (w : World) : World :=
  if condition then { w with log := n :: w.log } else w

/-- An action. A mutex that is held is waited for. -/
def exec {β : Type} : Call β → Ctx → Input → World → Option (β × World)
  | .swapRunning, _, _, w => some (w.running, { w with running := true }.noteIf
      (!w.running) .started)
  | .storeRunning value, _, _, w => some ((), { w with running := value })
  | .loadCritical, _, _, w => some (w.critical, w)
  | .storeCritical value, _, _, w => some ((), { w with critical := value }.noteIf value .critical)
  | .loadStopped, _, _, w => some (w.stopped, w)
  | .storeStopped value, _, _, w => some ((), { w with stopped := value })
  | .loadWaiting, _, _, w => some (w.waiting, w)
  | .storeWaiting value, _, _, w => some ((), { w with waiting := value }.noteIf value .waiting)
  | .lock, _, _, w => if w.held then none else some ((), { w with held := true })
  | .unlock, _, _, w => some ((), { w with held := false })
  | .choice, _, _, w => some (w.approval, w)
  | .setChoice value, _, _, w =>
    some ((), { w with approval := value }.noteIf value.isSome (.confirmed (value.getD false)))
  | .notifyAll, _, _, w => some ((), w)
  | .notify, _, _, w => some ((), w)
  | .elapsed, _, e, w => some (e.elapsed, w)
  | .next, _, e, w => some (e.next, w)
  | .stopReturns result, _, _, w => some ((), w.noteIf result.isOk (.stopped w.running))
  | .approvalReturns result, _, _, w => some ((), w.noteIf result.isOk .approved)

/-- Where a thread stands after an action. -/
def Ctx.after {β : Type} (c : Ctx) : Call β → β → World → Ctx
  | .swapRunning, busy, _ => if busy then c else { c with operates := true, starting := true }
  | .storeRunning value, _, _ => if value then c else {}
  | .storeStopped true, _, _ => { c with stopping := true, clear := false }
  | .storeStopped false, _, _ => { c with starting := false }
  | .loadStopped, stopped, _ => { c with clear := c.holds && !stopped }
  | .storeWaiting true, _, _ => { c with awaiting := true, chosen := false }
  | .lock, _, _ => { c with holds := true }
  | .unlock, _, _ => { c with holds := false, clear := false, emptied := false }
  | .choice, choice, _ => { c with chosen := c.awaiting && choice == some true }
  | .setChoice value, _, _ => { c with emptied := value.isNone }
  | .stopReturns _, _, _ => { c with stopping := false }
  | .approvalReturns _, _, _ => { c with awaiting := false, chosen := false }
  | _, _, _ => c

/-! ### `Control` -/

def error (summary : String) : InstallerError :=
  .new summary "Check the modem again when you are ready to continue."
    "The installer stopped at a safe boundary."

def start : Program Call Outcome := do
  if ← Call.swapRunning then
    return .error (error "An operation is already running")
  else
    Call.storeCritical false
    Call.storeStopped false
    Call.lock
    Call.setChoice none
    Call.unlock
    return .ok ()

def finish : Program Call Unit := do
  Call.storeWaiting false
  Call.storeCritical false
  Call.storeRunning false

/-- Both cancellation and entering critical state use the same lock. -/
def stop : Program Call Outcome := do
  Call.lock
  if ← Call.loadCritical then
    Call.unlock
    return .error (error
      "Device changes are underway; wait for verification or recovery to finish")
  else
    Call.storeStopped true
    Call.notifyAll
    Call.unlock
    return .ok ()

def checkpoint : Program Call Outcome := do
  if ← Call.loadStopped then
    return .error (error "Stopped before device changes")
  else
    return .ok ()

def enterCritical : Program Call Outcome := do
  Call.lock
  match ← checkpoint with
  | .error e =>
    Call.unlock
    return .error e
  | .ok _ =>
    Call.storeCritical true
    Call.unlock
    return .ok ()

def confirm (accepted : Bool) : Program Call Outcome := do
  Call.lock
  if ← Call.loadWaiting then
    Call.setChoice (some accepted)
    Call.notifyAll
    Call.unlock
    return .ok ()
  else
    Call.unlock
    return .error (error "No prepared unlock is awaiting confirmation")

/-! ### Threads -/

/-- A thread: the worker of an operation and the parts of its `await_approval`, and the two commands
of the user interface. -/
inductive Body where
  | operation
  | working
  /-- The loop of `wait_timeout_while`. -/
  | waiting
  /-- What follows it. -/
  | decided (timedOut : Bool)
  | stop
  | confirm (accepted : Bool)

/-- `await_approval`, up to the wait. -/
def beginApproval : Program Call (Concurrency.Next Body) := do
  match ← checkpoint with
  | .error e =>
    Call.approvalReturns (.error e)
    return .goto .working
  | .ok _ =>
    Call.lock
    Call.setChoice none
    Call.storeWaiting true
    Call.notify
    return .goto .waiting

/-- One round of `wait_timeout_while`. -/
def awaitRound : Program Call (Concurrency.Next Body) := do
  let choice ← Call.choice
  if choice.isSome then return .goto (.decided false)
  else if ← Call.loadStopped then return .goto (.decided false)
  else if ← Call.elapsed then return .goto (.decided true)
  else
    Call.unlock
    Call.lock
    return .goto .waiting

/-- `await_approval` gives up. -/
def refuse : Program Call (Concurrency.Next Body) := do
  Call.unlock
  Call.approvalReturns (.error (error "Unlock cancelled before upload"))
  return .goto .working

/-- `await_approval`, after the wait. -/
def settle (timedOut : Bool) : Program Call (Concurrency.Next Body) := do
  Call.storeWaiting false
  if timedOut then refuse
  else
    let choice ← Call.choice
    if choice ≠ some true then refuse
    else if ← Call.loadStopped then refuse
    else
      Call.storeCritical true
      Call.unlock
      Call.approvalReturns (.ok ())
      return .goto .working

/-- The program of a thread. -/
def program : Body → Program Call (Concurrency.Next Body)
  | .operation => do
    match ← start with
    | .error _ => return .stop
    | .ok _ => return .goto .working
  | .working => do
    match ← Call.next with
    | .checkpoint =>
      let _ ← checkpoint
      return .goto .working
    | .awaitApproval => beginApproval
    | .enterCritical =>
      let _ ← enterCritical
      return .goto .working
    | .finish =>
      finish
      return .stop
  | .waiting => awaitRound
  | .decided timedOut => settle timedOut
  | .stop => do
    let result ← stop
    Call.stopReturns result
    return .stop
  | .confirm accepted => do
    let _ ← confirm accepted
    return .stop

/-- What happens from outside: a thread is started. -/
inductive Outside where
  | operation
  | stop
  | confirm (accepted : Bool)

def Outside.body : Outside → Body
  | .operation => .operation
  | .stop => .stop
  | .confirm accepted => .confirm accepted

/-- The installer's threads and the `Control` they share. -/
def installer : Machine Call Ctx World Body Input Outside where
  exec := exec
  after := Ctx.after
  spawns _ _ _ := []
  body := program
  occur x w := some ⟨w, false, [(x.body, {})]⟩

/-- Nothing has happened yet. -/
def initial : State Call Ctx World Body := ⟨{}, []⟩

end OpenUI.Installer.Control
