import Mathlib.Data.List.Basic

/-!
# `OpenUI.WebApp.PollScheduler`: the owner of one poll's request and timer

`data/pollScheduler.ts`: a `PollScheduler`, what it is called with (`read`, `interval`, `visible`
and the callbacks), and the timers and reads it leaves with the browser. `run` is the part of the
source's `run` up to the `await`, `settle` the part after it. A note is kept of every call and of
every callback, the latest first.
-/

set_option autoImplicit false

universe u

namespace OpenUI.WebApp

/-- A read that was started and has neither completed nor failed. -/
structure Read where
  id : Nat
  /-- The revision `run` captured. -/
  revision : Nat
  deriving DecidableEq

/-- A timer that was set and has neither fired nor been cleared. -/
structure Timer where
  id : Nat
  delay : Nat
  deriving DecidableEq

inductive Note (T : Type u) where
  | start
  | stop
  | refresh
  | mutate (value : T)
  /-- `options.read()` was called. -/
  | read (id : Nat)
  /-- `options.publish` with the value of a read. -/
  | publish (id : Nat) (value : T)
  /-- `options.error` with the failure of a read. -/
  | error (id : Nat) (message : String)
  | refreshing (value : Bool)
  deriving DecidableEq

/-- The fields of a `PollScheduler`, the two options it asks, and what the browser holds for it. -/
structure Poll (T : Type u) where
  active : Bool
  busy : Bool
  revision : Nat
  pendingRefresh : Bool
  /-- A one-shot resource still owes a read. -/
  due : Bool
  timer : Option Nat
  /-- Delay before the next read; none reads once and then only on `refresh`. -/
  interval : Option Nat
  visible : Bool
  timers : List Timer
  nextTimer : Nat
  reads : List Read
  nextRead : Nat
  log : List (Note T)

variable {T : Type u}

/-- A new scheduler. -/
def Poll.new (interval : Option Nat) (visible : Bool) : Poll T :=
  { active := false, busy := false, revision := 0, pendingRefresh := false, due := true,
    timer := none, interval := interval, visible := visible, timers := [], nextTimer := 0,
    reads := [], nextRead := 0, log := [] }

namespace Poll

def note (p : Poll T) (n : Note T) : Poll T := { p with log := n :: p.log }

/-- `clearTimeout(this.timer)`. -/
def clearTimer (p : Poll T) : Poll T :=
  { p with timers := p.timers.filter fun t => p.timer ≠ some t.id }

/-- `this.timer = setTimeout(…, delay)`. -/
def setTimer (p : Poll T) (delay : Nat) : Poll T :=
  { p with
      timer := some p.nextTimer
      timers := p.timers ++ [⟨p.nextTimer, delay⟩]
      nextTimer := p.nextTimer + 1 }

/-- `run`, up to the call of `options.read`. -/
def run (p : Poll T) : Poll T :=
  if !p.active || p.busy || !p.visible then p
  else
    { p with
        busy := true
        pendingRefresh := false
        due := false
        reads := p.reads ++ [⟨p.nextRead, p.revision⟩]
        nextRead := p.nextRead + 1
        log := .read p.nextRead :: p.log }

def wake (p : Poll T) : Poll T :=
  let p := p.clearTimer
  if !p.active || !p.visible || p.busy then p
  -- Returning to the page re-reads a poll, but not a one-shot read that already ran.
  else if p.interval.isNone && !p.due then p
  else p.run

def start (p : Poll T) : Poll T := ({ p with active := true, due := true }.note .start).wake

def stop (p : Poll T) : Poll T :=
  ({ p with active := false, revision := p.revision + 1, pendingRefresh := false }.note
    .stop).clearTimer

def refresh (p : Poll T) : Poll T :=
  if !p.active then p.note .refresh
  else
    (({ p with revision := p.revision + 1, pendingRefresh := true, due := true }.note .refresh).note
      (.refreshing true)).wake

/-- The note stands for the call, and for the `publish` it makes when the scheduler is active. -/
def mutate (p : Poll T) (value : T) : Poll T :=
  if !p.active then p.note (.mutate value)
  else { p with revision := p.revision + 1 }.note (.mutate value)

/-- The `try` and `catch` of `run`, once the read has settled. -/
def settled (p : Poll T) (r : Read) (result : Except String T) : Poll T :=
  if p.active && r.revision == p.revision then
    match result with
    | .ok value => p.note (.publish r.id value)
    | .error message => p.note (.error r.id message)
  else p

/-- The delay before the next read, as the `finally` of `run` chooses it. -/
def delay (p : Poll T) : Option Nat := if p.pendingRefresh then some 0 else p.interval

/-- The `finally` of `run`. -/
def finish (p : Poll T) : Poll T :=
  let p := { p with busy := false }
  if !p.active then p
  else
    let p := if p.pendingRefresh then p else p.note (.refreshing false)
    match p.delay with
    | none => p
    | some delay => if p.visible then p.setTimer delay else p

/-- `run` goes on after the `await`. -/
def settle (p : Poll T) (id : Nat) (result : Except String T) : Poll T :=
  match p.reads.find? (·.id == id) with
  | none => p
  | some r => ({ p with reads := p.reads.filter (· != r) }.settled r result).finish

/-- A timer fires. -/
def fire (p : Poll T) (id : Nat) : Poll T :=
  if p.timers.any (·.id == id) then { p with timers := p.timers.filter (·.id != id) }.run else p

end Poll

/-- A call of the scheduler, a visibility change with the wake that goes with it, a timer that
fires, or a read that completes or fails. -/
inductive PollEvent (T : Type u) where
  | start
  | stop
  | wake
  | refresh
  | mutate (value : T)
  | visibility (visible : Bool)
  | fire (timer : Nat)
  | settle (read : Nat) (result : Except String T)

def Poll.step (p : Poll T) : PollEvent T → Poll T
  | .start => p.start
  | .stop => p.stop
  | .wake => p.wake
  | .refresh => p.refresh
  | .mutate value => p.mutate value
  | .visibility visible => { p with visible := visible }.wake
  | .fire timer => p.fire timer
  | .settle read result => p.settle read result

/-- An event, or a change of what `visible` and `interval` return that the scheduler is not told
of. -/
inductive PollChange (T : Type u) where
  | event (e : PollEvent T)
  | visible (value : Bool)
  | interval (value : Option Nat)

def Poll.change (p : Poll T) : PollChange T → Poll T
  | .event e => p.step e
  | .visible value => { p with visible := value }
  | .interval value => { p with interval := value }

end OpenUI.WebApp
