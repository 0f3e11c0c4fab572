import OpenUI.Concurrency.Interrupted

/-!
# `OpenUI.Agent.ChargePolicy`: the charge limit

`agent/src/charge_policy.rs`: a policy says when charging stops, and a client may stop it by hand.
An update changes three things, the charger, the policy file and the enforcer's own copy, in this
order. The functions are programs over the calls of `impl Charger for Hardware`: two sensor files,
the two `ubus` calls of the charger service and the write of the policy file. Each function holds
the enforcer's lock from its first call to its last.

`Device` is what the calls work on. A command takes hold at once or not at all, and a write replaces
the file or leaves it; whether the caller is told so is another matter (`Fault`).
-/

set_option autoImplicit false

namespace OpenUI.Agent.ChargePolicy

open OpenUI.Concurrency

/-! ### Policies and updates -/

/-- `Persisted`: the policy, in memory and in the file. -/
structure Persisted where
  enabled : Bool
  limit : UInt8
  hysteresis : UInt8
  deriving DecidableEq, Repr

/-- The policy of an enforcer that found none. -/
def Persisted.fallback : Persisted where
  enabled := false
  limit := 100
  hysteresis := 5

/-- The ranges that `new` and `update` accept. -/
def Persisted.valid (p : Persisted) : Bool :=
  50 ≤ p.limit && p.limit ≤ 100 && 1 ≤ p.hysteresis && p.hysteresis ≤ 20

/-- `ChargeUpdate`. -/
structure ChargeUpdate where
  chargingStopped : Option Bool := none
  chargeLimitEnabled : Option Bool := none
  chargeLimit : Option UInt8 := none
  hysteresis : Option UInt8 := none

namespace ChargeUpdate

/-- `policy_changed`. -/
def policyChanged (u : ChargeUpdate) : Bool :=
  u.chargeLimitEnabled.isSome || u.chargeLimit.isSome || u.hysteresis.isSome

/-- The policy after the update. -/
def policy (u : ChargeUpdate) (old : Persisted) : Persisted where
  enabled := u.chargeLimitEnabled.getD old.enabled
  limit := u.chargeLimit.getD old.limit
  hysteresis := u.hysteresis.getD old.hysteresis

end ChargeUpdate

/-- `Snapshot`. -/
structure Snapshot where
  stopped : Bool
  capacity : UInt8
  discharging : Bool
  deriving DecidableEq, Repr

/-- `u8::saturating_sub`. -/
def saturatingSub (a b : UInt8) : UInt8 := if b ≤ a then a - b else 0

/-- `desired`: whether the policy wants charging stopped. -/
def desired (policy : Persisted) (snapshot : Snapshot) : Bool :=
  if !policy.enabled then false
  else if snapshot.discharging && !snapshot.stopped then false
  else if policy.limit ≤ snapshot.capacity then true
  else if snapshot.capacity ≤ saturatingSub policy.limit policy.hysteresis then false
  else snapshot.stopped

/-! ### The device -/

/-- The policy file. -/
inductive Stored where
  | absent
  /-- Its text is not a policy. -/
  | garbled
  | policy (p : Persisted)
  deriving DecidableEq, Repr

/-- The charger, the policy file and the battery. `capacity` is what the sensor's file parses to. -/
structure Device where
  stopped : Bool
  saved : Stored
  capacity : Option UInt8
  discharging : Bool
  deriving DecidableEq, Repr

/-- How reading the policy file ends. -/
inductive Loaded where
  | notFound
  | failed (error : String)
  | text (policy : Option Persisted)

/-- The calls. `list` gives the charger's `direct_power_supply_mode`, if it is a string. -/
inductive Call : Type → Type where
  | capacity : Call (Option UInt8)
  | status : Call Bool
  | list : Call (Except String (Option String))
  | set (mode : String) : Call (Except String Unit)
  | persist (policy : Persisted) : Call (Except String Unit)
  | load : Call Loaded

/-- How a call ends. -/
inductive Fault where
  | none
  /-- It failed and did nothing. -/
  | failed (error : String)
  /-- It reports a failure, and did what it was asked to. -/
  | late (error : String)
  /-- The charger answers with some other text in place of its mode, or none; or it takes no notice
  of a command. -/
  | odd (mode : Option String)

/-- The mode of a charger that is stopped, or not: the firmware's words are inverted. -/
def modeOf (stopped : Bool) : String := if stopped then "enable" else "disable"

namespace Device

/-- A call. -/
def exec : Effects Call Fault Device
  | _, .capacity, e, d => match e with
    | .none => some (d.capacity, d)
    | .failed _ => some (none, d)
    | _ => none
  | _, .status, e, d => match e with
    | .none => some (d.discharging, d)
    | .failed _ => some (false, d)
    | _ => none
  | _, .list, e, d => match e with
    | .none => some (.ok (some (modeOf d.stopped)), d)
    | .failed m => some (.error m, d)
    | .odd mode =>
      if mode = some "enable" ∨ mode = some "disable" then none else some (.ok mode, d)
    | _ => none
  | _, .set mode, e, d => match e with
    | .none => some (.ok (), { d with stopped := mode == "enable" })
    | .failed m => some (.error m, d)
    | .late m => some (.error m, { d with stopped := mode == "enable" })
    | .odd _ => some (.ok (), d)
  | _, .persist policy, e, d => match e with
    | .none => some (.ok (), { d with saved := .policy policy })
    | .failed m => some (.error m, d)
    | .late m => some (.error m, { d with saved := .policy policy })
    | _ => none
  | _, .load, e, d => match e, d.saved with
    | .none, .absent => some (.notFound, d)
    | .none, .garbled => some (.text none, d)
    | .none, .policy p => some (.text (some p), d)
    | .failed m, _ => some (.failed m, d)
    | _, _ => none

end Device

/-! ### `impl Charger for Hardware` -/

/-- `stopped_state`. -/
def stoppedState : Program Call (Except String Bool) := do
  let value ← Call.list
  match value with
  | .error e => pure (.error e)
  | .ok (some "enable") => pure (.ok true)
  | .ok (some "disable") => pure (.ok false)
  | .ok _ => pure (.error "charger control state is unavailable")

/-- `snapshot`. -/
def snapshot : Program Call (Except String Snapshot) := do
  let capacity ← Call.capacity
  match capacity.filter (· ≤ 100) with
  | none => pure (.error "battery capacity sensor is unavailable")
  | some capacity => do
    let stopped ← stoppedState
    match stopped with
    | .error e => pure (.error e)
    | .ok stopped => do
      let discharging ← Call.status
      pure (.ok { stopped, capacity, discharging })

/-- The reads that confirm a command. -/
def confirmed (stopped : Bool) : Nat → Program Call (Except String Unit)
  | 0 => pure (.error "charger did not confirm the requested state")
  | n + 1 => do
    let state ← stoppedState
    match state with
    | .error e => pure (.error e)
    | .ok state => if state = stopped then pure (.ok ()) else confirmed stopped n

/-- `set_stopped`. -/
def setStopped (stopped : Bool) : Program Call (Except String Unit) := do
  let set ← Call.set (modeOf stopped)
  match set with
  | .error e => pure (.error e)
  | .ok () => confirmed stopped 3

/-- `persist`. -/
def persist (policy : Persisted) : Program Call (Except String Unit) := do
  let written ← Call.persist policy
  match written with
  | .error e => pure (.error ("saving charge policy: " ++ e))
  | .ok () => pure (.ok ())

/-! ### The enforcer -/

/-- Why an update failed, with what the calls that undo it answered. -/
inductive Failure where
  /-- A request that is refused. -/
  | refused (text : String)
  | snapshot (error : String)
  | set (error : String) (rollback : Except String Unit)
  | saved (error : String) (hardwareRestore storageRestore : Except String Unit)

/-- Its text; `debug` is the `{:?}` of a result. -/
def Failure.text (debug : Except String Unit → String) : Failure → String
  | .refused text => text
  | .snapshot error => error
  | .set error rollback => error ++ "; restore previous charging state: " ++ debug rollback
  | .saved error hardwareRestore storageRestore =>
    error ++ "; restore charger: " ++ debug hardwareRestore ++ "; restore policy: "
      ++ debug storageRestore

/-- The calls that undo the update succeeded. -/
def Failure.restored : Failure → Bool
  | .refused _ | .snapshot _ => true
  | .set _ rollback => rollback.isOk
  | .saved _ hardwareRestore storageRestore => hardwareRestore.isOk && storageRestore.isOk

/-- `LimitState`. The last error is the text of a start-up problem, or what an update failed
with. -/
structure LimitState where
  policy : Persisted
  manualOverride : Bool := false
  lastError : Option Failure := none

/-- `ChargeLimitEnforcer::new`. -/
def new : Program Call LimitState := do
  let loaded ← Call.load
  match loaded with
  | .text (some p) =>
    if p.valid then pure { policy := p }
    else pure { policy := .fallback, lastError := some (.refused
      "invalid saved charge policy; enforcement disabled") }
  | .text none => pure { policy := .fallback, lastError := some (.refused
      "invalid saved charge policy; enforcement disabled") }
  | .notFound => pure { policy := .fallback }
  | .failed e =>
    pure { policy := .fallback, lastError := some (.refused ("reading charge policy: " ++ e)) }

/-- The end of an update that changed the charger: the policy is saved, if it is a new one, and the
enforcer follows. -/
def adopt (u : ChargeUpdate) (policy : Persisted) (before : Snapshot) (state : LimitState) :
    Program Call (Except Failure Unit × LimitState) := do
  let saved ← if u.policyChanged then persist policy else pure (.ok ())
  match saved with
  | .error e => do
    let hardwareRestore ← setStopped before.stopped
    let storageRestore ← persist state.policy
    pure (.error (.saved e hardwareRestore storageRestore), state)
  | .ok () =>
    let manual := u.chargingStopped.getD (if u.policyChanged then false else state.manualOverride)
    pure (.ok (), { state with policy, manualOverride := manual })

/-- The closure of `update`. -/
def change (u : ChargeUpdate) (policy : Persisted) (state : LimitState) :
    Program Call (Except Failure Unit × LimitState) := do
  let before ← snapshot
  match before with
  | .error e => pure (.error (.snapshot e), state)
  | .ok before => do
    let stopped := u.chargingStopped.getD (desired policy before)
    let set ← setStopped stopped
    match set with
    | .error e => do
      let rollback ← setStopped before.stopped
      pure (.error (.set e rollback), state)
    | .ok () => adopt u policy before state

/-- `update`. -/
def update (u : ChargeUpdate) (state : LimitState) :
    Program Call (Except Failure Unit × LimitState) :=
  if !u.policyChanged ∧ u.chargingStopped.isNone then
    pure (.error (.refused "at least one charge control field is required"), state)
  else if !(u.policy state.policy).valid then
    pure (.error (.refused "limit must be 50-100 and hysteresis must be 1-20"), state)
  else do
    let (result, state) ← change u (u.policy state.policy) state
    let lastError := match result with
      | .error e => some e
      | .ok () => none
    pure (result, { state with lastError })

end OpenUI.Agent.ChargePolicy
