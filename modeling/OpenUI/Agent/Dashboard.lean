import OpenUI.Agent.Cache
import OpenUI.Concurrency.Machine

/-!
# `OpenUI.Agent.Dashboard`: the dashboard's sources and the reset day

The part of `agent/src/handlers.rs` that reads the cached sources: the dashboard, the update of the
data-usage reset day, and what a SIM change invalidates. Each source has a mutex that is held while
the source is read, and the billing-cycle dates, which `data_usage` reads, have another. An action
is what happens at once; between two of them other threads take their turns.

`History` and `Ctx` record what the threads did: the changes of the reset day are counted, and a
reading is dated by the number of changes made before it. No action depends on it.
-/

set_option autoImplicit false

namespace OpenUI.Agent.Dashboard

open OpenUI.Text OpenUI.Json OpenUI.Concurrency OpenUI.Agent.Cache

/-! ### The sources -/

/-- The observed sources of the dashboard. -/
inductive Source where
  | radio
  | wan
  | wan6
  | thermal
  | dataUsage
  deriving DecidableEq, Repr

/-- `SIGNAL_TTL`, `WAN_TTL`, `THERMAL_TTL` and `DATA_USAGE_TTL`, in milliseconds. -/
def Source.ttl : Source → Nat
  | .radio => 1000
  | .wan => 30000
  | .wan6 => 30000
  | .thermal => 10000
  | .dataUsage => 30000

/-- `CYCLE_DATE_TTL`, in milliseconds. -/
def cycleDateTtl : Nat := 300000

/-- `clear_date_record` and `clearday_date`. -/
abbrev CycleDates := Option String × Option String

/-- `str::parse::<u64>`: decimal digits with an optional plus sign. -/
def parseU64 (s : List Char) : Option Nat :=
  let digits : List Char := match s with
    | '+' :: rest => rest
    | _ => s
  let value : Nat := digits.foldl (fun n c => 10 * n + (c.toNat - 0x30)) 0
  if digits ≠ [] ∧ digits.all isAsciiDigit ∧ value < UInt64.size then some value else none

/-- `number_value`. -/
def numberValue : Value → Option Value
  | .num n => some (.num n)
  | .otherNum => some .otherNum
  | .str s => (parseU64 s.toList).map .num
  | _ => none

/-! ### The world -/

/-- A sample that a dashboard request answers with. `since` is the latest change whose request was
answered before this one started, `readFrom` dates the oldest reading the sample is computed from,
and `attempts` are the attempts to read the source. -/
structure Report where
  source : Source
  sample : Sample Value
  since : Nat
  readFrom : Nat
  attempts : List (Except String Value)

/-- What was done. -/
structure History where
  /-- How many changes of the reset day were made. -/
  changes : Nat := 0
  /-- The latest change whose update has invalidated `data_usage`, the cycle dates, and has
  answered. -/
  invalidated : Nat := 0
  cleared : Nat := 0
  answered : Nat := 0
  /-- The dates of the oldest readings behind the cached cycle dates and the `data_usage` sample. -/
  datesFrom : Nat := 0
  dataFrom : Nat := 0
  attempts : Source → List (Except String Value) := fun _ => []
  reports : List Report := []

/-- What the threads share. -/
structure World where
  slots : Source → Observation Value := fun _ => {}
  held : Source → Bool := fun _ => false
  cycleDates : Cached CycleDates := none
  datesHeld : Bool := false
  now : Nat := 0
  history : History := {}

/-- Where a thread stands. -/
structure Ctx where
  /-- The latest change that was answered when it started. -/
  since : Nat := 0
  /-- The source whose mutex it holds. -/
  holds : Option Source := none
  holdsDates : Bool := false
  /-- The slot it holds was attempted. -/
  ready : Bool := false
  /-- The date of the oldest reading since it took that mutex, and the mutex of the cycle dates. -/
  oldest : Option Nat := none
  oldestDate : Option Nat := none
  /-- The change it made, and whether it has invalidated `data_usage` and the cycle dates since. -/
  change : Option Nat := none
  invalidated : Bool := false
  cleared : Bool := false

/-! ### Actions -/

/-- What a thread does at once. -/
inductive Call : Type → Type where
  | ubus (object method params : String) : Call (Except String Value)
  | setClearday (params : Value) : Call (Except String Value)
  | uciGet (key : String) : Call (Except String String)
  | lock (source : Source) : Call Unit
  | due (source : Source) : Call Bool
  | refreshed (source : Source) (result : Except String Value) : Call Unit
  | sample (source : Source) : Call (Sample Value)
  | unlock (source : Source) : Call Unit
  | invalidate (source : Source) : Call Unit
  | lockDates : Call Unit
  | youngDates : Call (Option CycleDates)
  | storeDates (dates : CycleDates) : Call Unit
  | unlockDates : Call Unit
  | invalidateDates : Call Unit
  | reply (status : Nat) (body : Value) : Call Unit

/-- What the environment decides: how a call ends, and what the wall clock shows. -/
structure Input where
  ubus : Except String Value := .error ""
  uci : Except String String := .error ""
  unixMs : Nat := 0

/-- One slot is replaced. -/
def World.setSlot (source : Source) (slot : Observation Value) (w : World) : World :=
  { w with slots := fun s => if s = source then slot else w.slots s }

@[simp] theorem World.slots_setSlot (source : Source) (slot : Observation Value) (w : World)
    (s : Source) : (w.setSlot source slot).slots s = if s = source then slot else w.slots s := rfl

/-- One mutex is taken or given back. -/
def World.setHeld (source : Source) (held : Bool) (w : World) : World :=
  { w with held := fun s => if s = source then held else w.held s }

@[simp] theorem World.held_setHeld (source : Source) (held : Bool) (w : World) (s : Source) :
    (w.setHeld source held).held s = if s = source then held else w.held s := rfl

namespace History

/-- An attempt to read a source. If it is `data_usage`, and it was read, its readings are dated. -/
def attempt (source : Source) (result : Except String Value) (oldest : Option Nat) (h : History) :
    History :=
  { h with
    attempts := fun s => if s = source then result :: h.attempts s else h.attempts s
    dataFrom := if source = .dataUsage ∧ result.isOk then oldest.getD h.changes else h.dataFrom }

/-- A change that was invalidated, cleared or answered, if there is one. -/
def latest (change : Option Nat) (before : Nat) : Nat := change.elim before (max before)

end History

/-- An action. A mutex that is held is waited for. -/
def exec {β : Type} : Call β → Ctx → Input → World → Option (β × World)
  | .ubus _ _ _, _, e, w => some (e.ubus, w)
  | .setClearday _, _, e, w =>
    some (e.ubus, if e.ubus.isOk then
      { w with history := { w.history with changes := w.history.changes + 1 } } else w)
  | .uciGet _, _, e, w => some (e.uci, w)
  | .lock source, _, _, w => if w.held source then none else some ((), w.setHeld source true)
  | .due source, _, _, w => some ((w.slots source).due source.ttl w.now, w)
  | .refreshed source result, c, e, w =>
    let w := w.setSlot source ((w.slots source).refreshed result w.now e.unixMs)
    some ((), { w with history := w.history.attempt source result c.oldest })
  | .sample source, c, _, w =>
    let sample := (w.slots source).sample source.ttl w.now
    let report : Report :=
      { source, sample, since := c.since, readFrom := w.history.dataFrom
        attempts := w.history.attempts source }
    some (sample, { w with history := { w.history with reports := report :: w.history.reports } })
  | .unlock source, _, _, w => some ((), w.setHeld source false)
  | .invalidate source, c, _, w =>
    if w.held source then none
    else
      let w := w.setSlot source (w.slots source).invalidated
      let invalidated := if source = .dataUsage then
        History.latest c.change w.history.invalidated else w.history.invalidated
      some ((), { w with history := { w.history with invalidated } })
  | .lockDates, _, _, w => if w.datesHeld then none else some ((), { w with datesHeld := true })
  | .youngDates, _, _, w => some (w.cycleDates.young cycleDateTtl w.now, w)
  | .storeDates dates, c, _, w =>
    some ((), { w with
      cycleDates := some (w.now, dates)
      history := { w.history with datesFrom := c.oldestDate.getD w.history.changes } })
  | .unlockDates, _, _, w => some ((), { w with datesHeld := false })
  | .invalidateDates, c, _, w =>
    if w.datesHeld then none
    else some ((), { w with
      cycleDates := none
      history := { w.history with cleared := History.latest c.change w.history.cleared } })
  | .reply _ _, c, _, w =>
    some ((), { w with
      history := { w.history with answered := History.latest c.change w.history.answered } })

/-- A reading taken now is the oldest one, unless there is an older one. -/
def Ctx.reads (w : World) (c : Ctx) : Ctx :=
  { c with
    oldest := some (c.oldest.getD w.history.changes)
    oldestDate := some (c.oldestDate.getD w.history.changes) }

/-- Where a thread stands after an action. -/
def Ctx.after {β : Type} (c : Ctx) : Call β → β → World → Ctx
  | .ubus _ _ _, _, w => c.reads w
  | .uciGet _, _, w => c.reads w
  | .setClearday _, result, w =>
    if result.isOk then { c with change := some (w.history.changes + 1) } else c
  | .lock source, _, _ => { c with holds := some source, ready := false, oldest := none }
  | .due _, due, _ => { c with ready := !due }
  | .refreshed _ _, _, _ => { c with ready := true }
  | .unlock _, _, _ => { c with holds := none, ready := false }
  | .invalidate source, _, _ => if source = .dataUsage then { c with invalidated := true } else c
  | .lockDates, _, _ => { c with holdsDates := true, oldestDate := none }
  | .youngDates, some _, w =>
    { c with oldest := some (min (c.oldest.getD w.history.changes) w.history.datesFrom) }
  | .unlockDates, _, _ => { c with holdsDates := false }
  | .invalidateDates, _, _ => { c with cleared := true }
  | _, _, _ => c

/-! ### The handlers -/

/-- `Observed::read`. -/
def read (source : Source) (refresh : Program Call (Except String Value)) :
    Program Call (Sample Value) := do
  Call.lock source
  if ← Call.due source then
    let result ← refresh
    Call.refreshed source result
  let sample ← Call.sample source
  Call.unlock source
  return sample

/-- `Cached::get_or_refresh` of the cycle dates. -/
def getOrRefresh (refresh : Program Call CycleDates) : Program Call CycleDates := do
  Call.lockDates
  match ← Call.youngDates with
  | some dates =>
    Call.unlockDates
    return dates
  | none =>
    let dates ← refresh
    Call.storeDates dates
    Call.unlockDates
    return dates

/-- The UCI section of the data counters. -/
def usageSection : String := "zwrt_data_commit.wwancid1dst"

/-- What asks for the data counters. -/
def usageParams : String := "\x7b\"source_module\":\"web\",\"cid\":1,\"type\":4\x7d"

/-- `ubus::uci_get` of an option of the section, if it can be read. -/
def uciOption (key : String) : Program Call (Option String) := do
  let value ← Call.uciGet (usageSection ++ "." ++ key)
  return value.toOption

/-- A value that is a number in this range. -/
def inRange (low high : Nat) (v : Option Value) : Option Value :=
  v.filter fun v => v.asU64.any fun n => decide (low ≤ n ∧ n ≤ high)

/-- A field of `reset_config`: from the reply, or else from UCI. -/
def resetField (low high : Nat) (reply : Value) (uci : Program Call (Option String)) :
    Program Call Value := do
  match inRange low high (numberValue reply) with
  | some value => return value
  | none =>
    let text ← uci
    return (inRange low high (text.bind fun s => numberValue (.str s))).getD .null

/-- `reset_config`. -/
def resetConfig (clear : Value) (uciDay uciEnabled : Program Call (Option String)) :
    Program Call (Value × Value) := do
  let resetDay ← resetField 1 31 (clear.get "clearday") uciDay
  let resetEnabled ← resetField 0 1 (clear.get "enable") uciEnabled
  return (resetDay, resetEnabled)

/-- The counters of a period. -/
def readStatPeriod (stats : Value) (pre : String) : Value :=
  let counter (suffix : String) := (numberValue (stats.get (pre ++ "_" ++ suffix))).getD .null
  .obj [("tx_bytes", counter "tx_bytes"), ("rx_bytes", counter "rx_bytes"),
    ("time_secs", counter "time"), ("tx_packets", counter "tx_packets"),
    ("rx_packets", counter "rx_packets")]

/-- `read_data_usage_live`. -/
def readDataUsageLive : Program Call (Except String Value) := do
  match ← Call.ubus "zwrt_data" "get_wwandst" usageParams with
  | .error error => return .error error
  | .ok stats =>
    let clear ← Call.ubus "zwrt_data" "get_wwandst_clearday" usageParams
    let clear := clear.toOption.getD (.obj [])
    let (resetDay, resetEnabled) ←
      resetConfig clear (uciOption "clearday") (uciOption "clearday_enable")
    let (clearDateRecord, nextClearDate) ← getOrRefresh do
      let record ← uciOption "clear_date_record"
      let next ← uciOption "clearday_date"
      return (record, next)
    return .ok (.obj [("day", readStatPeriod stats "day"), ("month", readStatPeriod stats "month"),
      ("cycle", readStatPeriod stats "month"), ("since_power_on", readStatPeriod stats "real"),
      ("total", readStatPeriod stats "total"), ("reset_day", resetDay),
      ("reset_enabled", resetEnabled), ("clear_date_record", .ofOption clearDateRecord),
      ("next_clear_date", .ofOption nextClearDate)])

/-- The answer to a request that failed. -/
def failure (error : String) : Value := .obj [("ok", .bool false), ("error", .str error)]

/-- `data_usage_reset_day_set`. `body` is the parsed JSON, if it is JSON. -/
def dataUsageResetDaySet (body : Option Value) : Program Call Unit := do
  match body with
  | none => Call.reply 400 (failure "invalid JSON")
  | some parsed =>
    let day := (((parsed.get "reset_day").asU64).orElse fun _ => (parsed.get "clearday").asU64).getD
      0
    if ¬(1 ≤ day ∧ day ≤ 31) then
      Call.reply 400 (failure "reset_day must be between 1 and 31")
    else
      let params : Value := .obj [("source_module", .str "web"), ("cid", .num 1), ("type", .num 4),
        ("enable", .num 1), ("clearday", .num day)]
      match ← Call.setClearday params with
      | .ok _ =>
        Call.invalidate .dataUsage
        Call.invalidateDates
        match ← readDataUsageLive with
        | .ok data => Call.reply 200 (.obj [("ok", .bool true), ("data", data)])
        | .error error => Call.reply 503 (failure error)
      | .error error => Call.reply 503 (failure error)

/-- A number that may be missing. -/
def optionalNumber (n : Option Nat) : Value := n.elim .null .num

/-- A `Freshness` in the answer. -/
def freshnessView (f : Freshness) : Value :=
  .obj [("sampled_at_ms", optionalNumber f.sampledAtMs), ("age_ms", optionalNumber f.ageMs),
    ("ttl_ms", .num f.ttlMs), ("stale", .bool f.stale), ("error", .ofOption f.error)]

/-- The part of `dashboard` that reads the observed sources. -/
def dashboard : Program Call Unit := do
  let signal ← read .radio do Call.ubus "zte_nwinfo_api" "nwinfo_get_netinfo" "\x7b\x7d"
  let wan ← read .wan do Call.ubus "network.interface.zte_wan" "status" "\x7b\x7d"
  let wan6 ← read .wan6 do Call.ubus "network.interface.zte_wan6" "status" "\x7b\x7d"
  let thermal ← read .thermal do Call.ubus "zwrt_bsp.thermal" "get_cpu_temp" "\x7b\x7d"
  let dataUsage ← read .dataUsage readDataUsageLive
  let value (sample : Sample Value) : Value := sample.value.getD .null
  Call.reply 200 (.obj [("ok", .bool true), ("data", .obj [
    ("data_usage", value dataUsage), ("signal", value signal), ("wan", value wan),
    ("wan6", value wan6), ("thermal", value thermal),
    ("sources", .obj [("signal", freshnessView signal.freshness),
      ("wan", freshnessView wan.freshness), ("wan6", freshnessView wan6.freshness),
      ("thermal", freshnessView thermal.freshness),
      ("data_usage", freshnessView dataUsage.freshness)])])])

/-- `invalidate_network` of the eSIM manager's environment, after a SIM change. -/
def invalidateNetwork : Program Call Unit := do
  Call.invalidate .radio
  Call.invalidate .wan
  Call.invalidate .wan6
  Call.invalidate .dataUsage

/-! ### Runs -/

/-- A thread that has to do with the sources. -/
inductive Body where
  | dashboard
  | resetDay (body : Option Value)
  | simChange

/-- What happens from outside: a thread gets to do something, or time passes. -/
inductive Outside where
  | start (body : Body)
  | wait (duration : Nat)

/-- The program of a thread. -/
def program (body : Body) : Program Call (Next Body) := do
  match body with
  | .dashboard => dashboard
  | .resetDay body => dataUsageResetDaySet body
  | .simChange => invalidateNetwork
  return .stop

/-- An event from outside. -/
def occur : Outside → World → Option (Occurrence Ctx World Body)
  | .start body, w => some ⟨w, false, [(body, { since := w.history.answered })]⟩
  | .wait duration, w => some ⟨{ w with now := w.now + duration }, false, []⟩

/-- The agent's threads and the sources they share. -/
def agent : Machine Call Ctx World Body Input Outside where
  exec := exec
  after := Ctx.after
  spawns _ _ _ := []
  body := program
  occur := occur

/-- The agent has just started. -/
def start : State Call Ctx World Body := ⟨{}, []⟩

end OpenUI.Agent.Dashboard
