import OpenUI.WebApp.Home

/-!
# `OpenUI.WebApp.Alerts`: the alerts of the home page

`deriveConditions` of `app/alerts.ts`: the conditions that the last poll shows active, and those it
shows resolved.
-/

set_option autoImplicit false

namespace OpenUI.WebApp.Js

open OpenUI.Text OpenUI.WebApp

/-- `AlertLevel`. -/
inductive AlertLevel where
  | warning
  | error
  deriving DecidableEq

/-- `Alert`. -/
structure Alert where
  id : String
  level : AlertLevel
  title : String
  detail : Option String
  deriving DecidableEq

/-- `AlertConditions`. -/
structure AlertConditions where
  active : List Alert
  resolved : List String

namespace AlertConditions

/-- `active.push`. -/
def raise (conditions : AlertConditions) (alert : Alert) : AlertConditions :=
  { conditions with active := conditions.active ++ [alert] }

/-- `resolved.add`. -/
def resolve (conditions : AlertConditions) (id : String) : AlertConditions :=
  { conditions with resolved := conditions.resolved.insert id }

end AlertConditions

/-- `label`. -/
def label (source : String) : String :=
  String.ofList (source.toList.map fun c => if c = '_' then ' ' else c)

/-- The title of a source's alert: its label with a capital, which the empty label does not have.
`upperChar` leaves letters outside ASCII as they are, and no source of the agent starts with one. -/
def sourceTitle (source : String) : Option String :=
  match (label source).toList with
  | [] => none
  | c :: rest => some (String.ofList (upperChar c ++ rest) ++ " unavailable")

/-- The detail of a source's alert. -/
def sourceDetail (freshness : Value) : Option String :=
  let age := match freshness.get "age_ms" with
    | none => some "No successful reading"
    | some .null => some "No successful reading"
    | some v => v.toNumber.map fun n => "Last reading " ++ (n.dividedBy 1000).floor.text ++ "s ago"
  let error :=
    if falsy (freshness.get "error") then some ""
    else (template (freshness.get "error")).map (". " ++ ·)
  match age, error with
  | some age, some error => some (age ++ error)
  | _, _ => none

/-- One source. -/
def deriveSource (conditions : AlertConditions) (source : String) (freshness : Value) :
    Option AlertConditions :=
  let id := "source:" ++ source
  match freshness with
  | .null => none
  | freshness =>
    if falsy (freshness.get "stale") then some (conditions.resolve id)
    else match sourceTitle source, sourceDetail freshness with
      | some title, some detail =>
        some (conditions.raise { id, level := .warning, title, detail := some detail })
      | _, _ => none

/-- The sources, one after the other. -/
def deriveSources : List (String × Value) → AlertConditions → Option AlertConditions
  | [], conditions => some conditions
  | s :: rest, conditions => (deriveSource conditions s.1 s.2).bind (deriveSources rest)

/-- `typeof v === 'number'`. -/
def numberIn : Option Field → Option Number
  | some (.number n) => some n
  | _ => none

/-- The failed refresh. -/
def deriveRefresh (error : Option String) (conditions : AlertConditions) : AlertConditions :=
  match error.filter (· ≠ "") with
  | some error => conditions.raise {
      id := "dashboard:refresh"
      level := .error
      title := "Dashboard refresh failed; displayed readings may be old"
      detail := some error }
  | none => conditions.resolve "dashboard:refresh"

/-- The charge control. -/
def deriveCharge (error : Option String) (conditions : AlertConditions) : AlertConditions :=
  match error with
  | none => conditions.resolve "charge-control"
  | some error =>
    if error = "" then conditions
    else conditions.raise {
      id := "charge-control"
      level := .error
      title := "Charge control failed"
      detail := some error }

/-- The battery's temperature. -/
def deriveBatteryTemperature (temp : Number) (conditions : AlertConditions) : AlertConditions :=
  let detail := some (temp.toFixed ++ "°C")
  if temp.atLeast 50 then conditions.raise {
    id := "battery:temperature"
    level := .error
    title := "Battery temperature critically high"
    detail := detail }
  else if temp.atLeast 45 then conditions.raise {
    id := "battery:temperature"
    level := .warning
    title := "Battery temperature high"
    detail := detail }
  else conditions.resolve "battery:temperature"

/-- The battery's charge. -/
def deriveBatteryLow (plugged : Bool) (percent : Number) (conditions : AlertConditions) :
    AlertConditions :=
  let detail := some (percent.text ++ "%")
  if !plugged && percent.atMost 5 then conditions.raise {
    id := "battery:low"
    level := .error
    title := "Battery critically low"
    detail := detail }
  else if !plugged && percent.atMost 15 then conditions.raise {
    id := "battery:low"
    level := .warning
    title := "Battery low"
    detail := detail }
  else conditions.resolve "battery:low"

/-- The processor's temperature. -/
def deriveCpuTemperature (cpu : Number) (conditions : AlertConditions) : AlertConditions :=
  let detail := some (cpu.text ++ "°C")
  if cpu.atLeast 90 then conditions.raise {
    id := "cpu:temperature"
    level := .error
    title := "CPU temperature critically high"
    detail := detail }
  else if cpu.atLeast 75 then conditions.raise {
    id := "cpu:temperature"
    level := .warning
    title := "CPU temperature elevated"
    detail := detail }
  else conditions.resolve "cpu:temperature"

/-- What a number that is there adds. -/
def withNumber (n : Option Number) (derive : Number → AlertConditions → AlertConditions)
    (conditions : AlertConditions) : AlertConditions :=
  match n with
  | some n => derive n conditions
  | none => conditions

/-- `deriveConditions` of data that was mapped. -/
def deriveConditions (data : HomeData) (error : Option String) : Option AlertConditions :=
  let battery (field : BatteryInfo → Field) := numberIn (data.battery.map field)
  let plugged := (data.battery.map (·.plugged)).getD false
  (deriveSources data.sources (deriveRefresh error { active := [], resolved := [] })).map
    fun conditions =>
      withNumber (numberIn data.thermal) deriveCpuTemperature
        (withNumber (battery (·.percent)) (deriveBatteryLow plugged)
          (withNumber (battery (·.temperatureC)) deriveBatteryTemperature
            (deriveCharge data.chargeControlError conditions)))

end OpenUI.WebApp.Js
