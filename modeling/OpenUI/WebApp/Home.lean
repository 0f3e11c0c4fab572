import OpenUI.Calendar
import OpenUI.WebApp.Signal

/-!
# `OpenUI.WebApp.Home`: the home page's data

`data/api.ts` from the battery to `mapHome`, and `mapClients`: what the dashboard's batch response
is turned into. A `Field` is a number that may be anything, because the mapper casts it.
`none` as a result is a `TypeError` that was thrown.
-/

set_option autoImplicit false

namespace OpenUI.WebApp.Js

open OpenUI.Text OpenUI.WebApp OpenUI.WebApp.Wifi OpenUI.Calendar

/-! ### Sources with numbers -/

/-- `BatteryInfo`. -/
structure BatteryInfo where
  percent : Field
  status : Option String
  charging : Bool
  plugged : Bool
  voltageMv : Field
  temperatureC : Field
  currentMa : Field

/-- `v ? f(v) : undefined`, of a value that is made a number. -/
def whenTruthy (v : Option Value) (f : Number → Number) : Option Field :=
  match v with
  | some value =>
    if falsy v then some .unknown else value.toNumber.map fun n => .number (f n)
  | none => some .unknown

/-- `mapBattery`. -/
def mapBattery (d : Value) : Option BatteryInfo :=
  let status := str (d.get "status")
  match whenTruthy (d.get "voltage_uv") fun n => (n.dividedBy 1000).round,
      whenTruthy (d.get "temperature") fun n => n.dividedBy 10,
      whenTruthy (d.get "current_ua") fun n => (n.dividedBy 1000).round with
  | some voltage, some temperature, some current => some {
      percent := cast (d.get "capacity")
      status := status
      charging := status == some "Charging"
      plugged := status == some "Charging" ||
        (match d.get "external_power" with
          | some (.bool true) => true
          | _ => false) && status != some "Discharging"
      voltageMv := voltage
      temperatureC := temperature
      currentMa := current }
  | _, _, _ => none

/-- `(v as number) || 0`. -/
def castOrZero (v : Option Value) : Field := if falsy v then .number (.finite 0) else cast v

/-- `SpeedInfo`. -/
structure SpeedInfo where
  rxBps : Field
  txBps : Field
  maxRxBps : Field
  maxTxBps : Field

/-- `mapSpeed`. -/
def mapSpeed (d : Value) : SpeedInfo where
  rxBps := castOrZero (d.get "rx_speed")
  txBps := castOrZero (d.get "tx_speed")
  maxRxBps := castOrZero (d.get "max_rx_speed")
  maxTxBps := castOrZero (d.get "max_tx_speed")

/-- What follows the first `Linux version `, up to white space. -/
def kernelRelease (text : String) : Option String :=
  let start := "Linux version ".toList
  let rec find : List Char → Option String
    | [] => none
    | c :: rest =>
      let word := ((c :: rest).drop start.length).takeWhile (!isSpace ·)
      if start.isPrefixOf (c :: rest) ∧ word ≠ [] then some (String.ofList word) else find rest
  find text.toList

/-- `DeviceInfo`. -/
structure DeviceInfo where
  model : String
  firmware : Option String
  hardware : Option String
  kernel : Option String
  uptimeSecs : Field
  loadAvg : Option Value

/-- `mapDevice`. Only a text has `match`. -/
def mapDevice (d : Value) : Option DeviceInfo :=
  let info (kernel : Option String) : DeviceInfo := {
    model := "ZTE U60 Pro"
    firmware := str (d.get "firmware")
    hardware := str (d.get "hardware")
    kernel := kernel
    uptimeSecs := cast (d.get "uptime_secs")
    loadAvg := d.get "load_avg" }
  match d.get "kernel" with
  | none => some (info none)
  | some .null => some (info none)
  | some (.str s) => some (info (kernelRelease s))
  | some _ => none

/-- `CpuInfo`. -/
structure CpuInfo where
  overall : Field
  cores : Option Value

/-- `mapCpu`. -/
def mapCpu (d : Value) : CpuInfo where
  overall := cast (d.get "overall")
  cores := d.get "cores"

/-- `MemInfo`. -/
structure MemInfo where
  totalKb : Field
  usedKb : Field
  freeKb : Field
  usagePct : Field

/-- `mapMemory`. -/
def mapMemory (d : Value) : MemInfo where
  totalKb := cast (d.get "total_kb")
  usedKb := cast (d.get "used_kb")
  freeKb := cast (d.get "free_kb")
  usagePct := cast (d.get "usage_pct")

/-- `mapThermal`: `cpu_temp_c`. -/
def mapThermal (d : Value) : Field := cast (d.get "cpuss_temp")

/-! ### Networks -/

/-- `WanInfo`. -/
structure WanInfo where
  connected : Option Value
  ipv4 : Option Value
  ipv6 : Option Value
  gateway : Option Value
  dns : Option Value
  apn : Option Value

/-- `mapWan`. -/
def mapWan (d : Value) : WanInfo where
  connected := d.get "up"
  ipv4 := member (first (d.get "ipv4-address")) "address"
  ipv6 := member (first (d.get "ipv6-address")) "address"
  gateway := member (first (d.get "route")) "nexthop"
  dns := d.get "dns-server"
  apn := d.get "proto"

/-- `${v}`. -/
def template : Option Value → Option String
  | none => some "undefined"
  | some v => v.toText

/-- `Wan6Info`. -/
structure Wan6Info where
  connected : Option Value
  ipv6 : Option Value
  linkPrefix : Option String
  dns : Option Value

/-- `mapWan6`. -/
def mapWan6 (d : Value) : Option Wan6Info :=
  let info (text : Option String) : Wan6Info := {
    connected := d.get "up"
    ipv6 := member (first (d.get "ipv6-address")) "address"
    linkPrefix := text
    dns := d.get "dns-server" }
  let entry := first (d.get "ipv6-prefix")
  if falsy entry then some (info none)
  else match template (member entry "address"), template (member entry "mask") with
    | some address, some mask => some (info (some (address ++ "/" ++ mask)))
    | _, _ => none

/-- `Client`. -/
structure Client where
  mac : Option Value
  ip : Option Value
  hostname : Option Value
  medium : Option Value
  mediumDetail : Option Value
  iface : Option Value
  wifiBand : Option Value
  signalDbm : Field
  txBitrateMbps : Field
  rxBitrateMbps : Field
  expectedThroughputMbps : Field
  connectedSecs : Field
  wiredLinkMbps : Field

/-- A client of `clients`; `null` has no fields to read. -/
def clientOf : Value → Option Client
  | .null => none
  | c => some {
    mac := c.get "mac"
    ip := c.get "ip"
    hostname := c.get "hostname"
    medium := c.get "medium"
    mediumDetail := c.get "medium_detail"
    iface := c.get "interface"
    wifiBand := c.get "wifi_band"
    signalDbm := cast (c.get "signal_dbm")
    txBitrateMbps := cast (c.get "tx_bitrate_mbps")
    rxBitrateMbps := cast (c.get "rx_bitrate_mbps")
    expectedThroughputMbps := cast (c.get "expected_throughput_mbps")
    connectedSecs := cast (c.get "connected_secs")
    wiredLinkMbps := cast (c.get "wired_link_mbps") }

/-- A client of `dhcp_leases`. -/
def leaseOf : Value → Option Client
  | .null => none
  | l => some {
    mac := l.get "macaddr"
    ip := l.get "ipaddr"
    hostname := l.get "hostname"
    medium := none
    mediumDetail := none
    iface := none
    wifiBand := none
    signalDbm := .unknown
    txBitrateMbps := .unknown
    rxBitrateMbps := .unknown
    expectedThroughputMbps := .unknown
    connectedSecs := .unknown
    wiredLinkMbps := .unknown }

/-- `mapClients`. Only an array has `map`. -/
def mapClients (d : Value) : Option (List Client) :=
  if !falsy (d.get "clients") then
    match d.get "clients" with
    | some (.arr clients) => clients.mapM clientOf
    | _ => none
  else if falsy (d.get "dhcp_leases") then some []
  else match d.get "dhcp_leases" with
    | some (.arr leases) => leases.mapM leaseOf
    | _ => none

/-! ### Data usage -/

/-- `UsagePeriod`; `none` is `null`. -/
structure UsagePeriod where
  rxBytes : Option ℚ
  txBytes : Option ℚ
  timeSecs : Option ℚ

/-- `mapUsagePeriod`. -/
def mapUsagePeriod (v : Option Value) : UsagePeriod where
  rxBytes := nonNegative (member v "rx_bytes")
  txBytes := nonNegative (member v "tx_bytes")
  timeSecs := nonNegative (member v "time_secs")

/-- `CalendarDate`. -/
structure CalendarDate where
  year : Nat
  month : Nat
  day : Nat

/-- The numbers of a date, if they are as many digits. -/
def dateParts (year month day : List Char) : Option CalendarDate :=
  let date : CalendarDate := ⟨numberOf year, numberOf month, numberOf day⟩
  if year.length = 4 ∧ (year ++ month ++ day).all isAsciiDigit ∧
      1970 ≤ date.year ∧ date.year ≤ 2199 ∧ 1 ≤ date.month ∧ date.month ≤ 12 ∧ 1 ≤ date.day ∧
      date.day ≤ monthLength date.year date.month then some date
  else none

/-- A date with a separator. -/
def separatedDate (sep : Char) (t : List Char) : Option CalendarDate :=
  match t.splitOn sep with
  | [year, month, day] =>
    if month.length ∈ [1, 2] ∧ day.length ∈ [1, 2] then dateParts year month day else none
  | _ => none

/-- `parseDeviceDate`. -/
def parseDeviceDate (v : Option Value) : Option CalendarDate :=
  let text := match v with
    | some (.str s) => some (trimText s)
    | some (.num x) => if x.isInt then some (textOfNumber x).toList else none
    | _ => none
  text.bind fun t =>
    if t.contains '/' then separatedDate '/' t
    else if t.contains '-' then separatedDate '-' t
    else if t.length = 8 then dateParts (t.take 4) ((t.drop 4).take 2) (t.drop 6)
    else none

/-- `DataUsage`. -/
structure DataUsage where
  day : UsagePeriod
  month : UsagePeriod
  cycle : Option UsagePeriod
  sincePowerOn : Option UsagePeriod
  total : UsagePeriod
  resetDay : Option ℚ
  resetEnabled : Option Bool
  clearDateRecord : Option String
  nextClearDate : Option String
  cycleStart : Option CalendarDate
  nextReset : Option CalendarDate

/-- `mapDataUsage`. -/
def mapDataUsage (d : Value) : DataUsage :=
  let optionalPeriod (v : Option Value) := if isObj v then some (mapUsagePeriod v) else none
  { day := mapUsagePeriod (d.get "day")
    month := mapUsagePeriod (d.get "month")
    cycle := optionalPeriod (d.get "cycle")
    sincePowerOn := optionalPeriod (d.get "since_power_on")
    total := mapUsagePeriod (d.get "total")
    resetDay := intInRange (d.get "reset_day") 1 31
    resetEnabled := boolLike (d.get "reset_enabled")
    clearDateRecord := str (d.get "clear_date_record")
    nextClearDate := str (d.get "next_clear_date")
    cycleStart := parseDeviceDate (d.get "clear_date_record")
    nextReset := parseDeviceDate (d.get "next_clear_date") }

/-! ### `mapHome` -/

/-- `EsimSummary`. -/
structure EsimSummary where
  status : Option String
  available : Bool

/-- `mapEsimSummary`. -/
def mapEsimSummary (d : Value) : EsimSummary where
  status := (str (d.get "status")).filter
    (· ∈ ["detecting", "ready", "unsupported", "unavailable", "helper_missing"])
  available := match d.get "available" with
    | some (.bool true) => true
    | _ => false

/-- `HomeData`; `none` is `null`. -/
structure HomeData where
  signal : Option SignalInfo
  battery : Option BatteryInfo
  speed : Option SpeedInfo
  device : Option DeviceInfo
  wan : Option WanInfo
  wan6 : Option Wan6Info
  cpu : Option CpuInfo
  memory : Option MemInfo
  usage : Option DataUsage
  thermal : Option Field
  sources : List (String × Value)
  chargeControlError : Option String
  esim : Option EsimSummary

/-- A source that is an object. -/
def source (d : Value) (key : String) : Option Value := (d.get key).filter fun v => isObj (some v)

/-- A source that is an object with fields. -/
def filledSource (d : Value) (key : String) : Option Value :=
  (source d key).filter fun v =>
    match v with
    | .obj fields => !fields.isEmpty
    | _ => false

/-- A mapper on a source, where it is one. -/
def mapSource {α : Type} (v : Option Value) (map : Value → Option α) : Option (Option α) :=
  match v with
  | none => some none
  | some v => (map v).map some

/-- `mapHome`. -/
def mapHome (d : Value) : Option HomeData :=
  match mapSource (filledSource d "signal") mapSignal,
      mapSource (filledSource d "battery") mapBattery,
      mapSource (source d "device") mapDevice, mapSource (filledSource d "wan6") mapWan6 with
  | some signal, some battery, some device, some wan6 => some {
      signal := signal
      battery := battery
      speed := (source d "speed").map mapSpeed
      device := device
      wan := (filledSource d "wan").map mapWan
      wan6 := wan6
      cpu := (source d "cpu").map mapCpu
      memory := (source d "memory").map mapMemory
      usage := ((source d "data_usage").filter fun v => (v.get "error").isNone).map mapDataUsage
      thermal := (source d "thermal").map mapThermal
      sources := match d.get "sources" with
        | some (.obj fields) => fields
        | _ => []
      chargeControlError := str (d.get "charge_control_error")
      esim := (source d "esim").map mapEsimSummary }
  | _, _, _, _ => none

end OpenUI.WebApp.Js
