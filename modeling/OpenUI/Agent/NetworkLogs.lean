import OpenUI.Agent.CsvUtils

/-!
# `OpenUI.Agent.NetworkLogs`: the rows of the signal and connection loggers

`agent/src/signal_logger.rs` and `agent/src/connection_logger.rs`: the first writes a row for every
observation of the network, the second one for every change from one observation to the next.
-/

set_option autoImplicit false

namespace OpenUI.Agent.NetworkLogs

open OpenUI.Text OpenUI.Agent.CsvUtils

/-! ### `signal_logger.rs` -/

namespace SignalLogger

/-- `HEADER`. -/
def header : String :=
  "timestamp,datetime,network_type,carrier,cell_id,lte_band,lte_pci,lte_earfcn,lte_rsrp,lte_rsrq," ++
  "lte_sinr,lte_rssi,nr_band,nr_pci,nr_arfcn,nr_rsrp,nr_rsrq,nr_sinr,nr_rssi,lte_ca_bands," ++
  "nr_ca_bands"

/-- The bands of a carrier list: the part of each of its segments at a place, after a letter. -/
def caBands (list : String) (place : Nat) (letter : String) : String :=
  "+".intercalate (((splitChar ';' list).filter (· ≠ "")).filterMap fun seg =>
    ((splitChar ',' seg)[place]?).map (letter ++ ·))

/-- The LTE bands in `lteca`. -/
def lteCa (data : Info) : String := caBands (strField data "lteca") 1 "B"

/-- The NR bands in `nrca`. -/
def nrCa (data : Info) : String := caBands (strField data "nrca") 3 "n"

/-- `format_row`. -/
def formatRow (ts : UInt64) (data : Info) : String :=
  ",".intercalate
    [toString ts.toNat,
      deviceDatetime ts,
      csvEscape (strField data "network_type"),
      csvEscape (strField data "network_provider_fullname"),
      strField data "cell_id",
      csvEscape (strField data "wan_active_band"),
      strField data "lte_pci",
      strField data "wan_active_channel",
      strField data "lte_rsrp",
      strField data "lte_rsrq",
      strField data "lte_snr",
      strField data "lte_rssi",
      csvEscape (strField data "nr5g_action_band"),
      strField data "nr5g_pci",
      strField data "nr5g_action_channel",
      strField data "nr5g_rsrp",
      strField data "nr5g_rsrq",
      strField data "nr5g_snr",
      strField data "nr5g_rssi",
      csvEscape (lteCa data),
      csvEscape (nrCa data)]

end SignalLogger

/-! ### `connection_logger.rs` -/

namespace ConnectionLogger

/-- `HEADER`. -/
def header : String := "timestamp,datetime,event_type,detail,old_value,new_value"

structure Snapshot where
  cellId : String
  lteBand : String
  nrBand : String
  networkType : String
  ltePci : String
  nrPci : String
  deriving DecidableEq

/-- `Snapshot::from`. -/
def Snapshot.ofInfo (data : Info) : Snapshot where
  cellId := strField data "cell_id"
  lteBand := strField data "wan_active_band"
  nrBand := strField data "nr5g_action_band"
  networkType := strField data "network_type"
  ltePci := strField data "lte_pci"
  nrPci := strField data "nr5g_pci"

inductive Event where
  | cellHandover
  | lteBandChange
  | nrConnected
  | nrDisconnected
  | nrBandChange
  | modeChange
  | ltePciChange
  | nrPciChange
  deriving DecidableEq

/-- The `event_type` of a row. -/
def Event.text : Event → String
  | .cellHandover => "cell_handover"
  | .lteBandChange => "lte_band_change"
  | .nrConnected => "nr_connected"
  | .nrDisconnected => "nr_disconnected"
  | .nrBandChange => "nr_band_change"
  | .modeChange => "mode_change"
  | .ltePciChange => "lte_pci_change"
  | .nrPciChange => "nr_pci_change"

/-- The `detail` of a row. -/
def Event.detail : Event → String
  | .cellHandover => "cell_id changed"
  | .lteBandChange => "LTE band changed"
  | .nrConnected | .nrDisconnected | .nrBandChange => "NR band changed"
  | .modeChange => "Network type changed"
  | .ltePciChange => "LTE PCI changed"
  | .nrPciChange => "NR PCI changed"

/-- A change that is logged. -/
structure Change where
  event : Event
  old : String
  new : String
  deriving DecidableEq

/-- The change of a field that had a value before. -/
def changeOf (event : Event) (old new : String) : List Change :=
  if new ≠ old ∧ old ≠ "" then [⟨event, old, new⟩] else []

/-- The event of a change of the NR band. -/
def nrEvent (old new : String) : Option Event :=
  if old = "" ∧ new ≠ "" then some .nrConnected
  else if old ≠ "" ∧ new = "" then some .nrDisconnected
  else if old ≠ "" then some .nrBandChange
  else none

/-- The change of the NR band. -/
def nrBandChange (old new : String) : List Change :=
  if new ≠ old then (nrEvent old new).toList.map fun event => ⟨event, old, new⟩ else []

/-- The change of the NR cell, which had one before and has one now. -/
def nrPciChange (old new : String) : List Change :=
  if new ≠ old ∧ old ≠ "" ∧ new ≠ "" then [⟨.nrPciChange, old, new⟩] else []

/-- What has changed from `p` to `cur`. -/
def changes (p cur : Snapshot) : List Change :=
  changeOf .cellHandover p.cellId cur.cellId ++
  changeOf .lteBandChange p.lteBand cur.lteBand ++
  nrBandChange p.nrBand cur.nrBand ++
  changeOf .modeChange p.networkType cur.networkType ++
  changeOf .ltePciChange p.ltePci cur.ltePci ++
  nrPciChange p.nrPci cur.nrPci

/-- The row of a change. -/
def formatChange (ts : UInt64) (change : Change) : String :=
  ",".intercalate
    [toString ts.toNat, deviceDatetime ts, change.event.text, change.event.detail,
      csvEscape change.old, csvEscape change.new]

/-- The changes since the observation before, if there was one. -/
def changesSince (previous : Option Info) (data : Info) : List Change :=
  match previous with
  | some p => changes (.ofInfo p) (.ofInfo data)
  | none => []

/-- `rows`, with the observation that is the previous one from now on. -/
def rows (ts : UInt64) (data : Info) (previous : Option Info) : List String × Option Info :=
  ((changesSince previous data).map (formatChange ts), some data)

end ConnectionLogger

end OpenUI.Agent.NetworkLogs
