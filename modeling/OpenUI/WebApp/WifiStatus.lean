import OpenUI.WebApp.Signal

/-!
# `OpenUI.WebApp.WifiStatus`: the Wi-Fi page's data

`mapWifi` of `data/api.ts`, and `widthMhz` of `data/wifiWidth.ts`. The two bands are mapped alike,
from fields whose names end in the band.
-/

set_option autoImplicit false

namespace OpenUI.WebApp.Js

open OpenUI.Text OpenUI.WebApp OpenUI.WebApp.Wifi

/-! ### Widths -/

/-- `VALID_WIDTHS`. -/
def validWidths : List Nat := [20, 40, 80, 160, 320]

/-- `HT40`, `VHT80`, `HE160` and the like: the digits. -/
def modeDigits (t : List Char) : Option (List Char) :=
  ["HT", "VHT", "HE", "EHT"].findSome? fun mode =>
    let rest := t.drop mode.length
    let digits := rest.takeWhile isAsciiDigit
    let tail := rest.dropWhile isAsciiDigit
    if mode.toList.isPrefixOf t ∧ digits.length ∈ [2, 3] ∧ tail ∈ [[], ['+'], ['-']] then
      some digits
    else none

/-- `80 MHz`, `80MHz`, `80`, `20.0 MHz`: the digits. -/
def plainDigits (t : List Char) : Option (List Char) :=
  let digits := t.takeWhile isAsciiDigit
  let tail := t.dropWhile isAsciiDigit
  let zeros := tail.tail.takeWhile (· == '0')
  let unit :=
    if tail.head? = some '.' ∧ zeros ≠ [] then tail.tail.dropWhile (· == '0') else tail
  if digits.length ∈ [2, 3] ∧ unit.dropWhile isSpace ∈ [[], "MHZ".toList] then some digits else none

/-- `widthMhz`. -/
def widthMhz : Option Value → Option ℚ
  | some (.num x) => if validWidths.any fun w => x == w then some x else none
  | some (.str s) =>
    let t := upperText s
    match (modeDigits t).or (plainDigits t) with
    | some digits => if numberOf digits ∈ validWidths then some (numberOf digits) else none
    | none => none
  | _ => none

/-! ### `mapWifi` -/

/-- `WifiBand`. -/
structure WifiBand where
  ssid : Option Value
  enabled : Bool
  channel : Option ℚ
  bandwidth : Option String
  configuredChannel : String
  configuredBandwidth : Option String
  configuredWidthMhz : Option ℚ
  actualWidthMhz : Option ℚ
  txpowerPercent : Option ℚ
  bandwidthOptions : Option Value
  supportedStandards : Option Value
  actualChannel : Option ℚ
  actualBandwidth : Option String
  password : Option Value
  security : Option Value
  hidden : Bool
  clients : Field

/-- `WifiAll`. -/
structure WifiAll where
  band2g : WifiBand
  band5g : WifiBand
  guestSsid : Option Value
  masterSupported : Bool
  masterEnabled : Bool
  wifi6Supported : Bool
  wifi6Enabled : Option Bool
  wifi7Supported : Bool

/-- Whether a field is the text `1`. -/
def isOne (v : Option Value) : Bool := str v == some "1"

/-- `parseChannelNumber`, of the value's text: a finite number, from decimal digits. -/
def channelOfText (raw : String) : Option ℚ :=
  let t := trimText raw
  let body := if t.head? = some '+' ∨ t.head? = some '-' then t.tail else t
  let digits := body.takeWhile isAsciiDigit
  if digits = [] then none
  else toDouble (if t.head? = some '-' then -(numberOf digits : ℚ) else numberOf digits)

/-- `String(v ?? 'auto') || 'auto'`, and `0` is automatic too. -/
def configuredChannelOf (raw : String) : String := if raw = "" ∨ raw = "0" then "auto" else raw

/-- A band of `mapWifi`, from the fields of its suffix. `radio` is the field that disables it. -/
def mapBand (d : Value) (suffix radio : String) : Option WifiBand :=
  match textOr (d.get ("actual_channel_" ++ suffix)) "",
      textOr (d.get ("channel_" ++ suffix)) "auto" with
  | some actual, some configured => some {
      ssid := d.get ("ssid_" ++ suffix)
      enabled := !isOne (d.get radio)
      channel := channelOfText actual
      bandwidth := str (d.get ("actual_bw_" ++ suffix))
      configuredChannel := configuredChannelOf configured
      configuredBandwidth := str (d.get ("htmode_" ++ suffix))
      configuredWidthMhz := widthMhz (d.get ("htmode_" ++ suffix))
      actualWidthMhz := widthMhz ((str (d.get ("actual_bw_" ++ suffix))).map .str)
      txpowerPercent := intInRange (d.get ("txpower_" ++ suffix)) 1 100
      bandwidthOptions := d.get ("bandwidth_options_" ++ suffix)
      supportedStandards := d.get ("supported_standards_" ++ suffix)
      actualChannel := channelOfText actual
      actualBandwidth := str (d.get ("actual_bw_" ++ suffix))
      password :=
        if !falsy (d.get ("key_" ++ suffix)) then d.get ("key_" ++ suffix)
        else if !falsy (d.get ("has_key_" ++ suffix)) then some (.str "••••••••")
        else none
      security := d.get ("encryption_" ++ suffix)
      hidden := isOne (d.get ("hidden_" ++ suffix))
      clients := cast (d.get ("clients_" ++ suffix)) }
  | _, _ => none

/-- `mapWifi`. -/
def mapWifi (d : Value) : Option WifiAll :=
  let wifi6Supported := (boolLike (d.get "wifi6_supported")).getD (d.get "wifi6_switch").isSome
  match mapBand d "2g" "radio2_disabled", mapBand d "5g" "radio5_disabled" with
  | some band2g, some band5g => some {
      band2g := band2g
      band5g := band5g
      guestSsid := d.get "guest_ssid"
      masterSupported :=
        (boolLike (d.get "wifi_onoff_supported")).getD (d.get "wifi_onoff").isSome
      masterEnabled := (boolLike (d.get "wifi_onoff")).getD true
      wifi6Supported := wifi6Supported
      wifi6Enabled :=
        if wifi6Supported then some ((boolLike (d.get "wifi6_switch")).getD false) else none
      wifi7Supported := (boolLike (d.get "wifi7_supported")).getD false }
  | _, _ => none

end OpenUI.WebApp.Js
