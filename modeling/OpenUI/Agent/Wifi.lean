import OpenUI.Agent.UciTransaction
import OpenUI.Json

/-!
# `OpenUI.Agent.Wifi`: a request to change the Wi-Fi settings

`agent/src/wifi.rs`: the settings are read once for a request (`WifiConfig::load`), the request is
checked against them, and what differs becomes a list of changes for one transaction.
-/

set_option autoImplicit false

namespace OpenUI.Agent.Wifi

open OpenUI.Text OpenUI.Json OpenUI.Euicc OpenUI.Concurrency OpenUI.Agent.Uci
open OpenUI.Agent.UciTransaction

/-- `WIFI_ONOFF_KEY`. -/
def wifiOnoffKey : String := "wifi_onoff"

/-- `WIFI6_SWITCH_KEY`. -/
def wifi6SwitchKey : String := "wifi6_switch"

/-- `WifiConfig`: the whole `wireless` and `zte_mbb` packages. -/
structure WifiConfig where
  wireless : List (String × String)
  mbb : List (String × String)

namespace WifiConfig

/-- `WifiConfig::load`, from the outputs of the two commands. -/
def load (wireless mbb : Option Bytes) : WifiConfig where
  wireless := uciShow "wireless" wireless
  mbb := uciShow "zte_mbb" mbb

/-- `get`. -/
def get (cfg : WifiConfig) (key : String) : String := (cfg.wireless.lookup key).getD ""

/-- The package that an option of this name is looked up in. -/
def package (cfg : WifiConfig) (config : String) : List (String × String) :=
  if config = "wireless" then cfg.wireless else cfg.mbb

end WifiConfig

/-- `bandwidth_options`. -/
def bandwidthOptions (hwmode standards : String) (is5g : Bool) : List String :=
  let mode := toAsciiLowercase hwmode
  let supported := (splitChar ',' standards).map fun value => toAsciiLowercase (trim value)
  let has : String → Bool := fun standard => supported.contains standard
  let label :=
    if contains mode "be" || has "be" then "EHT"
    else if contains mode "ax" || has "ax" then "HE"
    else if is5g && (contains mode "ac" || has "ac") then "VHT"
    else "HT"
  let widths := if is5g then ["20", "40", "80", "160"] else ["20", "40"]
  widths.map fun width => label ++ width

/-- `WIFI_FIELDS`: the fields of a request and their options. -/
def wifiFields : List (String × String) :=
  [("ssid_2g", "wireless.main_2g.ssid"),
    ("ssid_5g", "wireless.main_5g.ssid"),
    ("key_2g", "wireless.main_2g.key"),
    ("key_5g", "wireless.main_5g.key"),
    ("encryption_2g", "wireless.main_2g.encryption"),
    ("encryption_5g", "wireless.main_5g.encryption"),
    ("hidden_2g", "wireless.main_2g.hidden"),
    ("hidden_5g", "wireless.main_5g.hidden"),
    ("channel_2g", "wireless.wifi0.channel"),
    ("channel_5g", "wireless.wifi1.channel"),
    ("txpower_2g", "wireless.wifi0.txpowerpercent"),
    ("txpower_5g", "wireless.wifi1.txpowerpercent"),
    ("htmode_2g", "wireless.wifi0.htmode"),
    ("htmode_5g", "wireless.wifi1.htmode"),
    ("radio2_disabled", "wireless.wifi0.disabled"),
    ("radio5_disabled", "wireless.wifi1.disabled")]

/-- `starts_with`. -/
def startsWith (s pattern : String) : Bool := decide (pattern.toList <+: s.toList)

/-- `ends_with`. -/
def endsWith (s pattern : String) : Bool := decide (pattern.toList <:+ s.toList)

/-- The text of a value. -/
def textOf (key : String) : Value → Except String String
  | .str s => .ok s
  | .bool b => .ok (if b then "1" else "0")
  | .num n => .ok (toString n)
  | _ => .error (key ++ " has an invalid type")

/-- The shell's metacharacters: quotes, `;`, `$`, the backtick, the backslash, `|`, `<`, `>`,
`&`. -/
def isShellMeta (c : Char) : Bool :=
  [0x27, 0x22, 0x3B, 0x24, 0x60, 0x5C, 0x7C, 0x3C, 0x3E, 0x26].contains c.toNat

/-- A name that the firmware's scripts can carry. -/
def validSsid (text : String) : Bool :=
  1 ≤ text.utf8ByteSize && text.utf8ByteSize ≤ 32 && !text.toList.any isShellMeta

/-- A WPA passphrase, or a key in hex. -/
def validKey (text : String) : Bool :=
  (8 ≤ text.utf8ByteSize && text.utf8ByteSize ≤ 63)
    || (text.utf8ByteSize == 64 && text.toList.all isAsciiHexdigit)

/-- The encryptions that can be set. -/
def encryptions : List String :=
  ["none", "psk2", "psk2+ccmp", "psk2+aes", "psk3", "psk3-mixed", "sae", "sae-mixed"]

/-- The channels of the 5 GHz band. -/
def channels5g : List Nat :=
  [36, 40, 44, 48, 52, 56, 60, 64, 100, 104, 108, 112, 116, 120, 124, 128, 132, 136, 140, 144, 149,
    153, 157, 161, 165]

/-- The rule of a field: whether it takes a text without control characters. -/
def validText (key text : String) (cfg : WifiConfig) : Bool :=
  if startsWith key "ssid_" then validSsid text
  else if startsWith key "key_" then validKey text
  else if startsWith key "encryption_" then encryptions.contains text
  else if startsWith key "txpower_" then
    (parseU16 text.toList).any fun n => 1 ≤ n && n ≤ 100
  else if startsWith key "channel_" then
    text == "auto" || text == "0" || (parseU16 text.toList).any fun n =>
      if endsWith key "2g" then 1 ≤ n && n ≤ 13 else channels5g.contains n
  else if startsWith key "htmode_" then
    let radio := if endsWith key "2g" then "wifi0" else "wifi1"
    (bandwidthOptions (cfg.get (radio ++ ".hwmode")) (cfg.get (radio ++ ".SupportedStandards"))
      (endsWith key "5g")).contains text
  else text == "0" || text == "1"

/-- `wifi_value`. -/
def wifiValue (key : String) (value : Value) (cfg : WifiConfig) : Except String String :=
  match textOf key value with
  | .error e => .error e
  | .ok text =>
    if text.toList.any isControl then .error (key ++ " contains a control character")
    else if validText key text cfg then .ok text
    else .error (key ++ " is outside the supported values")

/-- `path.split_once('.').unwrap()`: the package of an option and its name there. -/
def splitPath (path : String) : String × String := (splitOnce '.' path).getD (path, "")

/-- The option is there. -/
def WifiConfig.has (cfg : WifiConfig) (path : String) : Bool :=
  ((cfg.package (splitPath path).1).lookup (splitPath path).2).isSome

/-- The options that a field of a request stands for. -/
def pathsOf (key : String) (cfg : WifiConfig) : Except String (List String) :=
  if key = wifiOnoffKey ∨ key = wifi6SwitchKey then
    let paths := ["wireless.zte_mbb." ++ key, "zte_mbb.wifi." ++ key].filter cfg.has
    .ok (if key = wifiOnoffKey ∧ (cfg.wireless.lookup "zte_mbb.wifi_onoff_by_user").isSome then
      paths ++ ["wireless.zte_mbb.wifi_onoff_by_user"] else paths)
  else match wifiFields.lookup key with
    | none => .error ("unknown Wi-Fi setting: " ++ key)
    | some path => .ok [path]

/-- The changes of one field: each of its options that has another value. -/
def changesOf (key after : String) (cfg : WifiConfig) : List String → Except String (List Change)
  | [] => .ok []
  | path :: rest =>
    match (cfg.package (splitPath path).1).lookup (splitPath path).2 with
    | none => .error (key ++ " is unavailable on this firmware")
    | some before =>
      match changesOf key after cfg rest with
      | .error e => .error e
      | .ok changes =>
        .ok (if before ≠ after then { key := path, before, after } :: changes else changes)

/-- What a client sends for a key that it does not change. -/
def maskedKey : String := "••••••••"

/-- The changes of one field of a request. -/
def planField (key : String) (value : Value) (cfg : WifiConfig) : Except String (List Change) :=
  match pathsOf key cfg with
  | .error e => .error e
  | .ok paths =>
    if paths = [] then .error (key ++ " is not supported by this firmware")
    else if startsWith key "key_" ∧ value.asStr = some maskedKey then .ok []
    else match wifiValue key value cfg with
      | .error e => .error e
      | .ok after => changesOf key after cfg paths

/-- The changes of the fields, one after the other. -/
def planFields (cfg : WifiConfig) : List (String × Value) → Except String (List Change)
  | [] => .ok []
  | (key, value) :: rest =>
    match planField key value cfg with
    | .error e => .error e
    | .ok changes => match planFields cfg rest with
      | .error e => .error e
      | .ok more => .ok (changes ++ more)

/-- The value a band's option is going to have. -/
def effective (changes : List Change) (cfg : WifiConfig) (band field : String) : String :=
  match changes.find? fun c => c.key == "wireless.main_" ++ band ++ "." ++ field with
  | some change => change.after
  | none => cfg.get ("main_" ++ band ++ "." ++ field)

/-- An encrypted band needs a key. -/
def checkKey (fields : List (String × Value)) (changes : List Change) (cfg : WifiConfig)
    (band : String) : Except String Unit :=
  if (fields.lookup ("encryption_" ++ band)).isSome ∨ (fields.lookup ("key_" ++ band)).isSome then
    if effective changes cfg band "encryption" ≠ "none" then
      match wifiValue ("key_" ++ band) (.str (effective changes cfg band "key")) cfg with
      | .error e => .error e
      | .ok _ => .ok ()
    else .ok ()
  else .ok ()

/-- `plan_wifi`. -/
def planWifi (parsed : Value) (cfg : WifiConfig) : Except String (List Change) :=
  match parsed with
  | .obj fields =>
    if fields = [] ∨ wifiFields.length + 2 < fields.length then
      .error "empty or oversized Wi-Fi update"
    else match planFields cfg fields with
      | .error e => .error e
      | .ok changes =>
        match checkKey fields changes cfg "2g", checkKey fields changes cfg "5g" with
        | .error e, _ => .error e
        | .ok (), .error e => .error e
        | .ok (), .ok () => .ok changes
  | _ => .error "expected a Wi-Fi settings object"

/-- A refusal's body. -/
def refusal (error : String) : Value := .obj [("ok", .bool false), ("error", .str error)]

/-- `wifi_set`, from the body as serde_json parses it and from what `WifiConfig::load` reads. -/
def wifiSet (body : Except String Value) (cfg : WifiConfig) : Program Call (Nat × Value) :=
  match body with
  | .error error => pure (400, refusal ("invalid Wi-Fi settings: " ++ error))
  | .ok parsed =>
    match planWifi parsed cfg with
    | .error error => pure (400, refusal error)
    | .ok changes => do
      let applied ← apply changes
      match applied with
      | .error failure => pure (503, refusal failure.text)
      | .ok () =>
        let data := .obj [("status", .str "ok"), ("changed", .bool (decide (changes ≠ [])))]
        pure (200, .obj [("ok", .bool true), ("data", data)])

/-! ### What a plan leaves -/

/-- An option's value after the changes. -/
def changed (changes : List Change) (path value : String) : String :=
  ((changes.find? fun c => c.key == path).map Change.after).getD value

/-- The configuration after the changes. -/
def WifiConfig.applied (changes : List Change) (cfg : WifiConfig) : WifiConfig where
  wireless := cfg.wireless.map fun entry =>
    (entry.1, changed changes ("wireless." ++ entry.1) entry.2)
  mbb := cfg.mbb.map fun entry => (entry.1, changed changes ("zte_mbb." ++ entry.1) entry.2)

end OpenUI.Agent.Wifi
