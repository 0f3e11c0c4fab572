import OpenUI.Agent.Wifi
import OpenUI.WebApp.Payload

/-!
# `OpenUI.WebApp.WifiValidation`: the check of a Wi-Fi form

`validateDraft` of `features/network/wifiDraft.ts`, on the texts as JavaScript holds them, and the
way of such a text to the agent.
-/

set_option autoImplicit false

namespace OpenUI.WebApp.Js

open OpenUI.Text OpenUI.WebApp.Wifi

/-! ### Code points -/

def isLeadingSurrogate (u : UInt16) : Bool := 0xD800 ≤ u.toNat && u.toNat < 0xDC00

def isTrailingSurrogate (u : UInt16) : Bool := 0xDC00 ≤ u.toNat && u.toNat < 0xE000

/-- The code points of a string. A surrogate without its other half stands for itself. -/
def codePoints : JsString → List Nat
  | [] => []
  | [u] => [u.toNat]
  | u :: v :: rest =>
    if isLeadingSurrogate u && isTrailingSurrogate v then
      (0x10000 + (u.toNat - 0xD800) * 0x400 + (v.toNat - 0xDC00)) :: codePoints rest
    else u.toNat :: codePoints (v :: rest)

/-- The bytes of a code point in UTF-8. `TextEncoder` replaces a surrogate by U+FFFD, which has as
many. -/
def utf8Length (n : Nat) : Nat :=
  if n ≤ 0x7F then 1 else if n ≤ 0x7FF then 2 else if n ≤ 0xFFFF then 3 else 4

/-- `byteLength`. -/
def byteLength (s : JsString) : Nat := ((codePoints s).map utf8Length).sum

/-- No surrogate is without its other half: `isWellFormed`. -/
def wellFormed (s : JsString) : Bool := (codePoints s).all fun n => n < 0xD800 || 0xE000 ≤ n

/-- What reaches the agent. `JSON.stringify` writes an unpaired surrogate as an escape, and
serde_json refuses the request. -/
def received (s : JsString) : Option String :=
  if wellFormed s then some (String.ofList ((codePoints s).map Char.ofNat)) else none

/-! ### `validateDraft` -/

/-- The texts of a `BandDraft` that are checked. -/
structure FormDraft where
  ssid : JsString
  password : JsString
  txpower : JsString

structure DraftErrors where
  ssid : Option String
  password : Option String
  txpower : Option String

/-- `SSID_FORBIDDEN`. -/
def ssidForbidden (u : UInt16) : Bool :=
  [0x27, 0x22, 0x3B, 0x24, 0x60, 0x5C, 0x7C, 0x3C, 0x3E, 0x26].contains u.toNat

/-- `CONTROL`. -/
def control (u : UInt16) : Bool := u.toNat ≤ 0x1F || u.toNat == 0x7F

/-- `[0-9a-fA-F]`. -/
def isHexUnit (u : UInt16) : Bool :=
  (0x30 ≤ u.toNat && u.toNat ≤ 0x39) || (0x61 ≤ u.toNat && u.toNat ≤ 0x66)
    || (0x41 ≤ u.toNat && u.toNat ≤ 0x46)

/-- `/^[0-9a-fA-F]{64}$/`. -/
def isHex64 (s : JsString) : Bool := s.length == 64 && s.all isHexUnit

/-- The characters that the TX power field is looked at by. Half of a surrogate pair is neither
white space nor a digit. -/
def unitText (s : JsString) : String :=
  String.ofList (s.map fun u =>
    if isLeadingSurrogate u || isTrailingSurrogate u then '\uFFFD' else Char.ofNat u.toNat)

def ssidLengthError : String := "The network name must be 1–32 bytes."

def ssidCharacterError : String :=
  "The network name cannot contain quotes, ; $ ` \\ | < > & or control characters."

def passwordCharacterError : String := "The password cannot contain control characters."

def passwordLengthError : String := "The password must be 8–63 characters."

/-- The error of a changed network name. -/
def ssidError (ssid : JsString) : Option String :=
  let len := byteLength ssid
  if len < 1 || 32 < len then some ssidLengthError
  else if ssid.any ssidForbidden || ssid.any control then some ssidCharacterError
  else none

/-- The error of a changed password. -/
def passwordError (password : JsString) : Option String :=
  let len := byteLength password
  let hex64 := len == 64 && isHex64 password
  if password.any control then some passwordCharacterError
  else if !((8 ≤ len && len ≤ 63) || hex64) then some passwordLengthError
  else none

def validateDraft (draft base : FormDraft) (security : Option String) : DraftErrors where
  ssid := if draft.ssid ≠ base.ssid then ssidError draft.ssid else none
  password :=
    if draft.password ≠ base.password ∧ security ≠ some "none" then passwordError draft.password
    else none
  txpower := match parseTxPower (unitText draft.txpower) with
    | .ok _ => none
    | .error error => some error

/-! ### `wifi_value` -/

/-- The agent takes the text of the form as the field `key`. -/
def AgentTakes (key : String) (text : JsString) (cfg : Agent.Wifi.WifiConfig) : Prop :=
  ∃ s, received text = some s ∧ Agent.Wifi.wifiValue key (.str s) cfg = .ok s

end OpenUI.WebApp.Js
