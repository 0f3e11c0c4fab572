import OpenUI.Json
import OpenUI.Unlock.RcLocal

/-!
# `OpenUI.Installer.Identity`: who the modem says it is

Two installers read the modem's identity from its `device_info`: `Identity::from_info` of
`identity.rs`, and `device_identity` of `device_identity.py`. Each takes the first of several fields
that is not blank. The fingerprint is the SHA-256 of the IMEI, in hexadecimal digits.
-/

set_option autoImplicit false

namespace OpenUI.Installer.Identity

open OpenUI.Text OpenUI.Json

/-! ### The native installer -/

/-- The first of the fields that is a text and not blank. -/
def field (info : Value) (names : List String) : Option String :=
  names.findSome? fun name => (info.get name).asStr.filter fun s => trim s != ""

def rejected (reason : String) : InstallerError :=
  .new "The target modem could not be verified"
    ("No deployment files were changed. Check the address, firmware and selected USB device, " ++
      "then detect again.")
    reason

/-- The fields that may name the model. Both installers have this list. -/
def modelNames : List String :=
  ["model", "model_name", "device_name", "product_name", "modelName"]

/-- The fields that may have the firmware version. Both installers have this list. -/
def firmwareNames : List String :=
  ["software_version", "sw_version", "firmware_version", "wa_inner_version", "version"]

/-- The build identifier of stock firmware. -/
def stockMarked (version : List Char) : Bool :=
  decide ("BD_".toList <+: version) && decide ("MU5250V".toList <:+: version)

/-- `model`, as it stands in its field. -/
def modelField (info : Value) : Option String :=
  (field info modelNames).or
    (((field info ["wa_inner_version"]).filter fun value => stockMarked value.toList).map
      fun _ => "ZTE MU5250")

/-- What is left out of a model's name before it is compared. -/
def separates (c : Char) : Bool := c == ' ' || c == '_' || c == '-'

/-- `normalized`. -/
def normalized (model : String) : List Char :=
  (toAsciiLowercase model).toList.filter (!separates ·)

/-- The two names of the product, in a normalized name. -/
def namesProduct (name : List Char) : Bool :=
  decide ("mu5250".toList <:+: name) || decide ("u60pro".toList <:+: name)

/-- 15 digits. -/
def isImei (s : String) : Bool := s.utf8ByteSize == 15 && s.toList.all isAsciiDigit

/-- `Identity::from_info`. -/
def fromInfo (sha256Hex : String → String) (info : Value) : Except InstallerError Identity :=
  match modelField info with
  | none => .error (rejected
      "The device API did not report a supported model or MU5250 firmware identifier.")
  | some model =>
    if !namesProduct (normalized model) then
      .error (rejected "The device API did not identify a ZTE MU5250 / U60 Pro.")
    else match field info firmwareNames with
    | none => .error (rejected "The device API did not report a firmware version.")
    | some firmware =>
      match (field info ["imei"]).filter isImei with
      | none => .error (rejected "A valid device identity was not available.")
      | some imei => .ok
        { model := trim model
          firmware := trim firmware
          fingerprint := sha256Hex imei }

/-! ### The terminal installer -/

namespace Terminal

open OpenUI.Unlock.Terminal (strip isSpace)

/-- `str.lower`, one character after another. It may look at the characters before, the last one
first, and at those after. Beyond ASCII, the Unicode tables give no ASCII character but the `i` of
`U+0130` and the `k` of `U+212A`. -/
structure Lowercase where
  mapping : List Char → Char → List Char → List Char
  ascii : ∀ before c after, c.toNat < 128 → mapping before c after = [lowerChar c]
  beyond : ∀ before c after, 128 ≤ c.toNat →
    mapping before c after ≠ [] ∧
      ∀ d ∈ mapping before c after, d.toNat < 128 → d = 'i' ∨ d = 'k'

/-- `s.lower()`, after the characters before. -/
def Lowercase.lower (l : Lowercase) (before : List Char) : List Char → List Char
  | [] => []
  | c :: cs => l.mapping before c cs ++ l.lower (c :: before) cs

/-- `field`: what is stripped of the first field in which that leaves something. -/
def field (info : List (String × Value)) (names : List String) : List Char :=
  (names.findSome? fun name => ((Value.obj info).get name).asStr.bind fun s =>
    if strip s.toList ≠ [] then some (strip s.toList) else none).getD []

/-- `model`. -/
def modelField (info : List (String × Value)) : List Char :=
  if field info modelNames ≠ [] then field info modelNames
  else if stockMarked (field info ["wa_inner_version"]) then "ZTE MU5250".toList
  else []

/-- `re.fullmatch('[0-9]{15}', imei)`. -/
def isImei (cs : List Char) : Bool := cs.length == 15 && cs.all isAsciiDigit

/-- `device_identity`. -/
def deviceIdentity (l : Lowercase) (sha256Hex : String → String) (info : List (String × Value)) :
    Except String Identity :=
  let model := modelField info
  let firmware := field info firmwareNames
  let normalized := (l.lower [] model).filter (!separates ·)
  let imei := field info ["imei"]
  if !namesProduct normalized || firmware == [] || !isImei imei then
    .error "Device identity or firmware could not be verified as a U60 Pro"
  else .ok
    { model := String.ofList model
      firmware := String.ofList firmware
      fingerprint := sha256Hex (String.ofList imei) }

end Terminal

end OpenUI.Installer.Identity
