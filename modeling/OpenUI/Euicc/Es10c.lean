import OpenUI.Euicc.Coding
import OpenUI.Euicc.Der

/-!
# `OpenUI.Euicc.Es10c`: the requests that name a profile

`euicc/src/es10c.rs`: a profile is named by the AID of its ISD-P or by its ICCID, and a request to
enable, disable or delete it carries that name.
-/

set_option autoImplicit false

namespace OpenUI.Euicc.Es10c

/-- The bytes of pairs of hexadecimal digits. -/
def hexPairs : Bytes → Option Bytes
  | [] => some []
  | [_] => none
  | high :: low :: rest => do
    let high ← hexDigit high
    let low ← hexDigit low
    return (high <<< 4 ||| low) :: (← hexPairs rest)

/-- `hex::decode`. -/
def decodeHex (hex : String) : Option Bytes := hexPairs (utf8 hex)

/-- `u8::is_ascii_hexdigit`. -/
def isHexdigit (b : UInt8) : Bool := (hexDigit b).isSome

/-- `profile_id`: a 32-hex-digit ISD-P AID, or an ICCID. -/
def profileId (id : String) : Except Error Node :=
  if (utf8 id).length = 32 then
    match decodeHex id with
    | none => .error (.argument "ISD-P AID")
    | some aid => .ok (.prim 0x4F aid)
  else if utf8 id = [] ∨ 20 < (utf8 id).length ∨ ¬ (utf8 id).all isHexdigit then
    .error (.argument "ICCID")
  else match iccidToBcd id 10 with
    | none => .error (.argument "ICCID")
    | some bcd => .ok (.prim 0x5A bcd)

/-- `switch_request`: EnableProfile (BF31) or DisableProfile (BF32); `refresh` asks the card to tell
the modem to reload. -/
def switchRequest (tag : Nat) (id : String) (refresh : Bool) : Except Error Node := do
  let profile ← profileId id
  return .cons tag [.cons 0xA0 [profile], .prim 0x81 [if refresh then 0xFF else 0x00]]

/-- The request of `enable_profile`. -/
def enableProfile (id : String) (refresh : Bool) : Except Error Node :=
  switchRequest 0xBF31 id refresh

/-- The request of `disable_profile`. -/
def disableProfile (id : String) (refresh : Bool) : Except Error Node :=
  switchRequest 0xBF32 id refresh

/-- The request of `delete_profile`. -/
def deleteProfile (id : String) : Except Error Node := do
  let profile ← profileId id
  return .cons 0xBF33 [profile]

end OpenUI.Euicc.Es10c
