import OpenUI.Text

/-!
# `OpenUI.Agent.Esim.Checks`: what the agent checks before it asks the helper

The validators at the end of `agent/src/esim.rs`, and the plain words for a failed download.
-/

set_option autoImplicit false

namespace OpenUI.Agent.Esim

open OpenUI.Text

/-- `MAX_ACTIVATION_CODE`, in bytes. -/
def maxActivationCode : Nat := 512
/-- `MAX_CONFIRMATION_CODE`, in bytes. -/
def maxConfirmationCode : Nat := 64

/-- One label of a DNS host name. -/
def validLabel (l : List Char) : Bool :=
  !l.isEmpty && (String.ofList l).utf8ByteSize ≤ 63 && l.head? != some '-'
    && l.getLast? != some '-' && l.all (fun c => isAsciiAlphanumeric c || c == '-')

/-- `valid_server_address`: a DNS host name with an optional port; no IP literals. -/
def validServerAddress (address : String) : Bool :=
  let (host, port) := splitPort address.toList
  if port.any (fun p => (parseU16 p).all (· == 0)) then
    false
  else
    let labels := host.splitOn '.'
    !host.isEmpty && (String.ofList host).utf8ByteSize ≤ 253 && 2 ≤ labels.length
      && labels.all validLabel && !(labels.getLast?.any (·.all isAsciiDigit))

/-- `check_activation_code`: whether a confirmation code is required. -/
def checkActivationCode (code : String) : Except String Bool :=
  let code := trim code
  if code.isEmpty || maxActivationCode < code.utf8ByteSize || code.toList.any isControl then
    .error "the activation code is empty, too long or contains control characters"
  else
    let fields := splitChar '$' code
    if !eqIgnoreAsciiCase (fields.headD "") "LPA:1" then
      .error "the activation code must start with LPA:1$"
    else if fields.length < 3 then
      .error "the activation code has the wrong number of fields"
    else if !validServerAddress (trim (fields.getD 1 "")) then
      .error "the activation code has an invalid server address"
    else
      .ok (fields[4]? == some "1")

/-- `format_char` of `valid_nickname`: the invisible format characters it refuses. -/
def formatChar (c : Char) : Bool :=
  let n := c.toNat
  n == 0x00AD || (0x0600 ≤ n && n ≤ 0x0605) || n == 0x061C || n == 0x06DD || n == 0x070F
    || n == 0x08E2 || n == 0x180E || (0x200B ≤ n && n ≤ 0x200F) || (0x202A ≤ n && n ≤ 0x202E)
    || (0x2060 ≤ n && n ≤ 0x2064) || (0x2066 ≤ n && n ≤ 0x206F) || n == 0xFEFF
    || (0xFFF9 ≤ n && n ≤ 0xFFFB) || n == 0xE0001 || (0xE0020 ≤ n && n ≤ 0xE007F)

/-- `valid_nickname`. -/
def validNickname (name : String) : Except String Unit :=
  if 64 < name.utf8ByteSize then
    .error "nickname must be at most 64 bytes of UTF-8"
  else if name.toList.any (fun c => isControl c || formatChar c) then
    .error "nickname contains control or invisible formatting characters"
  else .ok ()

/-- `explain_download_failure`. -/
def explainDownloadFailure (message : String) : String :=
  let m := toAsciiLowercase message
  let reason := trimEndMatches '.' (afterOnce ": " message)
  if contains m "eid-blacklist" || contains m "eid blacklist" then
    "Nothing was installed. The provider's server refuses this eSIM card (" ++ reason
      ++ "). Ask the provider whether they support removable eSIM cards."
  else if contains m "matchingid" then
    "Nothing was installed. The provider refused this activation code (" ++ reason
      ++ "): it may be used already, cancelled, tied to another device or not yet released. Ask "
      ++ "the provider to check or reissue it."
  else if contains m "confirmation code" then
    "Nothing was installed. The confirmation code was missing or refused (" ++ reason
      ++ "). Check it with the provider."
  else if contains m "http transport failed" || contains m "http status code error" then
    "Nothing was installed. The provider's server could not be reached (" ++ reason
      ++ "). Check the router's mobile data and try again; the code is usually still usable."
  else match stripPrefix "the card refused the profile" message with
    | some rest => "Nothing was installed. The card refused the profile" ++ rest ++ "."
    | none => "Nothing was installed: " ++ message ++ "."

end OpenUI.Agent.Esim
