import OpenUI.Agent.Esim.Card
import OpenUI.Euicc.Coding
import OpenUI.Euicc.Der

/-!
# `OpenUI.Helper.Inventory`: what the helper reports of a card

`parse_profiles` of `euicc/src/es10c.rs`, `parse_notifications` of `euicc/src/es10b.rs`, and the
`inventory` of `esim-helper/src/main.rs` that turns the card's answers into one JSON value. The
functions start from the bodies of the answers. The card's details (`euicc_info2`) are passed on as
they are.
-/

set_option autoImplicit false

namespace OpenUI.Helper

open OpenUI.Euicc OpenUI.Json

/-! ### Profiles -/

/-- `ProfileInfo`, without the AID and the icon, which the inventory does not report. -/
structure ProfileInfo where
  iccid : String := ""
  profileState : Option String := none
  profileNickname : Option String := none
  serviceProviderName : Option String := none
  profileName : Option String := none
  profileClass : Option String := none
  deriving DecidableEq, Repr

/-- `profile_state`. -/
def profileState : Nat → String
  | 0 => "disabled"
  | 1 => "enabled"
  | _ => "unknown"

/-- `profile_class`. -/
def profileClass : Nat → String
  | 0 => "test"
  | 1 => "provisioning"
  | 2 => "operational"
  | _ => "unknown"

namespace ProfileInfo

/-- One element of a profile's entry. A later element of a tag replaces an earlier one. -/
def read (p : ProfileInfo) (t : Tlv) : ProfileInfo :=
  if t.tag = 0x5A then { p with iccid := bcdToIccid t.value }
  else if t.tag = 0x9F70 then
    { p with profileState := some (Helper.profileState (toU64 t.value).toNat) }
  else if t.tag = 0x90 then { p with profileNickname := some (fromUtf8Lossy t.value) }
  else if t.tag = 0x91 then { p with serviceProviderName := some (fromUtf8Lossy t.value) }
  else if t.tag = 0x92 then { p with profileName := some (fromUtf8Lossy t.value) }
  else if t.tag = 0x95 then
    { p with profileClass := some (Helper.profileClass (toU64 t.value).toNat) }
  else p

/-- `profile_json`. An absent class means operational. -/
def json (p : ProfileInfo) : Value :=
  .obj [("iccid", .str p.iccid),
    ("state", Value.ofOption p.profileState),
    ("class", .str (p.profileClass.getD "operational")),
    ("nickname", Value.ofOption p.profileNickname),
    ("provider", Value.ofOption p.serviceProviderName),
    ("name", Value.ofOption p.profileName)]

end ProfileInfo

/-- `parse_profiles`: a ProfileInfoListResponse body. -/
def parseProfiles (body : Bytes) : Option (List ProfileInfo) := do
  let ok ← find body 0xA0
  return ((elements ok.value).filter (·.tag == 0xE3)).map fun info =>
    (elements info.value).foldl ProfileInfo.read {}

/-! ### Notifications -/

/-- `NotificationMetadata`. -/
structure NotificationMetadata where
  seqNumber : Nat := 0
  operation : Option String := none
  address : Option String := none
  iccid : Option String := none
  deriving DecidableEq, Repr

/-- `operation`: the event of a notification, a bit string. -/
def notificationOperation : Bytes → Option String
  | _ :: flags :: _ => some (
    if flags = 0x80 then "install"
    else if flags = 0x40 then "enable"
    else if flags = 0x20 then "disable"
    else if flags = 0x10 then "delete"
    else "unknown")
  | _ => none

namespace NotificationMetadata

/-- One element of a notification's metadata. -/
def read (n : NotificationMetadata) (t : Tlv) : NotificationMetadata :=
  if t.tag = 0x80 then { n with seqNumber := (toU64 t.value).toNat }
  else if t.tag = 0x81 then { n with operation := notificationOperation t.value }
  else if t.tag = 0x0C then { n with address := some (fromUtf8Lossy t.value) }
  else if t.tag = 0x5A then { n with iccid := some (bcdToIccid t.value) }
  else n

/-- `notification_json`. -/
def json (n : NotificationMetadata) : Value :=
  .obj [("seq", .num n.seqNumber),
    ("operation", Value.ofOption n.operation),
    ("address", Value.ofOption (n.address.map Text.trim)),
    ("iccid", Value.ofOption n.iccid)]

end NotificationMetadata

/-- `parse_notifications`: a ListNotificationResponse body. -/
def parseNotifications (body : Bytes) : Option (List NotificationMetadata) := do
  let list ← find body 0xA0
  return ((elements list.value).filter (·.tag == 0xBF2F)).map fun info =>
    (elements info.value).foldl NotificationMetadata.read {}

/-! ### The inventory -/

/-- The card's answers in one inventory read: the bodies of GetEID, of the profile list and of the
notification list, and the card's details. -/
structure CardAnswers where
  eid : Bytes
  info : Value
  profiles : Bytes
  notifications : Bytes

/-- `inventory`: the JSON the agent gets; `none` when an answer is malformed. -/
def inventory (card : CardAnswers) : Option Value := do
  let eid ← find card.eid 0x5A
  let profiles ← parseProfiles card.profiles
  let notifications ← parseNotifications card.notifications
  return .obj [("eid", .str (Agent.Esim.hex eid.value)),
    ("info", card.info),
    ("profiles", .arr (profiles.map ProfileInfo.json)),
    ("notifications", .arr (notifications.map NotificationMetadata.json))]

end OpenUI.Helper
