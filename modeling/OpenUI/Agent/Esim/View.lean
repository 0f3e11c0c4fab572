import OpenUI.Agent.Esim.State

/-!
# `OpenUI.Agent.Esim.View`: what a client is shown

`view` of `agent/src/esim.rs`, with the pre-switch warnings it computes. The inventory's texts are
shown unless `identifier_like` takes them for an identifier of their own profile or of the card. The
profiles are sorted by name with Unicode lower case, a function of the standard library that is a
parameter here, as is the time.
-/

set_option autoImplicit false

namespace OpenUI.Agent.Esim

open OpenUI.Json OpenUI.Text

/-! ### Names -/

/-- `Status::as_str`. -/
def Status.asStr : Status → String
  | .detecting => "detecting"
  | .ready => "ready"
  | .unsupported => "unsupported"
  | .unavailable => "unavailable"
  | .helperMissing => "helper_missing"

/-- `OpState::as_str`. -/
def OpState.asStr : OpState → String
  | .pending => "pending"
  | .reloading => "reloading"
  | .verifying => "verifying"
  | .succeeded => "succeeded"
  | .busy => "busy"
  | .refused => "refused"
  | .failed => "failed"
  | .unknown => "unknown"
  | .connecting => "connecting"
  | .awaitingConfirmation => "awaiting_confirmation"
  | .installing => "installing"
  | .cancelled => "cancelled"

/-! ### Warnings -/

/-- `WarningInputs`: inputs for the pre-switch warnings, read from the firmware. -/
structure WarningInputs where
  manualApn : Bool := false
  roamingEnabled : Option Bool := none
  simMcc : Option String := none
  networkMcc : Option String := none

/-- `str::get(..n)`: the first `n` bytes, if they are whole characters. -/
def firstBytes : Nat → List Char → Option (List Char)
  | 0, _ => some []
  | _ + 1, [] => none
  | n + 1, c :: cs =>
    if c.utf8Size ≤ n + 1 then (firstBytes (n + 1 - c.utf8Size) cs).map (c :: ·) else none

/-- The country codes of two digits. -/
def twoDigitCountries : List String :=
  ["20", "27", "30", "31", "32", "33", "34", "36", "39", "40", "41", "43", "44", "45", "46", "47",
    "48", "49", "51", "52", "53", "54", "55", "56", "57", "58", "60", "61", "62", "63", "64", "65",
    "66", "81", "82", "84", "86", "90", "91", "92", "93", "94", "95", "98"]

/-- `iccid_country`: the E.164 country code of an ICCID. North American issuers write their code
as "01". -/
def iccidCountry (iccid : String) : Option (List Char) := do
  let rest ← stripPrefix "89" iccid
  let rest := ((stripPrefix "0" rest).getD rest).toList
  let two ← firstBytes 2 rest
  let first ← rest.head?
  firstBytes
    (if first = '1' ∨ first = '7' then 1
    else if String.ofList two ∈ twoDigitCountries then 2
    else 3) rest

/-- The target's issuing country differs from that of the active profile. -/
def countriesDiffer (active : Option CardProfile) (target : CardProfile) : Bool :=
  match active.bind (fun a => iccidCountry a.iccid), iccidCountry target.iccid with
  | some a, some t => a != t
  | _, _ => false

/-- `switch_warnings`: read-only warnings shown before activating `target`. -/
def switchWarnings (target : CardProfile) (active : Option CardProfile) (inputs : WarningInputs) :
    List String :=
  let atHome := inputs.simMcc.isSome && inputs.simMcc == inputs.networkMcc
  (if inputs.manualApn then ["manual_apn"] else []) ++
    (if inputs.roamingEnabled == some false && atHome && countriesDiffer active target
      then ["roaming_off"] else [])

/-! ### Profiles -/

/-- `clean`: a text of a profile, unless it is really an identifier. -/
def CardProfile.clean (p : CardProfile) (eid : String) (t : Option String) : Option String :=
  t.filter (fun t => !identifierLike t p.iccid eid)

/-- The name a profile goes by: its nickname, its name or its provider. -/
def CardProfile.displayName (p : CardProfile) (eid : String) : Option String :=
  ((p.clean eid p.nickname).or (p.clean eid p.name)).or (p.clean eid p.provider)

/-- One entry of the profile list. -/
def CardProfile.view (p : CardProfile) (eid : String) (active : Option CardProfile)
    (inputs : WarningInputs) (locked : List String) : Value :=
  let warnings :=
    if p.state == "disabled" && p.class' == "operational" then switchWarnings p active inputs
    else []
  .obj [("handle", .str p.handle),
    ("display_name", Value.ofOption (p.displayName eid)),
    ("nickname", Value.ofOption (p.clean eid p.nickname)),
    ("name", Value.ofOption (p.clean eid p.name)),
    ("provider", Value.ofOption (p.clean eid p.provider)),
    ("iccid_masked", .str (mask p.iccid)),
    ("state", .str p.state),
    ("class", .str p.class'),
    ("locked", .bool (decide (p.handle ∈ locked))),
    ("warnings", Value.ofStrings warnings)]

/-- The key the list is sorted by: active first, then by name, unnamed last. -/
def sortKey (toLowercase : String → String) (p : Value) : Bool × Bool × String :=
  ((p.get "state").asStr != some "enabled",
    (p.get "display_name").asStr.isNone,
    toLowercase ((p.get "display_name").asStr.getD ""))

/-- The lexicographic order of the keys; `false` comes first. -/
def keyLe (a b : Bool × Bool × String) : Bool :=
  if a.1 != b.1 then b.1
  else if a.2.1 != b.2.1 then b.2.1
  else decide (a.2.2 ≤ b.2.2)

/-- The profile list, sorted. -/
def profileList (toLowercase : String → String) (inputs : WarningInputs) (inner : Inner) :
    List Value :=
  match inner.inventory with
  | none => []
  | some inv =>
    (inv.profiles.map fun p => p.view inv.eid inv.enabled inputs inner.locked).mergeSort
      (fun p q => keyLe (sortKey toLowercase p) (sortKey toLowercase q))

/-! ### The view -/

/-- An optional value: `null` when there is none. -/
def orNull (v : Option Value) : Value := v.getD .null

/-- Why a change cannot be started now. -/
def blockedBy (inner : Inner) : Option String :=
  if inner.status = .helperMissing then some "helper_missing"
  else if inner.inventory.isNone then some "no_inventory"
  else if inner.operationBusy then some "operation_in_progress"
  else none

/-- The card's details. -/
def Inventory.cardView (inv : Inventory) : Value :=
  .obj [("id", .str (mask inv.eid)),
    ("firmware", inv.info.get "firmware"),
    ("sgp22_version", inv.info.get "sgp22_version"),
    ("profile_version", inv.info.get "profile_version"),
    ("free_nvm_bytes", inv.info.get "free_nvm_bytes"),
    ("free_ram_bytes", inv.info.get "free_ram_bytes"),
    ("pending_receipts", .num inv.notifications.length)]

/-- `label`: the name of the profile behind a handle, or its masked ICCID. -/
def Inventory.label (inv : Inventory) (handle : String) : Option String :=
  (inv.find handle).map fun p => (p.displayName inv.eid).getD (mask p.iccid)

/-- The operation, as a client sees it. -/
def Operation.view (o : Operation) (now : Nat) (inv : Option Inventory) : Value :=
  .obj [("id", .str o.id),
    ("kind", .str o.kind.asStr),
    ("target", Value.ofOption (if o.target.isEmpty then none else some o.target)),
    ("target_name", Value.ofOption (inv.bind (fun i => i.label o.target))),
    ("previous", Value.ofOption o.previous),
    ("state", .str o.state.asStr),
    ("resolved", .bool o.state.resolved),
    ("message", Value.ofOption o.message),
    ("step", Value.ofOption o.step),
    ("preview", orNull o.preview),
    ("can_cancel", .bool (o.kind == .download
      && (o.state == .connecting || o.state == .awaitingConfirmation))),
    ("preview_expires_in_ms", orNull
      ((o.previewUntil.filter (fun _ => o.state == .awaitingConfirmation)).map
        (fun t => .num (t - now))))]

/-- How fresh the inventory is, and what the last read failed with. -/
def freshnessView (now : Nat) (inner : Inner) : Value :=
  .obj [("age_ms", orNull (inner.inventory.map (fun i => .num (now - i.observed)))),
    ("stale", .bool inner.readError.isSome),
    ("error", orNull (inner.readError.map
      (fun e => .obj [("kind", .str e.1), ("message", .str e.2)])))]

/-- The receipts that are still to be sent. -/
def Receipts.view (r : Receipts) : Value :=
  .obj [("pending", .num r.pending.length),
    ("last_error", Value.ofOption r.lastError),
    ("gave_up", .bool r.gaveUp),
    ("sending", .bool r.worker)]

/-- `view`. -/
def view (toLowercase : String → String) (inputs : WarningInputs) (now : Nat) (inner : Inner) :
    Value :=
  .obj [("status", .str inner.status.asStr),
    ("available", .bool (inner.status == .ready)),
    ("diagnostic", Value.ofOption inner.diagnostic),
    ("card", orNull (inner.inventory.map Inventory.cardView)),
    ("profiles", .arr (profileList toLowercase inputs inner)),
    ("revision", .num inner.revision),
    ("freshness", freshnessView now inner),
    ("operation", orNull (inner.operation.map (fun o => o.view now inner.inventory))),
    ("receipts", inner.receipts.view),
    ("actions", .obj [("enabled", .bool (blockedBy inner).isNone),
      ("blocked_by", Value.ofOption (blockedBy inner))]),
    ("hardware_validated", .obj [("switching", .bool true)])]

end OpenUI.Agent.Esim
