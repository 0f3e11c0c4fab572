import Mathlib.Data.List.Basic
import OpenUI.Text

/-!
# `OpenUI.WebApp.WifiDraft`: the draft of one Wi-Fi band

`features/network/wifiDraft.ts`: the TX power field, the patch a save sends, and the state a form
keeps: the draft it shows and the base, the latest observation. The base always follows the device.
A pristine draft follows it too, a dirty one never moves.
-/

set_option autoImplicit false

namespace OpenUI.WebApp.Wifi

open OpenUI.Text

inductive BandSuffix where
  | band2g
  | band5g
  deriving DecidableEq

def BandSuffix.text : BandSuffix → String
  | .band2g => "2g"
  | .band5g => "5g"

structure BandDraft where
  ssid : String
  password : String
  /-- `auto` or a channel number. -/
  channel : String
  htmode : String
  /-- Free text from the TX power input. The empty text means to keep the current power. -/
  txpower : String
  hidden : Bool
  deriving DecidableEq

/-! ### TX power -/

/-- The white space and line terminators `String.prototype.trim` removes. -/
def isSpace (c : Char) : Bool :=
  (9 ≤ c.toNat && c.toNat ≤ 13) || c.toNat == 0x20 || c.toNat == 0xA0 || c.toNat == 0x1680
    || (0x2000 ≤ c.toNat && c.toNat ≤ 0x200A) || c.toNat == 0x2028 || c.toNat == 0x2029
    || c.toNat == 0x202F || c.toNat == 0x205F || c.toNat == 0x3000 || c.toNat == 0xFEFF

/-- `text.trim()`. -/
def trimText (text : String) : List Char :=
  ((text.toList.dropWhile isSpace).reverse.dropWhile isSpace).reverse

inductive TxPowerResult where
  | ok (value : Option Nat)
  | error (text : String)
  deriving DecidableEq

/-- `TX_POWER_ERROR`. -/
def txPowerError : String := "Enter a whole number from 1 to 100."

/-- `Number` of a text of decimal digits. -/
def numberOf (digits : List Char) : Nat := digits.foldl (fun n c => 10 * n + (c.toNat - 0x30)) 0

/-- The empty text is valid. The firmware accepts integers from 1 to 100 only. -/
def parseTxPower (text : String) : TxPowerResult :=
  let t := trimText text
  if t = [] then .ok none
  else if !(t.length ≤ 3 && t.all isAsciiDigit) then .error txPowerError
  else if numberOf t < 1 || 100 < numberOf t then .error txPowerError
  else .ok (some (numberOf t))

/-- Canonical text for comparing two TX inputs. -/
def txKey (text : String) : String :=
  match parseTxPower text with
  | .ok none => ""
  | .ok (some value) => toString value
  | .error _ => "invalid:" ++ String.ofList (trimText text)

/-! ### The patch -/

inductive PatchValue where
  | text (value : String)
  | number (value : Nat)
  deriving DecidableEq

/-- One entry of the patch, or none. -/
def entry (send : Bool) (key : String) (suffix : BandSuffix) (value : PatchValue) :
    List (String × PatchValue) :=
  if send then [(key ++ suffix.text, value)] else []

/-- The number of a TX power input that is to be sent. -/
def txToSend (draft base : BandDraft) : Option Nat :=
  match parseTxPower draft.txpower with
  | .ok (some value) => if toString value != txKey base.txpower then some value else none
  | _ => none

/-- Only the intentionally changed fields. -/
def buildBandPatch (suffix : BandSuffix) (draft base : BandDraft) : List (String × PatchValue) :=
  entry (draft.ssid != base.ssid) "ssid_" suffix (.text draft.ssid) ++
  entry (draft.hidden != base.hidden) "hidden_" suffix
    (.text (if draft.hidden then "1" else "0")) ++
  entry (draft.password != base.password) "key_" suffix (.text draft.password) ++
  entry (draft.channel != "" && draft.channel != base.channel) "channel_" suffix
    (.text draft.channel) ++
  entry (draft.htmode != "" && draft.htmode != base.htmode) "htmode_" suffix (.text draft.htmode) ++
  (txToSend draft base).toList.map fun value => ("txpower_" ++ suffix.text, .number value)

/-! ### Draft state -/

structure DraftState where
  editing : Bool
  draft : BandDraft
  base : BandDraft
  /-- The device changed this band's settings while the draft was dirty. -/
  conflict : Bool
  deriving DecidableEq

def sameDraft (a b : BandDraft) : Bool :=
  a.ssid == b.ssid && a.password == b.password && a.channel == b.channel && a.htmode == b.htmode &&
    a.hidden == b.hidden && txKey a.txpower == txKey b.txpower

def isDirty (s : DraftState) : Bool := !sameDraft s.draft s.base

def initDraft (observed : BandDraft) : DraftState :=
  { editing := false, draft := observed, base := observed, conflict := false }

/-- Fold a new observation into the state. -/
def reconcileDraft (state : DraftState) (observed : BandDraft) : DraftState :=
  if sameDraft state.base observed then state
  else if !isDirty state then { state with draft := observed, base := observed, conflict := false }
  else { state with base := observed, conflict := !sameDraft state.draft observed }

def startEditing (s : DraftState) : DraftState :=
    if s.editing then s else { s with editing := true }

/-- `Partial<BandDraft>`. -/
structure BandPatch where
  ssid : Option String
  password : Option String
  channel : Option String
  htmode : Option String
  txpower : Option String
  hidden : Option Bool
  deriving DecidableEq

/-- `{ ...draft, ...patch }`. -/
def BandPatch.onto (patch : BandPatch) (draft : BandDraft) : BandDraft where
  ssid := patch.ssid.getD draft.ssid
  password := patch.password.getD draft.password
  channel := patch.channel.getD draft.channel
  htmode := patch.htmode.getD draft.htmode
  txpower := patch.txpower.getD draft.txpower
  hidden := patch.hidden.getD draft.hidden

def editDraft (s : DraftState) (patch : BandPatch) : DraftState :=
  let draft := patch.onto s.draft
  -- Editing back to the device's values clears an earlier conflict flag.
  if sameDraft draft s.base then { s with draft := draft, conflict := false }
  else { s with draft := draft }

def cancelDraft (s : DraftState) : DraftState :=
  { editing := false, draft := s.base, base := s.base, conflict := false }

def reloadDraft (s : DraftState) : DraftState := { s with draft := s.base, conflict := false }

end OpenUI.WebApp.Wifi
