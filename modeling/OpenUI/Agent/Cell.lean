import OpenUI.Json
import Mathlib.Data.List.Destutter
import Mathlib.Data.List.Sort

/-!
# `OpenUI.Agent.Cell`: band locking

`agent/src/cell.rs`: the requests that restrict the modem to some bands. NR bands come as a list of
numbers, LTE bands as a decimal mask in which band `N` is bit `N - 1`.
-/

set_option autoImplicit false

namespace OpenUI.Agent.Cell

open OpenUI.Text OpenUI.Json

/-- `LTE_BANDS`. -/
def lteBands : List Nat :=
  [1, 2, 3, 4, 5, 7, 8, 18, 19, 20, 26, 28, 29, 32, 34, 38, 39, 40, 41, 42, 43, 48, 66, 71]

/-- `NR_BANDS`. -/
def nrBands : List Nat :=
  [1, 2, 3, 5, 7, 8, 18, 20, 26, 28, 29, 38, 40, 41, 48, 66, 71, 75, 77, 78, 79]

/-- `str::parse` of an unsigned number below `size`: decimal digits with an optional plus sign. -/
def parseUnsigned (size : Nat) (s : List Char) : Option Nat :=
  let digits : List Char := match s with
    | '+' :: rest => rest
    | _ => s
  let value := Nat.ofDigitChars 10 digits 0
  if digits ≠ [] ∧ digits.all isAsciiDigit ∧ value < size then some value else none

/-- serde's reading of a struct of strings that denies unknown fields. -/
def textFields (names : List String) : Value → Option (List String)
  | .obj fields =>
    if fields.all fun field => names.contains field.1 then
      names.mapM fun name => (fields.lookup name).bind Value.asStr
    else none
  | _ => none

/-! ### NR -/

/-- `parse_band_list`. -/
def parseBandList (value : String) : Except String (List Nat) :=
  match (value.toList.splitOn ',').mapM fun band => parseUnsigned 256 (trimChars band) with
  | none => .error "band list must contain comma-separated numbers"
  | some bands =>
    if bands = [] ∨ nrBands.length < bands.length then .error "select at least one band"
    else
      let unique := (bands.insertionSort (· ≤ ·)).destutter (· ≠ ·)
      if unique.length ≠ bands.length then .error "band list contains duplicates" else .ok bands

structure NrBandLock where
  nr5gType : String
  nr5gBand : String

namespace NrBandLock

/-- The body of a request. -/
def ofJson (body : Value) : Option NrBandLock :=
  match textFields ["nr5g_type", "nr5g_band"] body with
  | some [nr5gType, nr5gBand] => some { nr5gType, nr5gBand }
  | _ => none

def validate (lock : NrBandLock) : Except String Unit :=
  if lock.nr5gType ≠ "SA" then
    .error "this firmware only supports NR band locking in SA mode"
  else match parseBandList lock.nr5gBand with
    | .error e => .error e
    | .ok bands =>
      if bands.any fun band => !nrBands.contains band then
        .error "NR selection contains a band not supported by U60 Pro firmware"
      else .ok ()

end NrBandLock

/-! ### LTE -/

structure LteBandLock where
  isLteBand : String
  lteBandMask : String
  isGwBand : String
  gwBandMask : String

/-- `allowed_mask`. -/
def allowedMask : BitVec 128 :=
  lteBands.foldl (fun allowed band => allowed ||| (1 : BitVec 128) <<< (band - 1)) 0

namespace LteBandLock

/-- The body of a request. -/
def ofJson (body : Value) : Option LteBandLock :=
  match textFields ["is_lte_band", "lte_band_mask", "is_gw_band", "gw_band_mask"] body with
  | some [isLteBand, lteBandMask, isGwBand, gwBandMask] =>
    some { isLteBand, lteBandMask, isGwBand, gwBandMask }
  | _ => none

def validate (lock : LteBandLock) : Except String Unit :=
  if lock.isLteBand ≠ "1" ∨ lock.isGwBand ≠ "0" ∨ lock.gwBandMask ≠ "0" then
    .error "LTE band request does not match the firmware contract"
  else match parseUnsigned (1 <<< 128) lock.lteBandMask.toList with
    | none => .error "lte_band_mask must be a decimal bitmask"
    | some value =>
      let mask := BitVec.ofNat 128 value
      if mask = 0 ∨ mask &&& ~~~allowedMask ≠ 0 then
        .error "LTE mask is empty or contains a band not supported by U60 Pro firmware"
      else .ok ()

end LteBandLock

/-- `cell_band_nr` passes the request on to the firmware. -/
def AcceptsNr (body : Value) : Prop := ∃ lock, NrBandLock.ofJson body = some lock ∧
  lock.validate = .ok ()

/-- `cell_band_lte` passes the request on to the firmware. -/
def AcceptsLte (body : Value) : Prop := ∃ lock, LteBandLock.ofJson body = some lock ∧
  lock.validate = .ok ()

end OpenUI.Agent.Cell
