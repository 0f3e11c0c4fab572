import OpenUI.Json
import OpenUI.WebApp.Draft
import OpenUI.WebApp.WifiDraft

/-!
# `OpenUI.WebApp.Bands`: band locks as they are sent and as they are read

`data/bands.ts` reads what the firmware reports, and `bandLockLte` and `bandLockNr` of `data/api.ts`
write what the agent is asked for. A band number is a natural number, and a `BigInt` one too.
-/

set_option autoImplicit false

namespace OpenUI.WebApp

open OpenUI.Text OpenUI.Json OpenUI.WebApp.Wifi

/-! ### Requests -/

/-- The mask of some bands: band `N` is bit `N - 1`. -/
def lteMask (bandNumbers : List Nat) : Nat :=
  bandNumbers.foldl (fun mask b => mask ||| 1 <<< (b - 1)) 0

/-- The body that `bandLockLte` posts. -/
def bandLockLte (bandNumbers : List Nat) : Value :=
  .obj [("is_lte_band", .str "1"), ("lte_band_mask", .str (toString (lteMask bandNumbers))),
    ("is_gw_band", .str "0"), ("gw_band_mask", .str "0")]

/-- The body that `bandLockNr` posts. -/
def bandLockNr (bands : String) : Value :=
  .obj [("nr5g_type", .str "SA"), ("nr5g_band", .str bands)]

/-- `bands.join(',')`. -/
def joinBands (bands : List Nat) : String :=
  String.ofList ([','].intercalate (bands.map (Nat.toDigits 10)))

/-! ### Observations -/

/-- Bands as JavaScript numbers. -/
def numbers (bands : List Nat) : List ℚ := bands.map Nat.cast

/-- `MAX_LTE_BAND`. -/
def maxLteBand : Nat := 128

/-- `MAX_NR_BAND`. -/
def maxNrBand : Nat := 1024

/-- The value of a hexadecimal digit. -/
def hexDigit (c : Char) : Nat :=
  if isAsciiDigit c then c.toNat - 0x30
  else if 0x61 ≤ c.toNat then c.toNat - 0x61 + 10
  else c.toNat - 0x41 + 10

/-- The number of some hexadecimal digits. -/
def hexNumberOf (digits : List Char) : Nat := digits.foldl (fun n c => 16 * n + hexDigit c) 0

/-- `BigInt(t)` of `0x` with hexadecimal digits or of decimal digits, and nothing else. -/
def readMask (t : List Char) : Option Nat :=
  let digits := t.drop 2
  if (t.take 2 = ['0', 'x'] ∨ t.take 2 = ['0', 'X']) ∧ digits ≠ [] ∧ digits.all isAsciiHexdigit then
    some (hexNumberOf digits)
  else if t ≠ [] ∧ t.all isAsciiDigit then some (numberOf t)
  else none

/-- The bands whose bits are set. -/
def bandsOf (mask : Nat) : List Nat :=
  (List.range' 1 maxLteBand).filter fun b => (mask >>> (b - 1)) % 2 == 1

/-- `parseLteBandLock`. A value that is no string is `none`. -/
def parseLteBandLock (raw : Option String) : BandLockState :=
  match raw with
  | none => .unknown
  | some raw =>
    let t := trimText raw
    if t = [] ∨ t = ['0'] then .automatic
    else match readMask t with
      | none => .unknown
      | some mask =>
        if mask = 0 then .automatic
        else if mask >>> maxLteBand ≠ 0 ∨ bandsOf mask = [] then .unknown
        else .locked (numbers (bandsOf mask))

/-- One number of a list. -/
def readBand (token : List Char) : Option Nat :=
  let part := trimText (String.ofList token)
  if part ≠ [] ∧ part.all isAsciiDigit ∧ 1 ≤ numberOf part ∧ numberOf part ≤ maxNrBand then
    some (numberOf part)
  else none

/-- `parseNrBandLock`. A value that is no string is `none`. -/
def parseNrBandLock (raw : Option String) : BandLockState :=
  match raw with
  | none => .unknown
  | some raw =>
    let t := trimText raw
    if t = [] ∨ t = ['0'] then .automatic
    else match (t.splitOn ',').mapM readBand with
      | none => .unknown
      | some bands => .locked (normaliseBands (some (numbers bands)))

end OpenUI.WebApp
