import OpenUI.WebApp.Payload

/-!
# `OpenUI.WebApp.Signal`: the carriers of the signal page

`mapSignal` of `data/api.ts` and what it is made of. The LTE carriers come from two lists, `lteca`
with the cells and `ltecasig` with what was measured of them; the NR carriers come from one.
-/

set_option autoImplicit false

namespace OpenUI.WebApp.Js

open OpenUI.Text OpenUI.WebApp OpenUI.WebApp.Wifi

/-! ### Frequencies -/

/-- `LTE_BANDS`: the band, `fdl_low` and `noffs_dl`. -/
def lteBands : List (Nat × Nat × Nat) :=
  [(1, 2110, 0), (2, 1930, 600), (3, 1805, 1200), (4, 2110, 1950), (5, 869, 2400),
    (7, 2620, 2750), (8, 925, 3450), (12, 729, 5010), (13, 746, 5180), (14, 758, 5280),
    (17, 734, 5730), (18, 860, 5850), (19, 875, 6000), (20, 791, 6150), (25, 1930, 8040),
    (26, 859, 8690), (28, 758, 9210), (29, 717, 9660), (30, 2350, 9770), (32, 1452, 9920),
    (34, 2010, 36200), (38, 2570, 37750), (39, 1880, 38250), (40, 2300, 38650),
    (41, 2496, 39650), (42, 3400, 41590), (43, 3600, 43590), (48, 3550, 55240),
    (66, 2110, 66436), (71, 617, 68586)]

/-- `earfcnToFreq`, which is asked only for a band number that is not 0. -/
def earfcnToFreq (earfcn : ℚ) (bandNum : Number) : Option ℚ :=
  (lteBands.find? fun band => .finite band.1 = bandNum).map fun band =>
    double (band.2.1 + double (double (1 / 10) * double (earfcn - band.2.2)))

/-! ### Parse helpers -/

/-- `parseNum` of a text. -/
def parseNum (text : String) : Option ℚ := finiteNumber (some (.str text))

/-- `parseInteger` of a text. -/
def parseInteger (text : String) : Option ℚ := (parseNum text).filter (·.isInt)

/-- `lteSignalPci`. -/
def lteSignalPci (v : Option Value) : Option ℚ := intInRange v 0 503

/-- `validRsrp` and `validRssi`: 0 is no measurement. -/
def validRsrp (v : Option Value) : Option ℚ := (finiteNumber v).filter (· < 0)

/-- `text.trim()` as a text. -/
def trimmed (text : String) : String := String.ofList (trimText text)

/-- Whether a segment is skipped as empty. -/
def blank (seg : String) : Bool := trimText seg = []

/-- A segment's field of a number. -/
def part (seg : String) (i : Nat) : String := (splitChar ',' seg).getD i ""

/-- How many fields a segment has. -/
def parts (seg : String) : Nat := (splitChar ',' seg).length

/-- An entry of `parseLteCa`. -/
structure LteCell where
  pci : Option ℚ
  band : String
  earfcn : ℚ
  bw : String
  deriving DecidableEq

/-- What `parseLteCa` takes from a segment. -/
def lteCell (seg : String) : LteCell where
  pci := (parseInteger (part seg 0)).bind fun n => lteSignalPci (some (.num n))
  band := trimmed (part seg 1)
  earfcn := (parseInteger (part seg 3)).getD 0
  bw := trimmed (part seg 4)

/-- Whether a segment is about the primary cell. -/
def isPrimary (pccPci pccEarfcn : Option ℚ) (seg : String) : Bool :=
  pccPci.isSome && pccEarfcn.isSome && parseInteger (part seg 0) == pccPci &&
    parseInteger (part seg 3) == pccEarfcn

/-- The loop of `parseLteCa`. -/
def lteCells (pccPci pccEarfcn : Option ℚ) : Bool → List String → List LteCell
  | _, [] => []
  | pccFound, seg :: rest =>
    if blank seg then lteCells pccPci pccEarfcn pccFound rest
    else if parts seg < 5 then lteCells pccPci pccEarfcn pccFound rest
    else if !pccFound && isPrimary pccPci pccEarfcn seg then lteCells pccPci pccEarfcn true rest
    else lteCell seg :: lteCells pccPci pccEarfcn pccFound rest

/-- `parseLteCa`. -/
def parseLteCa (ltecaStr : String) (pccPci pccEarfcn : Option ℚ) : List LteCell :=
  lteCells pccPci pccEarfcn false (splitChar ';' ltecaStr)

/-- The loop of `extractPccBw`. -/
def pccBw (pccPci pccEarfcn : Option ℚ) : List String → Option String
  | [] => none
  | seg :: rest =>
    if blank seg then pccBw pccPci pccEarfcn rest
    else if parts seg < 5 then pccBw pccPci pccEarfcn rest
    else if isPrimary pccPci pccEarfcn seg then some (trimmed (part seg 4))
    else pccBw pccPci pccEarfcn rest

/-- `extractPccBw`. -/
def extractPccBw (ltecaStr : String) (pccPci pccEarfcn : Option ℚ) : Option String :=
  if ltecaStr = "" ∨ pccPci = none ∨ pccEarfcn = none then none
  else pccBw pccPci pccEarfcn (splitChar ';' ltecaStr)

/-- An entry of `parseCaSig`. -/
structure CaSig where
  rsrp : Option ℚ
  rsrq : Option ℚ
  sinr : Option ℚ
  rssi : Option ℚ
  ulConfigured : Option Bool
  active : Option Bool
  deriving DecidableEq

/-- What `parseCaSig` takes from a segment. -/
def caSig (seg : String) : CaSig where
  rsrp := parseNum (part seg 0)
  rsrq := parseNum (part seg 1)
  sinr := parseNum (part seg 2)
  rssi := parseNum (part seg 3)
  ulConfigured := if 4 < parts seg then some (trimmed (part seg 4) == "1") else none
  active := if 5 < parts seg then some (trimmed (part seg 5) == "2") else none

/-- The loop of `parseCaSig`. -/
def caSigs : List String → List CaSig
  | [] => []
  | seg :: rest =>
    if blank seg then caSigs rest
    else if parts seg < 4 then caSigs rest
    else caSig seg :: caSigs rest

/-- `parseCaSig`. -/
def parseCaSig (sigStr : String) : List CaSig := caSigs (splitChar ';' sigStr)

/-! ### Carriers -/

/-- `CarrierComponent`. -/
structure CarrierComponent where
  label : String
  band : String
  pci : Option ℚ
  earfcn : ℚ
  bandwidth : String
  freq : Option ℚ
  rsrp : Option ℚ
  rsrq : Option ℚ
  sinr : Option ℚ
  rssi : Option ℚ
  ulConfigured : Option Bool
  active : Option Bool
  deriving DecidableEq

/-- A frequency, of a band whose number is known. -/
def freqOf (earfcn : ℚ) (bandNum : Number) : Option ℚ :=
  if bandNum = .finite 0 then none else earfcnToFreq earfcn bandNum

/-- `s || fallback` after a unit was added. -/
def mhz (bw : Option String) : String :=
  match bw with
  | none => "—"
  | some bw => if bw = "" then "—" else bw ++ " MHz"

/-- The number of the band, from the digits of its name. -/
def bandNumber (band : String) : Number :=
  (parseInt (String.ofList (band.toList.filter isAsciiDigit))).orZero

/-- The band that `mapSignal` takes the LTE carriers from. -/
def pccBand (d : Value) : String := (str (d.get "wan_active_band")).getD ""

/-- Whether the LTE fields are about an LTE cell: in SA mode they are stale, and the band is one of
NR's. -/
def lteHasValidData (d : Value) : Bool :=
  let band := pccBand d
  band != "" && band != "0" && band != "B" && band != "B0" &&
    !(band.toList.head? == some 'n' || band.toList.head? == some 'N') &&
    match nonNegativeInt (d.get "wan_active_channel") with
    | some earfcn => decide (0 < earfcn)
    | none => false

/-- The primary LTE carrier. -/
def ltePrimary (d : Value) (pccEarfcn : ℚ) : CarrierComponent where
  label := "PCC"
  band :=
    if bandNumber (pccBand d) = .finite 0 then pccBand d
    else "B" ++ (bandNumber (pccBand d)).text
  pci := lteSignalPci (d.get "lte_pci")
  earfcn := pccEarfcn
  bandwidth := mhz (extractPccBw ((str (d.get "lteca")).getD "") (lteSignalPci (d.get "lte_pci"))
    (some pccEarfcn))
  freq := freqOf pccEarfcn (bandNumber (pccBand d))
  rsrp := validRsrp (d.get "lte_rsrp")
  rsrq := finiteNumber (d.get "lte_rsrq")
  sinr := finiteNumber (d.get "lte_snr")
  rssi := validRsrp (d.get "lte_rssi")
  ulConfigured := some true
  active := some true

/-- A secondary LTE carrier, and what was measured of it. -/
def lteSecondary (i : Nat) (e : LteCell) (sig : Option CaSig) : CarrierComponent where
  label := "SCC" ++ toString i
  band := "B" ++ e.band
  pci := e.pci
  earfcn := e.earfcn
  bandwidth := e.bw ++ " MHz"
  freq := freqOf e.earfcn (parseInt e.band).orZero
  rsrp := (sig.bind (·.rsrp)).filter (· ≠ 0)
  rsrq := (sig.bind (·.rsrq)).filter (· ≠ 0)
  sinr := sig.bind (·.sinr)
  rssi := (sig.bind (·.rssi)).filter (· ≠ 0)
  ulConfigured := sig.bind (·.ulConfigured)
  active := sig.bind (·.active)

/-- The carriers of two lists, joined by their places. -/
def lteSecondaries (entries : List LteCell) (sigs : List CaSig) : List CarrierComponent :=
  entries.zipIdx.map fun e => lteSecondary e.2 e.1 sigs[e.2]?

/-- `lte_carriers` of `mapSignal`. -/
def lteCarriers (d : Value) : List CarrierComponent :=
  let pccPci := lteSignalPci (d.get "lte_pci")
  let pccEarfcn := nonNegativeInt (d.get "wan_active_channel")
  if lteHasValidData d then
    ltePrimary d (pccEarfcn.getD 0) ::
      lteSecondaries (parseLteCa ((str (d.get "lteca")).getD "") pccPci pccEarfcn)
        (parseCaSig ((str (d.get "ltecasig")).getD ""))
  else []

/-! ### NR carriers -/

/-- `nrarfcnToFreq`. -/
def nrarfcnToFreq (arfcn : ℚ) : Option ℚ :=
  if arfcn ≤ 599999 then some (double (double (5 / 1000) * arfcn))
  else if arfcn ≤ 2016666 then
    some (double (3000 + double (double (15 / 1000) * double (arfcn - 600000))))
  else if arfcn ≤ 3279165 then
    some (double (24250 + double (double (6 / 100) * double (arfcn - 2016667))))
  else none

/-- `nrSignalPci`. -/
def nrSignalPci (v : Option Value) : Option ℚ := intInRange v 0 1007

/-- The band that `mapSignal` takes the NR carriers from. -/
def nrBand (d : Value) : String := (str (d.get "nr5g_action_band")).getD ""

/-- The channel that it takes them from. -/
def nrArfcn (d : Value) : ℚ := (nonNegativeInt (d.get "nr5g_action_channel")).getD 0

/-- Whether there is an NR cell. -/
def nrHasValidData (d : Value) : Bool :=
  nrBand d != "" && nrBand d != "0" && nrBand d != "n" && nrBand d != "n0" && decide (0 < nrArfcn d)

/-- The primary NR carrier. -/
def nrPrimary (d : Value) : CarrierComponent where
  label := "PCC"
  band := if (nrBand d).toList.head? = some 'n' then nrBand d else "n" ++ nrBand d
  pci := nrSignalPci (d.get "nr5g_pci")
  earfcn := nrArfcn d
  bandwidth := match finiteNumber (d.get "nr5g_bandwidth") with
    | some bw => textOfNumber bw ++ " MHz"
    | none => "—"
  freq := nrarfcnToFreq (nrArfcn d)
  rsrp := validRsrp (d.get "nr5g_rsrp")
  rsrq := finiteNumber (d.get "nr5g_rsrq")
  sinr := finiteNumber (d.get "nr5g_snr")
  rssi := validRsrp (d.get "nr5g_rssi")
  ulConfigured := some true
  active := some true

/-- The RSRP of a segment, if it was measured: `NR_RSRP_FLOOR` stands for no measurement. -/
def nrRsrp (seg : String) : Option ℚ :=
  if 8 ≤ parts seg then (parseNum (part seg 7)).filter (-140 < ·) else none

/-- Another reading of a segment that was measured. -/
def nrReading (seg : String) (i : Nat) : Option ℚ :=
  if (nrRsrp seg).isSome ∧ i < parts seg then parseNum (part seg i) else none

/-- A secondary NR carrier. -/
def nrSecondary (i : Nat) (seg : String) : CarrierComponent where
  label := "SCC" ++ toString i
  band := "n" ++ textOfNumber ((parseInteger (part seg 3)).getD 0)
  pci := nrSignalPci (some (.str (part seg 1)))
  earfcn := (parseInteger (part seg 4)).getD 0
  bandwidth := trimmed (part seg 5) ++ " MHz"
  freq :=
    if (parseInteger (part seg 4)).getD 0 = 0 then none
    else nrarfcnToFreq ((parseInteger (part seg 4)).getD 0)
  rsrp := nrRsrp seg
  rsrq := nrReading seg 8
  sinr := nrReading seg 9
  rssi := nrReading seg 10
  ulConfigured := some (trimmed (part seg 0) == "1")
  active := some (trimmed (part seg 2) == "2")

/-- Whether a segment of `nrca` is shown as a secondary carrier. -/
def nrShown (d : Value) (seg : String) : Bool :=
  let pci := nrSignalPci (some (.str (part seg 1)))
  !blank seg && 6 ≤ parts seg &&
    !(pci.isSome && pci == nrSignalPci (d.get "nr5g_pci") &&
      (parseInteger (part seg 4)).getD 0 == nrArfcn d)

/-- The segments of `nrca` that are shown. -/
def nrSegments (d : Value) : List String :=
  (splitChar ';' ((str (d.get "nrca")).getD "")).filter (nrShown d)

/-- `nr_carriers` of `mapSignal`. -/
def nrCarriers (d : Value) : List CarrierComponent :=
  if nrHasValidData d then
    nrPrimary d :: (nrSegments d).zipIdx.map fun seg => nrSecondary seg.2 seg.1
  else []

/-! ### The serving cell -/

/-- The characters outside ASCII whose upper case has ASCII letters, and that upper case. -/
def specialUpper : List (Char × List Char) :=
  [('ß', ['S', 'S']), ('ŉ', ['ʼ', 'N']), ('ſ', ['S']), ('ı', ['I']), ('ǰ', ['J', Char.ofNat 0x30C]),
    ('ẖ', ['H', Char.ofNat 0x331]), ('ẗ', ['T', Char.ofNat 0x308]), ('ẘ', ['W', Char.ofNat 0x30A]),
    ('ẙ', ['Y', Char.ofNat 0x30A]), ('ẚ', ['A', 'ʾ']), ('ﬀ', ['F', 'F']), ('ﬁ', ['F', 'I']),
    ('ﬂ', ['F', 'L']), ('ﬃ', ['F', 'F', 'I']), ('ﬄ', ['F', 'F', 'L']), ('ﬅ', ['S', 'T']),
    ('ﬆ', ['S', 'T'])]

/-- `toUpperCase` of a character, as far as ASCII letters come of it: no pattern here has others. -/
def upperChar (c : Char) : List Char :=
  if 'a' ≤ c ∧ c ≤ 'z' then [Char.ofNat (c.toNat - 0x20)] else (specialUpper.lookup c).getD [c]

/-- `text.trim().toUpperCase()`. -/
def upperText (text : String) : List Char := (trimText text).flatMap upperChar

/-- `\w`. -/
def isWord (c : Char) : Bool := isAsciiAlphanumeric c || c == '_'

/-- Whether `/\bSA\b/` matches, after the character before. -/
def hasWordSa : Option Char → List Char → Bool
  | _, [] => false
  | before, c :: rest =>
    !before.any isWord && ['S', 'A'].isPrefixOf (c :: rest) && !(rest.drop 1).head?.any isWord ||
      hasWordSa (some c) rest

/-- `NetworkMode`. -/
inductive NetworkMode where
  | sa
  | nsa
  | lte
  | unknown
  deriving DecidableEq

/-- `classifyNetworkType`. -/
def classifyNetworkType (type : Option Value) : NetworkMode :=
  let t := upperText ((str type).getD "")
  let includes (pattern : String) : Bool := decide (pattern.toList <:+: t)
  if t = [] then .unknown
  else if includes "ENDC" || includes "EN-DC" || includes "NSA" then .nsa
  else if hasWordSa none t then .sa
  else if t == "4G".toList || includes "LTE" then .lte
  else .unknown

/-- `PrimaryCarrier`. -/
structure PrimaryCarrier where
  rat : String
  carrier : CarrierComponent

/-- `pickPrimary`. -/
def pickPrimary (mode : NetworkMode) (lte nr : List CarrierComponent) : Option PrimaryCarrier :=
  let lteP := (lte.find? (·.label == "PCC")).map fun c => { rat := "lte", carrier := c }
  let nrP := (nr.find? (·.label == "PCC")).map fun c => { rat := "nr", carrier := c }
  match mode with
  | .sa => nrP
  | .lte => lteP
  | .nsa => lteP
  | .unknown =>
    match lteP, nrP with
    | some p, none => some p
    | none, some p => some p
    | _, _ => none

/-- `parseCellId`. -/
def parseCellId (id : Option Value) : Option Nat :=
  let num := match id with
    | some (.str s) => numberOfText s
    | some (.num x) => .finite x
    | _ => .nan
  match num with
  | .finite x => if isSafeInteger x ∧ 0 < x then some x.num.toNat else none
  | _ => none

/-- `n.toString(16).toUpperCase()`. -/
def hexText (n : Nat) : String :=
  String.ofList ((Nat.toDigits 16 n).flatMap upperChar)

/-- `formatEci`. -/
def formatEci (id : Option Value) : Option String :=
  (parseCellId id).map fun eci => hexText (eci / 256) ++ "|" ++ hexText (eci % 256)

/-- `formatNci`. -/
def formatNci (id : Option Value) : Option String := (parseCellId id).map hexText

/-! ### `mapSignal` -/

/-- `SignalInfo`. -/
structure SignalInfo where
  type : Option String
  carrier : Option String
  signalBars : Option ℚ
  cellId : Option String
  lteCarriers : List CarrierComponent
  nrCarriers : List CarrierComponent
  primary : Option PrimaryCarrier
  netSelect : Option String
  lteBandLockState : BandLockState
  nrSaBandLockState : BandLockState
  nrNsaBandLockState : BandLockState
  rawLteBandLock : String
  rawNrBandLock : String
  rawNrSaBandLock : Option String
  rawNrNsaBandLock : Option String
  band : String

/-- `cell_id` of `mapSignal`: on an LTE anchor it is the LTE cell's. -/
def cellIdOf (d : Value) : Option String :=
  let mode := classifyNetworkType (d.get "network_type")
  let is4g := mode = .lte ∨ mode = .nsa
  if is4g ∧ (parseCellId (d.get "cell_id")).isSome then formatEci (d.get "cell_id")
  else (formatNci (d.get "nr5g_cell_id")).or (formatEci (d.get "cell_id"))

/-- `mapSignal`. It throws when a band lock has no text. -/
def mapSignal (d : Value) : Option SignalInfo :=
  match textOr (d.get "lte_band_lock") "", textOr (d.get "nr5g_sa_band_lock") "",
      textOr (d.get "nr5g_nsa_band_lock") "" with
  | some lte, some sa, some nsa => some {
      type := str (d.get "network_type")
      carrier := (nonEmptyStr (d.get "network_provider_fullname")).or
        (nonEmptyStr (d.get "network_provider"))
      signalBars := intInRange (d.get "signalbar") 0 5
      cellId := cellIdOf d
      lteCarriers := lteCarriers d
      nrCarriers := nrCarriers d
      primary := pickPrimary (classifyNetworkType (d.get "network_type")) (lteCarriers d)
        (nrCarriers d)
      netSelect := str (d.get "net_select")
      lteBandLockState := parseLteBandLock (str (d.get "lte_band_lock"))
      nrSaBandLockState := parseNrBandLock (str (d.get "nr5g_sa_band_lock"))
      nrNsaBandLockState := parseNrBandLock (str (d.get "nr5g_nsa_band_lock"))
      rawLteBandLock := lte
      rawNrBandLock := "SA=" ++ sa ++ " NSA=" ++ nsa
      rawNrSaBandLock := str (d.get "nr5g_sa_band_lock")
      rawNrNsaBandLock := str (d.get "nr5g_nsa_band_lock")
      band := pccBand d }
  | _, _, _ => none

end OpenUI.WebApp.Js
