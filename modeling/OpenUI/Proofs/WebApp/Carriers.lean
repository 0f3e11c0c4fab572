import OpenUI.Proofs.WebApp.Bands
import OpenUI.Proofs.WebApp.Fields

/-!
# `OpenUI.Proofs.WebApp.Carriers`: the numbers of the signal page

`mapSignal` checks its numbers, but for two things: the channel of a secondary carrier that cannot
be read becomes 0, and there are channels whose frequency is computed as 0. It throws only on a band
lock without a text.

* `carrier_honest_iff`: a carrier is honest exactly when its channel was read.
* `lteCarriers_honest_iff`, `nrCarriers_honest_iff`: the two lists.
* `mapSignal_iff`: when the signal page is mapped, with honest numbers.
-/

set_option autoImplicit false

namespace OpenUI.WebApp.Js

open OpenUI.Text OpenUI.WebApp OpenUI.WebApp.Wifi

/-! ### Carriers -/

/-- What the payload carried for a carrier. -/
structure CarrierSource where
  pci : Option ℚ
  earfcn : Option ℚ
  rsrp : Option ℚ
  rsrq : Option ℚ
  sinr : Option ℚ
  rssi : Option ℚ

/-- The numbers of a carrier. The frequency is computed from the channel. -/
def CarrierComponent.numbers (c : CarrierComponent) (source : CarrierSource) : List Reading :=
  [(checked c.pci, source.pci), (.number (.finite c.earfcn), source.earfcn),
    (checked c.freq, source.earfcn), (checked c.rsrp, source.rsrp), (checked c.rsrq, source.rsrq),
    (checked c.sinr, source.sinr), (checked c.rssi, source.rssi)]

/-- The readings of a carrier, without its channel and frequency. -/
def CarrierComponent.measured (c : CarrierComponent) (source : CarrierSource) : List Reading :=
  [(checked c.pci, source.pci), (checked c.rsrp, source.rsrp), (checked c.rsrq, source.rsrq),
    (checked c.sinr, source.sinr), (checked c.rssi, source.rssi)]

/-- A channel that was read, whose frequency is not 0 where it is not 0 itself. -/
def PlainChannel (channel : Option ℚ) (freq : ℚ → Option ℚ) : Prop :=
  ∃ e, channel = some e ∧ (freq e = some 0 → e = 0)

/-- A carrier whose readings were checked, and whose channel is the one that was read or 0. -/
theorem carrier_honest_iff (c : CarrierComponent) (source : CarrierSource) {p : ℚ → Bool}
    {freq : ℚ → Option ℚ} (hmeasured : ∀ r ∈ c.measured source, Honest r) (hp : p 0 = true)
    (hearfcn : c.earfcn = (source.earfcn.filter p).getD 0)
    (hfreq : c.earfcn ≠ 0 → c.freq = freq c.earfcn) :
    (∀ r ∈ c.numbers source, Honest r) ↔ PlainChannel (source.earfcn.filter p) freq := by
  simp only [CarrierComponent.measured, List.forall_mem_cons] at hmeasured
  obtain ⟨hpci, hrsrp, hrsrq, hsinr, hrssi, -⟩ := hmeasured
  simp only [CarrierComponent.numbers, List.forall_mem_cons, hpci, hrsrp, hrsrq, hsinr, hrssi,
    List.not_mem_nil, false_implies, implies_true, and_true, true_and, honest_number_iff]
  constructor
  · rintro ⟨⟨y, hy, hzero⟩, hshown⟩
    -- What was carried passed the check: it would have been 0 otherwise, and 0 passes.
    have hpass : p y = true := by
      by_contra hfail
      rw [hy, Option.filter_some, if_neg hfail, Option.getD_none] at hearfcn
      rw [hzero hearfcn] at hfail
      exact hfail hp
    rw [hy, Option.filter_some, if_pos hpass] at hearfcn
    rw [hy, Option.filter_some, if_pos hpass]
    rw [Option.getD_some] at hearfcn
    refine ⟨y, rfl, fun hf => by_contra fun hne => ?_⟩
    rw [hfreq (by rwa [hearfcn]), hearfcn, hf, hy] at hshown
    obtain ⟨z, hz, hzero⟩ := honest_number_iff.mp hshown
    exact hne ((Option.some.inj hz).trans (hzero rfl))
  · rintro ⟨e, he, hzero⟩
    have hcarried : source.earfcn = some e := (Option.filter_eq_some_iff.mp he).1
    rw [he, Option.getD_some] at hearfcn
    rw [hearfcn] at hfreq
    rw [hearfcn, hcarried]
    refine ⟨⟨e, rfl, id⟩, ?_⟩
    cases hf : c.freq with
    | none => exact .inl rfl
    | some f =>
      refine honest_number_iff.mpr ⟨e, rfl, fun h => by_contra fun hne => hne (hzero ?_)⟩
      rw [← hfreq hne, hf, h]

/-- The carriers of a page, each with its source. -/
def carrierNumbers (carriers : List CarrierComponent) (sources : List CarrierSource) :
    List Reading :=
  (carriers.zip sources).flatMap fun c => c.1.numbers c.2

/-- A primary carrier and the others. -/
theorem carrierNumbers_cons {β : Type} (c : CarrierComponent) (source : CarrierSource)
    (l : List β) (f : β → CarrierComponent) (g : β → CarrierSource) :
    (∀ r ∈ carrierNumbers (c :: l.map f) (source :: l.map g), Honest r) ↔
      (∀ r ∈ c.numbers source, Honest r) ∧ ∀ b ∈ l, ∀ r ∈ (f b).numbers (g b), Honest r := by
  rw [carrierNumbers, List.zip_cons_cons, List.flatMap_cons, List.forall_mem_append, List.zip_map',
    List.flatMap_map]
  simp only [List.forall_mem_flatMap]

/-- What holds of the elements holds of them with their places. -/
theorem forall_mem_zipIdx {α : Type} (l : List α) (P : α → Prop) :
    (∀ a ∈ l.zipIdx, P a.1) ↔ ∀ a ∈ l, P a := by
  calc (∀ a ∈ l.zipIdx, P a.1) ↔ ∀ a ∈ l.zipIdx.map Prod.fst, P a := List.forall_mem_map.symm
    _ ↔ ∀ a ∈ l, P a := by rw [List.zipIdx_map_fst]

/-! ### LTE -/

/-- A channel that can be shown. -/
theorem nonNegativeInt_eq (v : Option Value) :
    nonNegativeInt v = (finiteNumber v).filter fun n => decide (0 ≤ n) && isSafeInteger n := by
  rw [nonNegativeInt, nonNegative, Option.filter_filter]

section Lte

variable (d : Value)

/-- The segments of the secondary LTE carriers that are shown. -/
def cellSegments : List String := (secondarySegments d).filter cellSegment

/-- The segment that a secondary carrier's readings are taken from. -/
def readingSegment (i : Nat) : Option String := ((sigSegments d).filter sigSegment)[i]?

/-- What the payload carries for the primary LTE carrier. -/
def ltePrimarySource : CarrierSource where
  pci := finiteNumber (d.get "lte_pci")
  earfcn := finiteNumber (d.get "wan_active_channel")
  rsrp := finiteNumber (d.get "lte_rsrp")
  rsrq := finiteNumber (d.get "lte_rsrq")
  sinr := finiteNumber (d.get "lte_snr")
  rssi := finiteNumber (d.get "lte_rssi")

/-- What two segments carry for a secondary one. -/
def lteSecondarySource (seg : String) (reading : Option String) : CarrierSource where
  pci := parseNum (part seg 0)
  earfcn := parseNum (part seg 3)
  rsrp := reading.bind fun seg => parseNum (part seg 0)
  rsrq := reading.bind fun seg => parseNum (part seg 1)
  sinr := reading.bind fun seg => parseNum (part seg 2)
  rssi := reading.bind fun seg => parseNum (part seg 3)

/-- What the payload carries for the LTE carriers. -/
def lteSources : List CarrierSource :=
  if lteHasValidData d then
    ltePrimarySource d ::
      (cellSegments d).zipIdx.map fun seg => lteSecondarySource seg.1 (readingSegment d seg.2)
  else []

/-- The channel of a secondary carrier can be read. -/
def PlainCell (seg : String) : Prop :=
  PlainChannel (parseInteger (part seg 3)) (freqOf · (parseInt (trimmed (part seg 1))).orZero)

/-- There are no LTE carriers, or they are plain. -/
def PlainLte : Prop :=
  lteHasValidData d = true →
    PlainChannel (nonNegativeInt (d.get "wan_active_channel")) (freqOf · (bandNumber (pccBand d))) ∧
      ∀ seg ∈ cellSegments d, PlainCell seg

variable {d}

/-- The primary LTE carrier. -/
theorem ltePrimary_honest_iff :
    (∀ r ∈ (ltePrimary d ((nonNegativeInt (d.get "wan_active_channel")).getD 0)).numbers
        (ltePrimarySource d), Honest r) ↔
      PlainChannel (nonNegativeInt (d.get "wan_active_channel"))
        (freqOf · (bandNumber (pccBand d))) := by
  rw [nonNegativeInt_eq]
  refine carrier_honest_iff _ (ltePrimarySource d) ?_ (by decide)
    (by simp only [ltePrimary, ltePrimarySource]) fun _ => by simp only [ltePrimary]
  simp only [CarrierComponent.measured, List.forall_mem_cons, ltePrimary, ltePrimarySource,
    lteSignalPci, honest_intInRange, honest_validRsrp, honest_finiteNumber, true_and,
    List.not_mem_nil, false_implies, implies_true]

/-- The readings of a secondary carrier, of which some values are none. -/
theorem bind_caSig (reading : Option String) (i : Nat) (read : CaSig → Option ℚ)
    (hread : ∀ seg, read (caSig seg) = parseNum (part seg i)) :
    (reading.map caSig).bind read = reading.bind fun seg => parseNum (part seg i) := by
  cases reading with
  | none => rfl
  | some seg => rw [Option.map_some, Option.bind_some, Option.bind_some, hread]

/-- The cell of a segment, checked once more. -/
theorem honest_lteCell_pci (seg : String) :
    Honest (checked (lteCell seg).pci, parseNum (part seg 0)) := by
  refine honest_checked fun x hx => ?_
  simp only [lteCell] at hx
  obtain ⟨n, hn, hx⟩ := Option.bind_eq_some_iff.mp hx
  rw [lteSignalPci, intInRange, finiteNumber] at hx
  obtain rfl : n = x := Option.some.inj (Option.filter_eq_some_iff.mp hx).1
  rw [parseInteger] at hn
  exact (Option.filter_eq_some_iff.mp hn).1

/-- A secondary LTE carrier. -/
theorem lteSecondary_honest_iff (i : Nat) (seg : String) (reading : Option String) :
    (∀ r ∈ (lteSecondary i (lteCell seg) (reading.map caSig)).numbers
        (lteSecondarySource seg reading), Honest r) ↔ PlainCell seg := by
  have hmeasured : ∀ r ∈ (lteSecondary i (lteCell seg) (reading.map caSig)).measured
      (lteSecondarySource seg reading), Honest r := by
    simp only [CarrierComponent.measured, List.forall_mem_cons, lteSecondary, lteSecondarySource,
      bind_caSig reading 0 (·.rsrp) fun seg => by simp only [caSig],
      bind_caSig reading 1 (·.rsrq) fun seg => by simp only [caSig],
      bind_caSig reading 2 (·.sinr) fun seg => by simp only [caSig],
      bind_caSig reading 3 (·.rssi) fun seg => by simp only [caSig],
      honest_filter, honest_self, honest_lteCell_pci, true_and, List.not_mem_nil, false_implies,
      implies_true]
  have hcarried : (lteSecondarySource seg reading).earfcn = parseNum (part seg 3) := by
    simp only [lteSecondarySource]
  have hearfcn : (lteSecondary i (lteCell seg) (reading.map caSig)).earfcn =
      ((lteSecondarySource seg reading).earfcn.filter (·.isInt)).getD 0 := by
    simp only [lteSecondary, lteCell, parseInteger, hcarried]
  rw [PlainCell, parseInteger, ← hcarried]
  exact carrier_honest_iff _ _ hmeasured rfl hearfcn fun _ => by
    simp only [lteSecondary, lteCell]

/-- The LTE carriers. -/
theorem lteCarriers_honest_iff :
    (∀ r ∈ carrierNumbers (lteCarriers d) (lteSources d), Honest r) ↔ PlainLte d := by
  by_cases hvalid : lteHasValidData d = true
  · have hsecond : lteSecondaries (parseLteCa ((str (d.get "lteca")).getD "")
        (lteSignalPci (d.get "lte_pci")) (nonNegativeInt (d.get "wan_active_channel")))
        (parseCaSig ((str (d.get "ltecasig")).getD "")) =
        (cellSegments d).zipIdx.map fun seg =>
          lteSecondary seg.2 (lteCell seg.1) ((readingSegment d seg.2).map caSig) := by
      rw [parseLteCa_eq, parseCaSig_eq, lteSecondaries, List.zipIdx_map, List.map_map]
      simp only [Function.comp_def, Prod.map, List.getElem?_map, id]
      rfl
    rw [lteCarriers, lteSources, if_pos hvalid, if_pos hvalid, hsecond, carrierNumbers_cons,
      ltePrimary_honest_iff]
    simp only [lteSecondary_honest_iff]
    rw [forall_mem_zipIdx _ PlainCell]
    rw [PlainLte, imp_iff_right hvalid]
  · rw [lteCarriers, lteSources, if_neg hvalid, if_neg hvalid]
    exact iff_of_true (by rintro r ⟨⟩) fun h => absurd h hvalid

end Lte

/-! ### NR -/

section Nr

variable (d : Value)

/-- What the payload carries for the primary NR carrier. -/
def nrPrimarySource : CarrierSource where
  pci := finiteNumber (d.get "nr5g_pci")
  earfcn := finiteNumber (d.get "nr5g_action_channel")
  rsrp := finiteNumber (d.get "nr5g_rsrp")
  rsrq := finiteNumber (d.get "nr5g_rsrq")
  sinr := finiteNumber (d.get "nr5g_snr")
  rssi := finiteNumber (d.get "nr5g_rssi")

/-- What a segment carries for a secondary one. -/
def nrSecondarySource (seg : String) : CarrierSource where
  pci := parseNum (part seg 1)
  earfcn := parseNum (part seg 4)
  rsrp := parseNum (part seg 7)
  rsrq := parseNum (part seg 8)
  sinr := parseNum (part seg 9)
  rssi := parseNum (part seg 10)

/-- What the payload carries for the NR carriers. -/
def nrSources : List CarrierSource :=
  if nrHasValidData d then
    nrPrimarySource d :: (nrSegments d).zipIdx.map fun seg => nrSecondarySource seg.1
  else []

/-- The channel of a secondary carrier can be read. -/
def PlainSegment (seg : String) : Prop :=
  PlainChannel (parseInteger (part seg 4)) nrarfcnToFreq

/-- There are no NR carriers, or they are plain. -/
def PlainNr : Prop :=
  nrHasValidData d = true →
    PlainChannel (nonNegativeInt (d.get "nr5g_action_channel")) nrarfcnToFreq ∧
      ∀ seg ∈ nrSegments d, PlainSegment seg

variable {d}

/-- The primary NR carrier. -/
theorem nrPrimary_honest_iff :
    (∀ r ∈ (nrPrimary d).numbers (nrPrimarySource d), Honest r) ↔
      PlainChannel (nonNegativeInt (d.get "nr5g_action_channel")) nrarfcnToFreq := by
  rw [nonNegativeInt_eq]
  refine carrier_honest_iff _ (nrPrimarySource d) ?_ (by decide)
    (by simp only [nrPrimary, nrPrimarySource, nrArfcn, nonNegativeInt_eq])
    fun _ => by simp only [nrPrimary]
  simp only [CarrierComponent.measured, List.forall_mem_cons, nrPrimary, nrPrimarySource,
    nrSignalPci, honest_intInRange, honest_validRsrp, honest_finiteNumber, true_and,
    List.not_mem_nil, false_implies, implies_true]

/-- The RSRP of a segment. -/
theorem honest_nrRsrp (seg : String) : Honest (checked (nrRsrp seg), parseNum (part seg 7)) := by
  rw [nrRsrp]
  split
  · exact honest_filter (parseNum (part seg 7)) _
  · exact .inl rfl

/-- Another reading of a segment. -/
theorem honest_nrReading (seg : String) (i : Nat) :
    Honest (checked (nrReading seg i), parseNum (part seg i)) := by
  rw [nrReading]
  split
  · exact honest_self (parseNum (part seg i))
  · exact .inl rfl

/-- A secondary NR carrier. -/
theorem nrSecondary_honest_iff (i : Nat) (seg : String) :
    (∀ r ∈ (nrSecondary i seg).numbers (nrSecondarySource seg), Honest r) ↔ PlainSegment seg := by
  have hpci : Honest (checked (nrSignalPci (some (.str (part seg 1)))), parseNum (part seg 1)) :=
    honest_intInRange (some (.str (part seg 1))) 0 1007
  have hmeasured : ∀ r ∈ (nrSecondary i seg).measured (nrSecondarySource seg), Honest r := by
    simp only [CarrierComponent.measured, List.forall_mem_cons, nrSecondary, nrSecondarySource,
      hpci, honest_nrRsrp, honest_nrReading, true_and, List.not_mem_nil, false_implies,
      implies_true]
  have hcarried : (nrSecondarySource seg).earfcn = parseNum (part seg 4) := by
    simp only [nrSecondarySource]
  have hearfcn : (nrSecondary i seg).earfcn =
      ((nrSecondarySource seg).earfcn.filter (·.isInt)).getD 0 := by
    simp only [nrSecondary, parseInteger, hcarried]
  rw [PlainSegment, parseInteger, ← hcarried]
  refine carrier_honest_iff _ _ hmeasured rfl hearfcn fun hne => ?_
  simp only [nrSecondary] at hne
  simp only [nrSecondary, if_neg hne]

/-- The NR carriers. -/
theorem nrCarriers_honest_iff :
    (∀ r ∈ carrierNumbers (nrCarriers d) (nrSources d), Honest r) ↔ PlainNr d := by
  by_cases hvalid : nrHasValidData d = true
  · rw [nrCarriers, nrSources, if_pos hvalid, if_pos hvalid, carrierNumbers_cons,
      nrPrimary_honest_iff]
    simp only [nrSecondary_honest_iff]
    rw [forall_mem_zipIdx _ PlainSegment]
    rw [PlainNr, imp_iff_right hvalid]
  · rw [nrCarriers, nrSources, if_neg hvalid, if_neg hvalid]
    exact iff_of_true (by rintro r ⟨⟩) fun h => absurd h hvalid

end Nr

/-! ### Band locks -/

/-- The bands of a lock, which are made of a text. -/
def lockNumbers (lock : BandLockState) : List Reading :=
  ((lockedBandsOf lock).getD []).map fun b => derived (some b)

/-- Bands that are not 0. -/
theorem honest_lockNumbers {bands : List ℚ} (h : ∀ b ∈ bands, b ≠ 0) :
    ∀ r ∈ lockNumbers (.locked bands), Honest r := by
  intro r hr
  obtain ⟨b, hb, rfl⟩ := List.mem_map.mp hr
  exact honest_derived fun hzero => h b hb (Option.some.inj hzero)

/-- An LTE lock starts at band 1. -/
theorem honest_lteLock (raw : Option String) :
    ∀ r ∈ lockNumbers (parseLteBandLock raw), Honest r := by
  have hnone : ∀ lock, lockedBandsOf lock = none → ∀ r ∈ lockNumbers lock, Honest r := by
    intro lock hlock r hr
    rw [lockNumbers, hlock] at hr
    cases hr
  fun_cases parseLteBandLock raw with
  | case6 raw t _ mask _ _ hlocked =>
    refine honest_lockNumbers fun b hb => ?_
    obtain ⟨n, hn, rfl⟩ := List.mem_map.mp hb
    have hpos : 1 ≤ n := (List.mem_range'_1.mp (List.mem_of_mem_filter hn)).1
    exact Nat.cast_ne_zero.mpr (Nat.one_le_iff_ne_zero.mp hpos)
  | _ => exact hnone _ rfl

/-- Only positive numbers are bands. -/
theorem pos_of_mem_foldl_addBand (list out : List ℚ) (hout : ∀ b ∈ out, 0 < b) :
    ∀ b ∈ list.foldl addBand out, 0 < b := by
  induction list generalizing out with
  | nil => exact hout
  | cons c rest ih =>
    refine ih _ ?_
    rw [addBand]
    split
    · rename_i hadd
      intro b hb
      rcases List.mem_append.mp hb with hmem | hmem
      · exact hout b hmem
      · rw [List.mem_singleton.mp hmem]
        exact of_decide_eq_true (Bool.and_eq_true_iff.mp (Bool.and_eq_true_iff.mp hadd).1).2
    · exact hout

/-- An NR lock has positive bands. -/
theorem honest_nrLock (raw : Option String) :
    ∀ r ∈ lockNumbers (parseNrBandLock raw), Honest r := by
  have hnone : ∀ lock, lockedBandsOf lock = none → ∀ r ∈ lockNumbers lock, Honest r := by
    intro lock hlock r hr
    rw [lockNumbers, hlock] at hr
    cases hr
  fun_cases parseNrBandLock raw with
  | case4 raw t _ bands hbands =>
    refine honest_lockNumbers fun b hb => ne_of_gt ?_
    rw [normaliseBands] at hb
    exact pos_of_mem_foldl_addBand (numbers bands) [] (by rintro b ⟨⟩) b
      ((List.mem_insertionSort _).mp hb)
  | _ => exact hnone _ rfl

/-! ### The signal page -/

section Signal

variable (d : Value)

/-- What the payload carries for the primary carrier. -/
def primarySource (p : PrimaryCarrier) : CarrierSource :=
  if p.rat = "lte" then ltePrimarySource d else nrPrimarySource d

/-- The numbers of the signal page. -/
def SignalInfo.numbers (s : SignalInfo) : List Reading :=
  (checked s.signalBars, finiteNumber (d.get "signalbar")) ::
    (carrierNumbers s.lteCarriers (lteSources d) ++ carrierNumbers s.nrCarriers (nrSources d) ++
      s.primary.toList.flatMap (fun p => p.carrier.numbers (primarySource d p)) ++
      lockNumbers s.lteBandLockState ++ lockNumbers s.nrSaBandLockState ++
      lockNumbers s.nrNsaBandLockState)

/-- The band locks have texts, and the carriers are plain. -/
def PlainSignal : Prop :=
  (∀ key ∈ ["lte_band_lock", "nr5g_sa_band_lock", "nr5g_nsa_band_lock"],
    (textOr (d.get key) "").isSome = true) ∧ PlainLte d ∧ PlainNr d

variable {d}

/-- The primary carrier is the first of one of the two lists. -/
theorem pickPrimary_cases {mode : NetworkMode} {p : PrimaryCarrier}
    (h : pickPrimary mode (lteCarriers d) (nrCarriers d) = some p) :
    (lteHasValidData d = true ∧ p = ⟨"lte", ltePrimary d
        ((nonNegativeInt (d.get "wan_active_channel")).getD 0)⟩) ∨
      (nrHasValidData d = true ∧ p = ⟨"nr", nrPrimary d⟩) := by
  have hlte : ∀ {p}, ((lteCarriers d).find? (·.label == "PCC")).map (PrimaryCarrier.mk "lte") =
      some p → lteHasValidData d = true ∧ p = ⟨"lte", ltePrimary d
        ((nonNegativeInt (d.get "wan_active_channel")).getD 0)⟩ := by
    intro p hp
    rw [lteCarriers] at hp
    split at hp
    · rename_i hvalid
      rw [List.find?_cons_of_pos (by simp only [ltePrimary, beq_self_eq_true])] at hp
      exact ⟨hvalid, (Option.some.inj hp).symm⟩
    · cases hp
  have hnr : ∀ {p}, ((nrCarriers d).find? (·.label == "PCC")).map (PrimaryCarrier.mk "nr") =
      some p → nrHasValidData d = true ∧ p = ⟨"nr", nrPrimary d⟩ := by
    intro p hp
    rw [nrCarriers] at hp
    split at hp
    · rename_i hvalid
      rw [List.find?_cons_of_pos (by simp only [nrPrimary, beq_self_eq_true])] at hp
      exact ⟨hvalid, (Option.some.inj hp).symm⟩
    · cases hp
  cases mode with
  | sa => exact .inr (hnr h)
  | lte => exact .inl (hlte h)
  | nsa => exact .inl (hlte h)
  | unknown =>
    simp only [pickPrimary] at h
    split at h
    · rename_i hp _
      exact .inl (hlte (hp.trans h))
    · rename_i _ hp
      exact .inr (hnr (hp.trans h))
    · cases h

/-- The primary carrier is as honest as the lists. -/
theorem primary_honest {mode : NetworkMode} {p : PrimaryCarrier} (hlte : PlainLte d)
    (hnr : PlainNr d) (h : pickPrimary mode (lteCarriers d) (nrCarriers d) = some p) :
    ∀ r ∈ p.carrier.numbers (primarySource d p), Honest r := by
  rcases pickPrimary_cases h with ⟨hvalid, rfl⟩ | ⟨hvalid, rfl⟩
  · rw [primarySource, if_pos rfl]
    exact ltePrimary_honest_iff.mpr (hlte hvalid).1
  · have hrat : ¬"nr" = "lte" := by decide
    rw [primarySource, if_neg hrat]
    exact nrPrimary_honest_iff.mpr (hnr hvalid).1

/-- The signal page is mapped, with honest numbers, exactly when its source is plain. -/
theorem mapSignal_iff :
    (∃ s, mapSignal d = some s ∧ ∀ r ∈ s.numbers d, Honest r) ↔ PlainSignal d := by
  have hplain : ∀ {s lte sa nsa}, mapSignal d = some s →
      textOr (d.get "lte_band_lock") "" = some lte →
      textOr (d.get "nr5g_sa_band_lock") "" = some sa →
      textOr (d.get "nr5g_nsa_band_lock") "" = some nsa →
      ((∀ r ∈ s.numbers d, Honest r) ↔ PlainLte d ∧ PlainNr d) := by
    intro s lte sa nsa hs hl ha hn
    rw [mapSignal, hl, ha, hn] at hs
    obtain rfl := Option.some.inj hs
    simp only [SignalInfo.numbers, List.forall_mem_cons, List.forall_mem_append, honest_intInRange,
      lteCarriers_honest_iff, nrCarriers_honest_iff, true_and]
    constructor
    · rintro ⟨⟨⟨⟨⟨hlte, hnr⟩, -⟩, -⟩, -⟩, -⟩
      exact ⟨hlte, hnr⟩
    · rintro ⟨hlte, hnr⟩
      refine ⟨⟨⟨⟨⟨hlte, hnr⟩, ?_⟩, honest_lteLock _⟩, honest_nrLock _⟩, honest_nrLock _⟩
      intro r hr
      obtain ⟨p, hp, hr⟩ := List.mem_flatMap.mp hr
      exact primary_honest hlte hnr (Option.mem_toList.mp hp) r hr
  simp only [PlainSignal, List.forall_mem_cons, List.not_mem_nil, false_implies, implies_true,
    and_true]
  constructor
  · rintro ⟨s, hs, hhonest⟩
    cases hl : textOr (d.get "lte_band_lock") "" with
    | none => rw [mapSignal, hl] at hs; cases hs
    | some lte =>
      cases ha : textOr (d.get "nr5g_sa_band_lock") "" with
      | none => rw [mapSignal, hl, ha] at hs; cases hs
      | some sa =>
        cases hn : textOr (d.get "nr5g_nsa_band_lock") "" with
        | none => rw [mapSignal, hl, ha, hn] at hs; cases hs
        | some nsa => exact ⟨⟨rfl, rfl, rfl⟩, (hplain hs hl ha hn).mp hhonest⟩
  · rintro ⟨⟨hl, ha, hn⟩, hcarriers⟩
    obtain ⟨lte, hl⟩ := Option.isSome_iff_exists.mp hl
    obtain ⟨sa, ha⟩ := Option.isSome_iff_exists.mp ha
    obtain ⟨nsa, hn⟩ := Option.isSome_iff_exists.mp hn
    have hs : ∃ s, mapSignal d = some s := by
      rw [mapSignal, hl, ha, hn]
      exact ⟨_, rfl⟩
    obtain ⟨s, hs⟩ := hs
    exact ⟨s, hs, (hplain hs hl ha hn).mpr hcarriers⟩

end Signal

end OpenUI.WebApp.Js
