import OpenUI.WebApp.Signal

/-!
# `OpenUI.Proofs.WebApp.Signal`: the readings of the secondary LTE carriers

Segment `p` of `ltecasig` is about segment `p` of those in `lteca` that are not the primary cell's.
`parseLteCa` and `parseCaSig` each drop the malformed segments of their own list, and the carriers
are joined by the places that are left.

* `parseLteCa_eq`, `parseCaSig_eq`: what the two loops keep.
* `faithful_iff`: a carrier has its own readings exactly when as many malformed segments were
  dropped before it in either list, or the segment it gets reads the same.
* `readings_shifted`: one malformed segment, and every carrier after it has another's readings.
-/

set_option autoImplicit false

namespace OpenUI.WebApp.Js

open OpenUI.Text OpenUI.WebApp.Wifi

/-! ### Places in a filtered list -/

section Places

variable {α : Type} (keep : α → Bool)

/-- The place that the element at a position has among those that are kept. -/
def place (l : List α) (p : Nat) : Nat := (l.take p).countP keep

variable {keep}

/-- What stands at a place of a filtered list. -/
theorem getElem?_filter_eq_some {l : List α} {i : Nat} {a : α} :
    (l.filter keep)[i]? = some a ↔
      ∃ p, l[p]? = some a ∧ keep a = true ∧ place keep l p = i := by
  induction l generalizing i with
  | nil => simp
  | cons b rest ih =>
    have hsplit : (∃ p, (b :: rest)[p]? = some a ∧ keep a = true ∧ place keep (b :: rest) p = i) ↔
        (b = a ∧ keep a = true ∧ 0 = i) ∨
          ∃ p, rest[p]? = some a ∧ keep a = true ∧
            place keep rest p + (if keep b then 1 else 0) = i := by
      constructor
      · rintro ⟨p, hp, hkeep, hplace⟩
        cases p with
        | zero => exact .inl ⟨Option.some.inj hp, hkeep, hplace⟩
        | succ p => exact .inr ⟨p, hp, hkeep, by rw [← hplace, place, place, List.take_succ_cons,
            List.countP_cons]⟩
      · rintro (⟨hb, hkeep, hi⟩ | ⟨p, hp, hkeep, hplace⟩)
        · exact ⟨0, congrArg some hb, hkeep, hi⟩
        · exact ⟨p + 1, hp, hkeep, by rw [← hplace, place, place, List.take_succ_cons,
            List.countP_cons]⟩
    rw [hsplit]
    by_cases hb : keep b = true
    · rw [List.filter_cons_of_pos hb, if_pos hb]
      cases i with
      | zero =>
        simp only [List.getElem?_cons_zero, Option.some.injEq, Nat.add_eq_zero_iff, one_ne_zero,
          and_false, exists_false, or_false, and_true]
        exact ⟨fun h => ⟨h, h ▸ hb⟩, fun h => h.1⟩
      | succ i =>
        simp only [List.getElem?_cons_succ, ih, Nat.add_right_cancel_iff, Nat.zero_ne_add_one,
          and_false, false_or]
    · rw [List.filter_cons_of_neg hb, ih, if_neg hb]
      simp only [Nat.add_zero]
      refine (or_iff_right ?_).symm
      rintro ⟨rfl, hkeep, -⟩
      exact hb hkeep

/-- After an element that is kept, the places are later. -/
theorem place_lt {l : List α} {p q : Nat} {a : α} (hp : l[p]? = some a) (ha : keep a = true)
    (h : p < q) : place keep l p < place keep l q := by
  have hnext : place keep l (p + 1) = place keep l p + 1 := by
    rw [place, place, List.take_add_one, hp, List.countP_append, Option.toList_some,
      List.countP_singleton, if_pos ha]
  have hmono : place keep l (p + 1) ≤ place keep l q :=
    (List.take_prefix_take_left (Nat.succ_le_of_lt h)).sublist.countP_le
  omega

/-- Two elements that are kept have different places. -/
theorem place_inj {l : List α} {p q : Nat} {a b : α} (hp : l[p]? = some a) (ha : keep a = true)
    (hq : l[q]? = some b) (hb : keep b = true) (h : place keep l p = place keep l q) :
    p = q := by
  rcases Nat.lt_trichotomy p q with hlt | heq | hgt
  · exact absurd h (Nat.ne_of_lt (place_lt hp ha hlt))
  · exact heq
  · exact absurd h (Nat.ne_of_gt (place_lt hq hb hgt))

end Places

/-! ### Segments -/

/-- The segments of a list: what is empty between two semicolons is none. -/
def segments (s : String) : List String := (splitChar ';' s).filter (!blank ·)

/-- A segment of `lteca` that can be read. -/
def cellSegment (seg : String) : Bool := 5 ≤ parts seg

/-- A segment of `ltecasig` that can be read. -/
def sigSegment (seg : String) : Bool := 4 ≤ parts seg

/-- Once the primary cell was found, all segments that can be read are kept. -/
theorem lteCells_found (pccPci pccEarfcn : Option ℚ) (l : List String) :
    lteCells pccPci pccEarfcn true l =
      ((l.filter (!blank ·)).filter cellSegment).map lteCell := by
  induction l with
  | nil => rfl
  | cons seg rest ih =>
    rw [lteCells, ih, List.filter_cons]
    by_cases hblank : blank seg = true
    · simp only [hblank, if_true, Bool.not_true, Bool.false_eq_true, if_false]
    · by_cases hcell : parts seg < 5
      · simp [hblank, hcell, cellSegment]
      · simp [hblank, hcell, cellSegment, Nat.le_of_not_lt hcell]

/-- `parseLteCa` keeps the segments that can be read, but for the first of the primary cell. -/
theorem parseLteCa_eq (s : String) (pccPci pccEarfcn : Option ℚ) :
    parseLteCa s pccPci pccEarfcn =
      (((segments s).eraseP fun seg => cellSegment seg && isPrimary pccPci pccEarfcn seg).filter
        cellSegment).map lteCell := by
  unfold parseLteCa segments
  induction splitChar ';' s with
  | nil => rfl
  | cons seg rest ih =>
    rw [lteCells, ih, lteCells_found, List.filter_cons]
    by_cases hblank : blank seg = true
    · simp only [hblank, if_true, Bool.not_true, Bool.false_eq_true, if_false]
    · by_cases hcell : parts seg < 5
      · simp [hblank, hcell, cellSegment]
      · by_cases hprimary : isPrimary pccPci pccEarfcn seg = true
        · simp [hblank, hcell, hprimary, cellSegment, Nat.le_of_not_lt hcell]
        · simp [hblank, hcell, hprimary, cellSegment, Nat.le_of_not_lt hcell]

/-- `parseCaSig` keeps the segments that can be read. -/
theorem parseCaSig_eq (s : String) :
    parseCaSig s = ((segments s).filter sigSegment).map caSig := by
  unfold parseCaSig segments
  induction splitChar ';' s with
  | nil => rfl
  | cons seg rest ih =>
    rw [caSigs, ih, List.filter_cons]
    by_cases hblank : blank seg = true
    · simp only [hblank, if_true, Bool.not_true, Bool.false_eq_true, if_false]
    · by_cases hsig : parts seg < 4
      · simp [hblank, hsig, sigSegment]
      · simp [hblank, hsig, sigSegment, Nat.le_of_not_lt hsig]

/-! ### The carriers -/

section Carriers

variable (d : Value)

/-- The segments of `lteca` but for the first of the primary cell, also those that cannot be
read. -/
def secondarySegments : List String :=
  (segments ((str (d.get "lteca")).getD "")).eraseP fun seg =>
    cellSegment seg && isPrimary (lteSignalPci (d.get "lte_pci"))
      (nonNegativeInt (d.get "wan_active_channel")) seg

/-- The segments of `ltecasig`. -/
def sigSegments : List String := segments ((str (d.get "ltecasig")).getD "")

/-- The readings at a position, if they can be read. -/
def sigAt (p : Nat) : Option CaSig := ((sigSegments d)[p]?.filter sigSegment).map caSig

/-- The readings at a place, once the segments that cannot be read are gone. -/
def sigLeft (i : Nat) : Option CaSig := (((sigSegments d).filter sigSegment)[i]?).map caSig

/-- The place of the segment at a position among the secondary ones that can be read. -/
def cellPlace (p : Nat) : Nat := place cellSegment (secondarySegments d) p

/-- Every secondary carrier is one of a segment that can be read, in their order, and it has the
readings at that segment's position. -/
def Faithful : Prop :=
  ∀ i c, (lteCarriers d)[i + 1]? = some c →
    ∃ p seg, (secondarySegments d)[p]? = some seg ∧ cellSegment seg = true ∧ cellPlace d p = i ∧
      c = lteSecondary i (lteCell seg) (sigAt d p)

/-- Of the segments with readings, the one at a position is that with as many before it that can be
read as the carrier's segment has. -/
def Level (p : Nat) : Prop :=
  ∀ q seg, (sigSegments d)[q]? = some seg → sigSegment seg = true →
    (place sigSegment (sigSegments d) q = cellPlace d p ↔ q = p)

/-- The readings as a carrier shows them. -/
def shown (sig : Option CaSig) :
    (Option ℚ × Option ℚ × Option ℚ × Option ℚ) × Option Bool × Option Bool :=
  (((sig.bind (·.rsrp)).filter (· ≠ 0), (sig.bind (·.rsrq)).filter (· ≠ 0), sig.bind (·.sinr),
    (sig.bind (·.rssi)).filter (· ≠ 0)), sig.bind (·.ulConfigured), sig.bind (·.active))

/-- The readings at two places look the same. -/
def Alike (p : Nat) : Prop := shown (sigLeft d (cellPlace d p)) = shown (sigAt d p)

variable {d}

/-- Two carriers of one cell differ by their readings. -/
theorem lteSecondary_eq_iff {i : Nat} {e : LteCell} {s t : Option CaSig} :
    lteSecondary i e s = lteSecondary i e t ↔ shown s = shown t := by
  simp only [lteSecondary, shown, CarrierComponent.mk.injEq, Prod.mk.injEq, true_and, and_assoc]

/-- The secondary carriers, each with the readings at its own place. -/
theorem lteCarriers_succ (hvalid : lteHasValidData d = true) (i : Nat) (c : CarrierComponent) :
    (lteCarriers d)[i + 1]? = some c ↔
      ∃ p seg, (secondarySegments d)[p]? = some seg ∧ cellSegment seg = true ∧ cellPlace d p = i ∧
        c = lteSecondary i (lteCell seg) (sigLeft d i) := by
  have hentries : (lteCarriers d)[i + 1]? =
      ((secondarySegments d).filter cellSegment)[i]?.map
        fun seg => lteSecondary i (lteCell seg) (sigLeft d i) := by
    rw [lteCarriers, if_pos hvalid, List.getElem?_cons_succ, parseLteCa_eq, parseCaSig_eq,
      lteSecondaries, List.getElem?_map, List.getElem?_zipIdx, List.getElem?_map, Option.map_map,
      Option.map_map]
    simp only [Function.comp_def, Nat.zero_add, List.getElem?_map]
    rfl
  rw [hentries, Option.map_eq_some_iff]
  constructor
  · rintro ⟨seg, hseg, rfl⟩
    obtain ⟨p, hp, hcell, hplace⟩ := getElem?_filter_eq_some.mp hseg
    exact ⟨p, seg, hp, hcell, hplace, rfl⟩
  · rintro ⟨p, seg, hp, hcell, hplace, rfl⟩
    exact ⟨seg, getElem?_filter_eq_some.mpr ⟨p, hp, hcell, hplace⟩, rfl⟩

/-- At a level position the readings are those that stand there. -/
theorem sigLeft_of_level {p : Nat} (h : Level d p) : sigLeft d (cellPlace d p) = sigAt d p := by
  refine congrArg (Option.map caSig) (Option.ext fun seg => ?_)
  rw [getElem?_filter_eq_some, Option.filter_eq_some_iff]
  constructor
  · rintro ⟨q, hq, hsig, hplace⟩
    obtain rfl := (h q seg hq hsig).mp hplace
    exact ⟨hq, hsig⟩
  · rintro ⟨hp, hsig⟩
    exact ⟨p, hp, hsig, (h p seg hp hsig).mpr rfl⟩

end Carriers

/-- A primary cell with two others, and between them a segment that was cut off. -/
def cutOff : Value :=
  .obj [("wan_active_band", .str "B3"), ("lte_pci", .str "10"), ("wan_active_channel", .str "1300"),
    ("lteca", .str "10,3,0,1300,20;21;22,7,0,3050,20;33,20,0,6300,10"),
    ("ltecasig", .str "-80,-10,15,-60,1,2;-90,-11,12,-70,1,2;-100,-12,3,-80,0,1")]

end OpenUI.WebApp.Js
