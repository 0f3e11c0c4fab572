import OpenUI.Proofs.WebApp.Carriers

/-!
# `OpenUI.Proofs.WebApp.Home`: the numbers of the home page

Of the sources of the home page only the signal and the data usage are checked. The others are cast:
what is malformed stays what it is, and the rates of `mapSpeed` become 0 when they are absent. Three
things throw: a kernel that is no text, a number or a text that an object hides, and a stale source
without a name.

* `mapBattery_iff`, `mapDevice_iff`, `mapWan6_iff`: the mappers that can throw.
* `honest_usage`: the data usage is always honest.
* `deriveConditions_isSome_iff`: when the alerts are derived.
* `mapHome_iff`: when the home page is mapped, with honest numbers and its alerts.
-/

set_option autoImplicit false

namespace OpenUI.WebApp.Js

open OpenUI.Text OpenUI.WebApp OpenUI.WebApp.Wifi OpenUI.Calendar

/-- A field that was cast, with what it was cast from. -/
def casted (v : Option Value) : Reading := (cast v, finiteNumber v)

/-- The numbers of a list that was cast. -/
def listNumbers : Option Value → List Reading
  | none => []
  | some .null => []
  | some (.arr items) => items.map fun item => casted (some item)
  | some v => [(.other v, none)]

/-- Absent, `null`, or a list of numbers. -/
def PlainList (v : Option Value) : Prop :=
  ∀ w, v = some w → w = .null ∨ ∃ items, w = .arr items ∧ ∀ item ∈ items, PlainCast (some item)

/-- A list that was cast. -/
theorem listNumbers_honest_iff (v : Option Value) :
    (∀ r ∈ listNumbers v, Honest r) ↔ PlainList v := by
  have hother : ∀ w, listNumbers (some w) = [(.other w, none)] → (∀ items, w ≠ .arr items) →
      w ≠ .null → ((∀ r ∈ listNumbers (some w), Honest r) ↔ PlainList (some w)) := by
    intro w hw harr hnull
    rw [hw]
    refine iff_of_false (fun h => ?_) fun h => ?_
    · rcases h _ (List.mem_singleton_self _) with ⟨⟨⟩⟩ | ⟨x, y, ⟨⟩, -⟩
    · rcases h w rfl with heq | ⟨items, heq, -⟩
      · exact hnull heq
      · exact harr items heq
  cases v with
  | none => exact iff_of_true (by rintro r ⟨⟩) (by rintro w ⟨⟩)
  | some w =>
    cases w with
    | null => exact iff_of_true (by rintro r ⟨⟩) fun w hw => .inl (Option.some.inj hw).symm
    | arr items =>
      have hitems : (∀ r ∈ listNumbers (some (.arr items)), Honest r) ↔
          ∀ item ∈ items, PlainCast (some item) := by
        rw [listNumbers, List.forall_mem_map]
        simp only [casted, honest_cast_iff]
      rw [hitems]
      constructor
      · rintro h w hw
        exact .inr ⟨items, (Option.some.inj hw).symm, h⟩
      · intro h
        rcases h _ rfl with ⟨⟨⟩⟩ | ⟨others, heq, hothers⟩
        obtain rfl : items = others := Value.arr.inj heq
        exact hothers
    | num x => exact hother _ rfl (by rintro items ⟨⟩) (by rintro ⟨⟩)
    | bool b => exact hother _ rfl (by rintro items ⟨⟩) (by rintro ⟨⟩)
    | str s => exact hother _ rfl (by rintro items ⟨⟩) (by rintro ⟨⟩)
    | obj fields => exact hother _ rfl (by rintro items ⟨⟩) (by rintro ⟨⟩)

/-! ### The sources that are cast -/

section Sources

variable (d : Value)

/-- The numbers of the battery. -/
def BatteryInfo.numbers (b : BatteryInfo) : List Reading :=
  [(b.percent, finiteNumber (d.get "capacity")), (b.voltageMv, finiteNumber (d.get "voltage_uv")),
    (b.temperatureC, finiteNumber (d.get "temperature")),
    (b.currentMa, finiteNumber (d.get "current_ua"))]

/-- A percentage that is a number, and readings that are not rounded to 0. -/
def PlainBattery : Prop :=
  PlainCast (d.get "capacity") ∧
    PlainScaled (fun n => (n.dividedBy 1000).round) (d.get "voltage_uv") ∧
    PlainScaled (fun n => n.dividedBy 10) (d.get "temperature") ∧
    PlainScaled (fun n => (n.dividedBy 1000).round) (d.get "current_ua")

/-- The numbers of the speed. -/
def SpeedInfo.numbers (s : SpeedInfo) : List Reading :=
  [(s.rxBps, finiteNumber (d.get "rx_speed")), (s.txBps, finiteNumber (d.get "tx_speed")),
    (s.maxRxBps, finiteNumber (d.get "max_rx_speed")),
    (s.maxTxBps, finiteNumber (d.get "max_tx_speed"))]

/-- Rates that are all there. -/
def PlainSpeed : Prop :=
  ∀ key ∈ ["rx_speed", "tx_speed", "max_rx_speed", "max_tx_speed"], ∃ x, d.get key = some (.num x)

/-- The numbers of the device. -/
def DeviceInfo.numbers (info : DeviceInfo) : List Reading :=
  (info.uptimeSecs, finiteNumber (d.get "uptime_secs")) :: listNumbers info.loadAvg

/-- A kernel that is a text, and numbers. -/
def PlainDevice : Prop :=
  (∀ w, d.get "kernel" = some w → w = .null ∨ ∃ s, w = .str s) ∧ PlainCast (d.get "uptime_secs") ∧
    PlainList (d.get "load_avg")

/-- The first prefix has texts. -/
def PlainWan6 : Prop :=
  falsy (first (d.get "ipv6-prefix")) = true ∨
    ∀ key ∈ ["address", "mask"],
      (template (member (first (d.get "ipv6-prefix")) key)).isSome = true

/-- The numbers of the processor. -/
def CpuInfo.numbers (cpu : CpuInfo) : List Reading :=
  (cpu.overall, finiteNumber (d.get "overall")) :: listNumbers cpu.cores

/-- Loads that are numbers. -/
def PlainCpu : Prop := PlainCast (d.get "overall") ∧ PlainList (d.get "cores")

/-- The numbers of the memory. -/
def MemInfo.numbers (m : MemInfo) : List Reading :=
  [(m.totalKb, finiteNumber (d.get "total_kb")), (m.usedKb, finiteNumber (d.get "used_kb")),
    (m.freeKb, finiteNumber (d.get "free_kb")), (m.usagePct, finiteNumber (d.get "usage_pct"))]

/-- Sizes that are numbers. -/
def PlainMemory : Prop :=
  ∀ key ∈ ["total_kb", "used_kb", "free_kb", "usage_pct"], PlainCast (d.get key)

variable {d}

/-- The battery. -/
theorem mapBattery_iff :
    (∃ b, mapBattery d = some b ∧ ∀ r ∈ b.numbers d, Honest r) ↔ PlainBattery d := by
  rw [PlainBattery, ← honest_cast_iff, ← whenTruthy_iff, ← whenTruthy_iff, ← whenTruthy_iff]
  constructor
  · rintro ⟨b, hb, hhonest⟩
    rw [mapBattery] at hb
    split at hb
    · rename_i hvoltage htemperature hcurrent
      obtain rfl := Option.some.inj hb
      simp only [BatteryInfo.numbers, List.forall_mem_cons] at hhonest
      obtain ⟨hpercent, hv, ht, hc, -⟩ := hhonest
      exact ⟨hpercent, ⟨_, hvoltage, hv⟩, ⟨_, htemperature, ht⟩, ⟨_, hcurrent, hc⟩⟩
    · cases hb
  · rintro ⟨hpercent, ⟨voltage, hvoltage, hv⟩, ⟨temperature, htemperature, ht⟩,
      ⟨current, hcurrent, hc⟩⟩
    rw [mapBattery, hvoltage, htemperature, hcurrent]
    refine ⟨_, rfl, ?_⟩
    simp only [BatteryInfo.numbers, List.forall_mem_cons, hpercent, hv, ht, hc, true_and,
      List.not_mem_nil, false_implies, implies_true]

/-- The speed. -/
theorem mapSpeed_iff : (∀ r ∈ (mapSpeed d).numbers d, Honest r) ↔ PlainSpeed d := by
  simp only [SpeedInfo.numbers, mapSpeed, PlainSpeed, List.forall_mem_cons, honest_castOrZero_iff,
    List.not_mem_nil, false_implies, implies_true]

/-- The device. -/
theorem mapDevice_iff :
    (∃ info, mapDevice d = some info ∧ ∀ r ∈ info.numbers d, Honest r) ↔ PlainDevice d := by
  have hplain : ∀ {info}, mapDevice d = some info → ((∀ r ∈ info.numbers d, Honest r) ↔
      PlainCast (d.get "uptime_secs") ∧ PlainList (d.get "load_avg")) := by
    intro info hinfo
    have hfields : info.uptimeSecs = cast (d.get "uptime_secs") ∧
        info.loadAvg = d.get "load_avg" := by
      rw [mapDevice] at hinfo
      split at hinfo
      · obtain rfl := Option.some.inj hinfo
        exact ⟨rfl, rfl⟩
      · obtain rfl := Option.some.inj hinfo
        exact ⟨rfl, rfl⟩
      · obtain rfl := Option.some.inj hinfo
        exact ⟨rfl, rfl⟩
      · cases hinfo
    rw [DeviceInfo.numbers, List.forall_mem_cons, hfields.1, hfields.2, honest_cast_iff,
      listNumbers_honest_iff]
  have hkernel : (∃ info, mapDevice d = some info) ↔
      ∀ w, d.get "kernel" = some w → w = .null ∨ ∃ s, w = .str s := by
    rw [mapDevice]
    cases d.get "kernel" with
    | none => exact iff_of_true ⟨_, rfl⟩ (by rintro w ⟨⟩)
    | some w =>
      cases w with
      | null => exact iff_of_true ⟨_, rfl⟩ fun w hw => .inl (Option.some.inj hw).symm
      | str s => exact iff_of_true ⟨_, rfl⟩ fun w hw => .inr ⟨s, (Option.some.inj hw).symm⟩
      | num x => exact iff_of_false (by rintro ⟨info, ⟨⟩⟩) fun h => by simpa using h _ rfl
      | bool b => exact iff_of_false (by rintro ⟨info, ⟨⟩⟩) fun h => by simpa using h _ rfl
      | arr items => exact iff_of_false (by rintro ⟨info, ⟨⟩⟩) fun h => by simpa using h _ rfl
      | obj fields => exact iff_of_false (by rintro ⟨info, ⟨⟩⟩) fun h => by simpa using h _ rfl
  rw [PlainDevice, ← hkernel]
  constructor
  · rintro ⟨info, hinfo, hhonest⟩
    exact ⟨⟨info, hinfo⟩, (hplain hinfo).mp hhonest⟩
  · rintro ⟨⟨info, hinfo⟩, hfields⟩
    exact ⟨info, hinfo, (hplain hinfo).mpr hfields⟩

/-- The IPv6 network, which has no numbers. -/
theorem mapWan6_iff : (∃ info, mapWan6 d = some info) ↔ PlainWan6 d := by
  simp only [PlainWan6, mapWan6, List.forall_mem_cons, List.not_mem_nil, false_implies,
    implies_true, and_true]
  by_cases hfalsy : falsy (first (d.get "ipv6-prefix")) = true
  · rw [if_pos hfalsy]
    exact iff_of_true ⟨_, rfl⟩ (.inl hfalsy)
  · rw [if_neg hfalsy, or_iff_right hfalsy]
    cases template (member (first (d.get "ipv6-prefix")) "address") with
    | none => simp
    | some address =>
      cases template (member (first (d.get "ipv6-prefix")) "mask") with
      | none => simp
      | some mask => simp

/-- The processor. -/
theorem mapCpu_iff : (∀ r ∈ (mapCpu d).numbers d, Honest r) ↔ PlainCpu d := by
  simp only [CpuInfo.numbers, mapCpu, PlainCpu, List.forall_mem_cons, honest_cast_iff,
    listNumbers_honest_iff]

/-- The memory. -/
theorem mapMemory_iff : (∀ r ∈ (mapMemory d).numbers d, Honest r) ↔ PlainMemory d := by
  simp only [MemInfo.numbers, mapMemory, PlainMemory, List.forall_mem_cons, honest_cast_iff,
    List.not_mem_nil, false_implies, implies_true]

end Sources

/-! ### Data usage -/

/-- The numbers of a period. -/
def UsagePeriod.numbers (p : UsagePeriod) (v : Option Value) : List Reading :=
  [(checked p.rxBytes, finiteNumber (member v "rx_bytes")),
    (checked p.txBytes, finiteNumber (member v "tx_bytes")),
    (checked p.timeSecs, finiteNumber (member v "time_secs"))]

/-- The numbers of a date, which are made of a text. -/
def CalendarDate.numbers (date : CalendarDate) : List Reading :=
  [derived (some date.year), derived (some date.month), derived (some date.day)]

/-- The numbers of the data usage. -/
def DataUsage.numbers (d : Value) (usage : DataUsage) : List Reading :=
  (checked usage.resetDay, finiteNumber (d.get "reset_day")) ::
    (usage.day.numbers (d.get "day") ++ usage.month.numbers (d.get "month") ++
      usage.cycle.toList.flatMap (·.numbers (d.get "cycle")) ++
      usage.sincePowerOn.toList.flatMap (·.numbers (d.get "since_power_on")) ++
      usage.total.numbers (d.get "total") ++
      usage.cycleStart.toList.flatMap (·.numbers) ++ usage.nextReset.toList.flatMap (·.numbers))

/-- A date has no 0. -/
theorem honest_dateParts {year month day : List Char} {date : CalendarDate}
    (h : dateParts year month day = some date) : ∀ r ∈ date.numbers, Honest r := by
  have hpos : ∀ {n : Nat}, 1 ≤ n → Honest (derived (some (n : ℚ))) := fun hn =>
    honest_derived fun hzero =>
      Nat.one_le_iff_ne_zero.mp hn (Nat.cast_eq_zero.mp (Option.some.inj hzero))
  simp only [dateParts] at h
  split at h
  · rename_i hvalid
    obtain ⟨-, -, hyear, -, hmonth, -, hday, -⟩ := hvalid
    obtain rfl := Option.some.inj h
    simp only [CalendarDate.numbers, List.forall_mem_cons, hpos hmonth, hpos hday,
      hpos (Nat.le_trans (by decide) hyear), true_and, List.not_mem_nil, false_implies,
      implies_true]
  · cases h

/-- A device's date has no 0. -/
theorem honest_parseDeviceDate (v : Option Value) :
    ∀ r ∈ (parseDeviceDate v).toList.flatMap (·.numbers), Honest r := by
  have hseparated : ∀ {sep t date}, separatedDate sep t = some date →
      ∀ r ∈ date.numbers, Honest r := by
    intro sep t date h
    rw [separatedDate] at h
    split at h
    · split at h
      · exact honest_dateParts h
      · cases h
    · cases h
  intro r hr
  obtain ⟨date, hdate, hr⟩ := List.mem_flatMap.mp hr
  rw [Option.mem_toList] at hdate
  unfold parseDeviceDate at hdate
  obtain ⟨t, -, hdate⟩ := Option.bind_eq_some_iff.mp hdate
  split at hdate
  · exact hseparated hdate r hr
  · split at hdate
    · exact hseparated hdate r hr
    · split at hdate
      · exact honest_dateParts hdate r hr
      · cases hdate

/-- A period is checked. -/
theorem honest_mapUsagePeriod (v : Option Value) :
    ∀ r ∈ (mapUsagePeriod v).numbers v, Honest r := by
  simp only [UsagePeriod.numbers, mapUsagePeriod, List.forall_mem_cons, honest_nonNegative,
    true_and, List.not_mem_nil, false_implies, implies_true]

/-- The data usage is checked. -/
theorem honest_usage (d : Value) : ∀ r ∈ (mapDataUsage d).numbers d, Honest r := by
  have hoptional : ∀ v, ∀ r ∈ (if isObj v then some (mapUsagePeriod v) else none).toList.flatMap
      (·.numbers v), Honest r := by
    intro v r hr
    obtain ⟨p, hp, hr⟩ := List.mem_flatMap.mp hr
    rw [Option.mem_toList] at hp
    split at hp
    · obtain rfl := Option.some.inj hp
      exact honest_mapUsagePeriod v r hr
    · cases hp
  simp only [DataUsage.numbers, mapDataUsage, List.forall_mem_cons, List.forall_mem_append]
  exact ⟨honest_intInRange _ _ _, ⟨⟨⟨⟨⟨⟨honest_mapUsagePeriod _, honest_mapUsagePeriod _⟩,
    hoptional _⟩, hoptional _⟩, honest_mapUsagePeriod _⟩, honest_parseDeviceDate _⟩,
    honest_parseDeviceDate _⟩⟩

/-! ### Alerts -/

/-- The numbers of a source's freshness. -/
def freshnessNumbers (freshness : Value) : List Reading :=
  ["sampled_at_ms", "age_ms", "ttl_ms"].map fun key => casted (freshness.get key)

/-- A source with a freshness, whose times are numbers, and which has a name and a text for its
error where it is stale. -/
def PlainFreshness (source : String) (freshness : Value) : Prop :=
  freshness ≠ .null ∧
    (∀ key ∈ ["sampled_at_ms", "age_ms", "ttl_ms"], PlainCast (freshness.get key)) ∧
    (falsy (freshness.get "stale") = true ∨ source ≠ "" ∧
      (falsy (freshness.get "error") = true ∨ (template (freshness.get "error")).isSome = true))

/-- The times of a source. -/
theorem freshnessNumbers_honest_iff (freshness : Value) :
    (∀ r ∈ freshnessNumbers freshness, Honest r) ↔
      ∀ key ∈ ["sampled_at_ms", "age_ms", "ttl_ms"], PlainCast (freshness.get key) := by
  rw [freshnessNumbers, List.forall_mem_map]
  simp only [casted, honest_cast_iff]

/-- A source's alert has a title when the source has a name. -/
theorem sourceTitle_isSome_iff (source : String) :
    (sourceTitle source).isSome = true ↔ source ≠ "" := by
  have hlabel : (label source).toList = [] ↔ source = "" := by
    rw [label, String.toList_ofList, List.map_eq_nil_iff, String.toList_eq_nil_iff]
  rw [sourceTitle]
  split
  · rename_i heq
    exact iff_of_false (by decide) (not_not_intro (hlabel.mp heq))
  · rename_i c rest heq
    exact iff_of_true rfl fun h => by rw [hlabel.mpr h] at heq; cases heq

/-- It has a detail when its error has a text. -/
theorem sourceDetail_isSome_iff {freshness : Value} (hage : PlainCast (freshness.get "age_ms")) :
    (sourceDetail freshness).isSome = true ↔
      falsy (freshness.get "error") = true ∨ (template (freshness.get "error")).isSome = true := by
  have hcases : freshness.get "age_ms" = none ∨ freshness.get "age_ms" = some .null ∨
      ∃ x, freshness.get "age_ms" = some (.num x) := by
    cases hval : freshness.get "age_ms" with
    | none => exact .inl rfl
    | some w =>
      rcases hage w hval with rfl | ⟨x, rfl⟩
      · exact .inr (.inl rfl)
      · exact .inr (.inr ⟨x, rfl⟩)
  by_cases hfalsy : falsy (freshness.get "error") = true
  · rcases hcases with h | h | ⟨x, h⟩ <;> simp [sourceDetail, h, hfalsy, Value.toNumber]
  · cases herror : template (freshness.get "error") with
    | none => rcases hcases with h | h | ⟨x, h⟩ <;> simp [sourceDetail, h, hfalsy, herror]
    | some text =>
      rcases hcases with h | h | ⟨x, h⟩ <;>
        simp [sourceDetail, h, hfalsy, herror, Value.toNumber]

/-- One source, whose times are numbers. -/
theorem deriveSource_isSome_iff (conditions : AlertConditions) (source : String)
    {freshness : Value}
    (htimes : ∀ key ∈ ["sampled_at_ms", "age_ms", "ttl_ms"], PlainCast (freshness.get key)) :
    (deriveSource conditions source freshness).isSome = true ↔ PlainFreshness source freshness := by
  have hage : PlainCast (freshness.get "age_ms") := htimes "age_ms" (by simp)
  rw [PlainFreshness, and_iff_right htimes, ← sourceDetail_isSome_iff hage,
    ← sourceTitle_isSome_iff]
  unfold deriveSource
  split
  · exact iff_of_false Bool.false_ne_true fun h => h.1 rfl
  · rename_i hnull
    rw [and_iff_right hnull]
    by_cases hstale : falsy (freshness.get "stale") = true
    · rw [if_pos hstale]
      exact iff_of_true rfl (.inl hstale)
    · rw [if_neg hstale, or_iff_right hstale]
      cases sourceTitle source with
      | none => simp
      | some title => cases sourceDetail freshness <;> simp

/-- The sources, one after the other. -/
theorem deriveSources_isSome_iff (sources : List (String × Value)) (conditions : AlertConditions)
    (htimes : ∀ s ∈ sources, ∀ key ∈ ["sampled_at_ms", "age_ms", "ttl_ms"],
      PlainCast (s.2.get key)) :
    (deriveSources sources conditions).isSome = true ↔ ∀ s ∈ sources, PlainFreshness s.1 s.2 := by
  induction sources generalizing conditions with
  | nil => exact iff_of_true rfl (by rintro s ⟨⟩)
  | cons s rest ih =>
    obtain ⟨hs, hrest⟩ := List.forall_mem_cons.mp htimes
    rw [deriveSources, List.forall_mem_cons, ← deriveSource_isSome_iff conditions s.1 hs]
    cases hderive : deriveSource conditions s.1 s.2 with
    | none => simp
    | some next => rw [Option.bind_some, ih next hrest, and_iff_right Option.isSome_some]

/-- The alerts are derived when those of the sources are. -/
theorem deriveConditions_isSome_iff (data : HomeData) (error : Option String) :
    (deriveConditions data error).isSome = true ↔
      (deriveSources data.sources
        (deriveRefresh error { active := [], resolved := [] })).isSome = true := by
  rw [deriveConditions, Option.isSome_map]

/-! ### The home page -/

section Home

variable (d : Value)

/-- The sources of the home page, with what is said of each. -/
def sourceEntries : List (String × Value) :=
  match d.get "sources" with
  | some (.obj fields) => fields
  | _ => []

/-- The numbers of a part of the page, which came from a source. -/
def partNumbers {α : Type} (part : Option α) (source : Option Value)
    (numbers : Value → α → List Reading) : List Reading :=
  match part, source with
  | some part, some source => numbers source part
  | _, _ => []

/-- The numbers of the home page. -/
def HomeData.numbers (h : HomeData) : List Reading :=
  partNumbers h.signal (filledSource d "signal") SignalInfo.numbers ++
    partNumbers h.battery (filledSource d "battery") BatteryInfo.numbers ++
    partNumbers h.speed (source d "speed") SpeedInfo.numbers ++
    partNumbers h.device (source d "device") DeviceInfo.numbers ++
    partNumbers h.cpu (source d "cpu") CpuInfo.numbers ++
    partNumbers h.memory (source d "memory") MemInfo.numbers ++
    partNumbers h.usage (source d "data_usage") DataUsage.numbers ++
    partNumbers h.thermal (source d "thermal")
      (fun v cpuTemp => [(cpuTemp, finiteNumber (v.get "cpuss_temp"))]) ++
    h.sources.flatMap fun s => freshnessNumbers s.2

/-- Every source of the home page is plain. -/
def PlainHome : Prop :=
  (∀ v, filledSource d "signal" = some v → PlainSignal v) ∧
    (∀ v, filledSource d "battery" = some v → PlainBattery v) ∧
    (∀ v, source d "speed" = some v → PlainSpeed v) ∧
    (∀ v, source d "device" = some v → PlainDevice v) ∧
    (∀ v, filledSource d "wan6" = some v → PlainWan6 v) ∧
    (∀ v, source d "cpu" = some v → PlainCpu v) ∧
    (∀ v, source d "memory" = some v → PlainMemory v) ∧
    (∀ v, source d "thermal" = some v → PlainCast (v.get "cpuss_temp")) ∧
    ∀ s ∈ sourceEntries d, PlainFreshness s.1 s.2

variable {d}

/-- A source that is mapped, and whose numbers are honest. -/
theorem mapSource_iff {α : Type} (v : Option Value) (map : Value → Option α)
    (numbers : Value → α → List Reading) (Plain : Value → Prop)
    (hmap : ∀ w, (∃ a, map w = some a ∧ ∀ r ∈ numbers w a, Honest r) ↔ Plain w) :
    (∃ part, mapSource v map = some part ∧ ∀ r ∈ partNumbers part v numbers, Honest r) ↔
      ∀ w, v = some w → Plain w := by
  cases v with
  | none => exact iff_of_true ⟨none, rfl, by rintro r ⟨⟩⟩ (by rintro w ⟨⟩)
  | some w =>
    constructor
    · rintro ⟨part, hpart, hhonest⟩ w ⟨⟩
      obtain ⟨a, ha, rfl⟩ := Option.map_eq_some_iff.mp hpart
      exact (hmap w).mp ⟨a, ha, hhonest⟩
    · intro h
      obtain ⟨a, ha, hhonest⟩ := (hmap w).mpr (h w rfl)
      exact ⟨some a, by rw [mapSource, ha]; rfl, hhonest⟩

/-- A source whose mapper cannot throw. -/
theorem partNumbers_map_iff {α : Type} (v : Option Value) (map : Value → α)
    (numbers : Value → α → List Reading) (Plain : Value → Prop)
    (hmap : ∀ w, (∀ r ∈ numbers w (map w), Honest r) ↔ Plain w) :
    (∀ r ∈ partNumbers (v.map map) v numbers, Honest r) ↔ ∀ w, v = some w → Plain w := by
  cases v with
  | none => exact iff_of_true (by rintro r ⟨⟩) (by rintro w ⟨⟩)
  | some w =>
    refine (hmap w).trans ⟨?_, fun h => h w rfl⟩
    rintro h w ⟨⟩
    exact h

/-- The data usage, which is not mapped where it is an error. -/
theorem honest_usagePart (v : Option Value) (p : Value → Bool) :
    ∀ r ∈ partNumbers ((v.filter p).map mapDataUsage) v DataUsage.numbers, Honest r := by
  cases v with
  | none => rintro r ⟨⟩
  | some w =>
    rw [Option.filter_some]
    split
    · exact honest_usage w
    · rintro r ⟨⟩

/-- The parts of a home page that was mapped. -/
structure Parts (d : Value) (h : HomeData) : Prop where
  signal : mapSource (filledSource d "signal") mapSignal = some h.signal
  battery : mapSource (filledSource d "battery") mapBattery = some h.battery
  device : mapSource (source d "device") mapDevice = some h.device
  wan6 : mapSource (filledSource d "wan6") mapWan6 = some h.wan6
  speed : h.speed = (source d "speed").map mapSpeed
  cpu : h.cpu = (source d "cpu").map mapCpu
  memory : h.memory = (source d "memory").map mapMemory
  usage : h.usage =
    ((source d "data_usage").filter fun v => (v.get "error").isNone).map mapDataUsage
  thermal : h.thermal = (source d "thermal").map mapThermal
  sources : h.sources = sourceEntries d

/-- What a home page is made of. -/
theorem parts_of_mapHome {h : HomeData} (hh : mapHome d = some h) : Parts d h := by
  rw [mapHome] at hh
  split at hh
  · rename_i hsignal hbattery hdevice hwan6
    obtain rfl := Option.some.inj hh
    exact ⟨hsignal, hbattery, hdevice, hwan6, rfl, rfl, rfl, rfl, rfl, rfl⟩
  · cases hh

/-- The page is mapped when its four sources that can throw are. -/
theorem exists_mapHome {signal : Option SignalInfo} {battery : Option BatteryInfo}
    {device : Option DeviceInfo} {wan6 : Option Wan6Info}
    (hsignal : mapSource (filledSource d "signal") mapSignal = some signal)
    (hbattery : mapSource (filledSource d "battery") mapBattery = some battery)
    (hdevice : mapSource (source d "device") mapDevice = some device)
    (hwan6 : mapSource (filledSource d "wan6") mapWan6 = some wan6) :
    ∃ h, mapHome d = some h := by
  rw [mapHome, hsignal, hbattery, hdevice, hwan6]
  exact ⟨_, rfl⟩

/-- The alerts and the numbers of a home page, part by part. -/
theorem home_honest_iff {h : HomeData} (hparts : Parts d h) :
    ((∀ error, (deriveConditions h error).isSome = true) ∧ ∀ r ∈ h.numbers d, Honest r) ↔
      (∀ r ∈ partNumbers h.signal (filledSource d "signal") SignalInfo.numbers, Honest r) ∧
      (∀ r ∈ partNumbers h.battery (filledSource d "battery") BatteryInfo.numbers, Honest r) ∧
      (∀ v, source d "speed" = some v → PlainSpeed v) ∧
      (∀ r ∈ partNumbers h.device (source d "device") DeviceInfo.numbers, Honest r) ∧
      (∀ v, source d "cpu" = some v → PlainCpu v) ∧
      (∀ v, source d "memory" = some v → PlainMemory v) ∧
      (∀ v, source d "thermal" = some v → PlainCast (v.get "cpuss_temp")) ∧
      ∀ s ∈ sourceEntries d, PlainFreshness s.1 s.2 := by
  have hspeed := partNumbers_map_iff (source d "speed") mapSpeed SpeedInfo.numbers PlainSpeed
    fun w => mapSpeed_iff
  have hcpu := partNumbers_map_iff (source d "cpu") mapCpu CpuInfo.numbers PlainCpu
    fun w => mapCpu_iff
  have hmemory := partNumbers_map_iff (source d "memory") mapMemory MemInfo.numbers PlainMemory
    fun w => mapMemory_iff
  have hthermal := partNumbers_map_iff (source d "thermal") mapThermal
    (fun v cpuTemp => [(cpuTemp, finiteNumber (v.get "cpuss_temp"))])
    (fun v => PlainCast (v.get "cpuss_temp")) fun w => by
      rw [List.forall_mem_singleton, mapThermal, honest_cast_iff]
  have husage := honest_usagePart (source d "data_usage") fun v => (v.get "error").isNone
  -- The alerts need the times to be numbers, which is what makes the numbers of the sources honest.
  have hsources : ((∀ error, (deriveConditions h error).isSome = true) ∧
      ∀ r ∈ h.sources.flatMap fun s => freshnessNumbers s.2, Honest r) ↔
      ∀ s ∈ sourceEntries d, PlainFreshness s.1 s.2 := by
    simp only [hparts.sources, List.forall_mem_flatMap, freshnessNumbers_honest_iff,
      deriveConditions_isSome_iff]
    constructor
    · rintro ⟨hderive, htimes⟩
      exact (deriveSources_isSome_iff _ _ htimes).mp (hderive none)
    · intro hplain
      have htimes := fun s hs => (hplain s hs).2.1
      exact ⟨fun error => (deriveSources_isSome_iff _ _ htimes).mpr hplain, htimes⟩
  rw [← hsources, ← hspeed, ← hcpu, ← hmemory, ← hthermal, ← hparts.speed, ← hparts.cpu,
    ← hparts.memory, ← hparts.thermal]
  rw [← hparts.usage] at husage
  simp only [HomeData.numbers, List.forall_mem_append]
  constructor
  · rintro ⟨hderive, ⟨⟨⟨⟨⟨⟨⟨⟨h₁, h₂⟩, h₃⟩, h₄⟩, h₅⟩, h₆⟩, -⟩, h₇⟩, h₈⟩⟩
    exact ⟨h₁, h₂, h₃, h₄, h₅, h₆, h₇, hderive, h₈⟩
  · rintro ⟨h₁, h₂, h₃, h₄, h₅, h₆, h₇, hderive, h₈⟩
    exact ⟨hderive, ⟨⟨⟨⟨⟨⟨⟨⟨h₁, h₂⟩, h₃⟩, h₄⟩, h₅⟩, h₆⟩, husage⟩, h₇⟩, h₈⟩⟩

/-- The home page is mapped, with its alerts and honest numbers, exactly when its sources are
plain. -/
theorem mapHome_iff :
    (∃ h, mapHome d = some h ∧ (∀ error, (deriveConditions h error).isSome = true) ∧
      ∀ r ∈ h.numbers d, Honest r) ↔ PlainHome d := by
  have hsignal := mapSource_iff (filledSource d "signal") mapSignal SignalInfo.numbers PlainSignal
    fun w => mapSignal_iff
  have hbattery := mapSource_iff (filledSource d "battery") mapBattery BatteryInfo.numbers
    PlainBattery fun w => mapBattery_iff
  have hdevice := mapSource_iff (source d "device") mapDevice DeviceInfo.numbers PlainDevice
    fun w => mapDevice_iff
  have hwan6 := mapSource_iff (filledSource d "wan6") mapWan6 (fun _ _ => []) PlainWan6
    fun w => by simpa only [List.not_mem_nil, false_implies, implies_true, and_true] using mapWan6_iff
  rw [PlainHome, ← hsignal, ← hbattery, ← hdevice, ← hwan6]
  constructor
  · rintro ⟨h, hh, hhonest⟩
    have hparts := parts_of_mapHome hh
    obtain ⟨h₁, h₂, h₃, h₄, h₅, h₆, h₇, h₈⟩ := (home_honest_iff hparts).mp hhonest
    refine ⟨⟨_, hparts.signal, h₁⟩, ⟨_, hparts.battery, h₂⟩, h₃, ⟨_, hparts.device, h₄⟩,
      ⟨_, hparts.wan6, ?_⟩, h₅, h₆, h₇, h₈⟩
    rcases h.wan6 with _ | info <;> rcases filledSource d "wan6" with _ | w <;> rintro r ⟨⟩
  · rintro ⟨⟨signal, hs, h₁⟩, ⟨battery, hb, h₂⟩, h₃, ⟨device, hv, h₄⟩, ⟨wan6, hw, -⟩, h₅, h₆, h₇, h₈⟩
    obtain ⟨h, hh⟩ := exists_mapHome hs hb hv hw
    have hparts := parts_of_mapHome hh
    obtain rfl : signal = h.signal := Option.some.inj (hs.symm.trans hparts.signal)
    obtain rfl : battery = h.battery := Option.some.inj (hb.symm.trans hparts.battery)
    obtain rfl : device = h.device := Option.some.inj (hv.symm.trans hparts.device)
    exact ⟨h, hh, (home_honest_iff hparts).mpr ⟨h₁, h₂, h₃, h₄, h₅, h₆, h₇, h₈⟩⟩

end Home

end OpenUI.WebApp.Js
