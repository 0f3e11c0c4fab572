import OpenUI.Agent.NetworkLogs
import OpenUI.Csv
import OpenUI.Proofs.WebApp.Bands

/-!
# `OpenUI.Proofs.Agent.NetworkLogs`: rows that are read back

Every row of the two loggers is the text of a record (`formatRow_eq`, `formatChange_eq`): its fields
are those of the observation, each written as it is or through `csv_escape`. So a row is read back
exactly if the fields that no quotes protect hold nothing but text (`log_rows_read_iff`). The time
stamps always do (`deviceDatetime_text`).
-/

set_option autoImplicit false

namespace OpenUI.Agent.NetworkLogs

open OpenUI.Text OpenUI.Csv OpenUI.Agent.CsvUtils

/-! ### Fields -/

/-- A field that is written as it is. -/
def raw (s : String) : Field := ⟨false, s.toList⟩

/-- A field that is written through `csv_escape`. -/
def escaped (s : String) : Field := ⟨needsQuotes s, s.toList⟩

theorem raw_text (s : String) : (raw s).text = s.toList := rfl

/-- Replacing each quote by two. -/
theorem replaceFrom_double (cs : List Char) : replaceFrom ['"'] ['"', '"'] 0 cs = double cs := by
  induction cs with
  | nil => rfl
  | cons c cs ih =>
    by_cases hc : c = '"'
    · subst hc
      rw [replaceFrom, if_pos (List.cons_prefix_cons.mpr ⟨rfl, List.nil_prefix⟩)]
      show ['"', '"'] ++ replaceFrom ['"'] ['"', '"'] 0 cs = _
      rw [ih]
      rfl
    · have hne : ¬ ['"'] <+: c :: cs := by
        intro h
        exact hc (List.cons_prefix_cons.mp h).1.symm
      have hcons : double (c :: cs) = c :: double cs := by
        show (if c = '"' then ['"', '"'] else [c]) ++ double cs = _
        rw [if_neg hc]
        rfl
      rw [replaceFrom, if_neg hne, ih, hcons]

/-- `csv_escape` writes the field. -/
theorem csvEscape_toList (s : String) : (csvEscape s).toList = (escaped s).text := by
  unfold csvEscape escaped Field.text
  cases needsQuotes s with
  | false => rfl
  | true =>
    show ("\"" ++ Text.replace "\"" "\"\"" s ++ "\"").toList = quote s.toList
    have hreplaced : (Text.replace "\"" "\"\"" s).toList = double s.toList := by
      rw [Text.replace, String.toList_ofList]
      exact replaceFrom_double s.toList
    rw [String.toList_append, String.toList_append, hreplaced]
    rfl

/-- Fields between commas are a record. -/
theorem intercalate_toList (fields : List Field) (texts : List String)
    (h : texts.map String.toList = fields.map Field.text) :
    (",".intercalate texts).toList = recordText fields := by
  rw [String.toList_intercalate, h]
  rfl

/-- A text without separators, quotes and line breaks. -/
def TextOnly (s : String) : Prop := s.toList.all isTextData = true

/-- A text whose carriage returns are protected, because it has a separator, a quote or a line feed
as well. -/
def Protected (s : String) : Prop := '\r' ∈ s.toList → needsQuotes s = true

theorem raw_plain_iff {s : String} : (raw s).Plain ↔ TextOnly s := by
  unfold Field.Plain raw TextOnly
  simp

/-- Of the characters that are not text, `csv_escape` overlooks the carriage return. -/
theorem escaped_plain_iff {s : String} : (escaped s).Plain ↔ Protected s := by
  unfold Field.Plain escaped Protected
  show (needsQuotes s = false → s.toList.all isTextData = true) ↔ _
  constructor
  · intro h hreturn
    by_contra hq
    have htext := List.all_eq_true.mp (h (by simpa using hq)) _ hreturn
    revert htext
    decide
  · intro h hq
    have hreturn : '\r' ∉ s.toList := by
      intro hmem
      rw [h hmem] at hq
      cases hq
    simp only [needsQuotes, Bool.or_eq_false_iff, List.contains_eq_mem,
      decide_eq_false_iff_not] at hq
    rw [List.all_eq_true]
    intro c hc
    simp only [isTextData, Bool.and_eq_true, bne_iff_ne, ne_eq]
    refine ⟨⟨⟨?_, ?_⟩, ?_⟩, ?_⟩
    · rintro rfl
      exact hq.1.1 hc
    · rintro rfl
      exact hq.1.2 hc
    · rintro rfl
      exact hreturn hc
    · rintro rfl
      exact hq.2 hc

/-! ### Time stamps -/

/-- A digit is text. -/
theorem textData_of_digit {c : Char} (h : isAsciiDigit c = true) : isTextData c = true := by
  simp only [isTextData, Bool.and_eq_true, bne_iff_ne, ne_eq]
  refine ⟨⟨⟨?_, ?_⟩, ?_⟩, ?_⟩
  · rintro rfl
    exact absurd h (by decide)
  · rintro rfl
    exact absurd h (by decide)
  · rintro rfl
    exact absurd h (by decide)
  · rintro rfl
    exact absurd h (by decide)

/-- The digits of a number are text. -/
theorem toDigits_text (n : Nat) : (Nat.toDigits 10 n).all isTextData = true :=
  List.all_eq_true.mpr fun _ hc => textData_of_digit (WebApp.isAsciiDigit_of_mem hc)

theorem toString_text (n : Nat) : TextOnly (toString n) := by
  have hdigits : (toString n).toList = Nat.toDigits 10 n := Nat.toList_repr
  rw [TextOnly, hdigits]
  exact toDigits_text n

/-- A number with zeros before it is text, also a negative one. -/
theorem zeroPadded_text (width : Nat) (n : Int) : (zeroPadded width n).all isTextData = true := by
  unfold zeroPadded
  have hzeros : ∀ k : Nat, (List.replicate k '0').all isTextData = true := by
    intro k
    rw [List.all_eq_true]
    intro c hc
    rw [(List.mem_replicate.mp hc).2]
    rfl
  simp only [List.all_append, Bool.and_eq_true]
  refine ⟨⟨?_, hzeros _⟩, toDigits_text _⟩
  split
  · rfl
  · rfl

/-- The date and the time of every epoch are text. -/
theorem deviceDatetime_text (ts : UInt64) : TextOnly (deviceDatetime ts) := by
  unfold TextOnly deviceDatetime
  simp only [String.toList_ofList, List.all_append, List.all_cons, zeroPadded_text]
  rfl

/-- A number is text. What is not can only come from a string. -/
theorem number_text (n : NumberText) : TextOnly n.text := by
  rw [TextOnly, List.all_eq_true]
  intro c hc
  have hnumber := List.all_eq_true.mp n.printed c hc
  simp only [isNumberChar, Bool.or_eq_true, beq_iff_eq] at hnumber
  rcases hnumber with (((hdigit | rfl) | rfl) | rfl) | rfl
  · exact textData_of_digit hdigit
  · decide
  · decide
  · decide
  · decide

/-! ### The rows of the signal logger -/

/-- What the columns of `SignalLogger.header` are to hold. -/
def signalValues (ts : UInt64) (data : Info) : List String :=
  [toString ts.toNat, deviceDatetime ts] ++
  ["network_type", "network_provider_fullname", "cell_id", "wan_active_band", "lte_pci",
    "wan_active_channel", "lte_rsrp", "lte_rsrq", "lte_snr", "lte_rssi", "nr5g_action_band",
    "nr5g_pci", "nr5g_action_channel", "nr5g_rsrp", "nr5g_rsrq", "nr5g_snr", "nr5g_rssi"].map
      (strField data) ++
  [SignalLogger.lteCa data, SignalLogger.nrCa data]

/-- The keys whose texts are written as they are. -/
def rawKeys : List String :=
  ["cell_id", "lte_pci", "wan_active_channel", "lte_rsrp", "lte_rsrq", "lte_snr", "lte_rssi",
    "nr5g_pci", "nr5g_action_channel", "nr5g_rsrp", "nr5g_rsrq", "nr5g_snr", "nr5g_rssi"]

/-- The texts that are written through `csv_escape`. -/
def escapedTexts (data : Info) : List String :=
  ["network_type", "network_provider_fullname", "wan_active_band", "nr5g_action_band"].map
    (strField data) ++ [SignalLogger.lteCa data, SignalLogger.nrCa data]

/-- Nothing unprotected in the observation is more than text. -/
def SignalText (data : Info) : Prop :=
  (∀ key ∈ rawKeys, TextOnly (strField data key)) ∧ ∀ s ∈ escapedTexts data, Protected s

/-- The fields of a row. -/
def signalFields (ts : UInt64) (data : Info) : List Field :=
  [raw (toString ts.toNat),
    raw (deviceDatetime ts),
    escaped (strField data "network_type"),
    escaped (strField data "network_provider_fullname"),
    raw (strField data "cell_id"),
    escaped (strField data "wan_active_band"),
    raw (strField data "lte_pci"),
    raw (strField data "wan_active_channel"),
    raw (strField data "lte_rsrp"),
    raw (strField data "lte_rsrq"),
    raw (strField data "lte_snr"),
    raw (strField data "lte_rssi"),
    escaped (strField data "nr5g_action_band"),
    raw (strField data "nr5g_pci"),
    raw (strField data "nr5g_action_channel"),
    raw (strField data "nr5g_rsrp"),
    raw (strField data "nr5g_rsrq"),
    raw (strField data "nr5g_snr"),
    raw (strField data "nr5g_rssi"),
    escaped (SignalLogger.lteCa data),
    escaped (SignalLogger.nrCa data)]

/-- A row is the record of its fields. -/
theorem formatRow_eq (ts : UInt64) (data : Info) :
    (SignalLogger.formatRow ts data).toList = recordText (signalFields ts data) := by
  refine intercalate_toList _ _ ?_
  simp only [signalFields, List.map_cons, List.map_nil, csvEscape_toList, raw_text]

/-- The fields hold what the columns are to hold. -/
theorem signalFields_values (ts : UInt64) (data : Info) :
    (signalFields ts data).map Field.value = (signalValues ts data).map String.toList := by
  simp only [signalFields, signalValues, raw, escaped, List.map_cons, List.map_nil,
    List.cons_append, List.nil_append]

/-- The fields are plain when nothing unprotected is more than text. -/
theorem signalFields_plain_iff (ts : UInt64) (data : Info) :
    (∀ f ∈ signalFields ts data, f.Plain) ↔ SignalText data := by
  have hts := toString_text ts.toNat
  have hdt := deviceDatetime_text ts
  simp only [signalFields, SignalText, rawKeys, escapedTexts, List.map_cons, List.map_nil,
    List.cons_append, List.nil_append, List.forall_mem_cons, List.not_mem_nil, false_implies,
    implies_true, and_true, raw_plain_iff, escaped_plain_iff, hts, hdt, true_and]
  -- The same conditions, in the order of the columns and in that of the keys.
  constructor
  · rintro ⟨e₁, e₂, r₁, e₃, r₂, r₃, r₄, r₅, r₆, r₇, e₄, r₈, r₉, r₁₀, r₁₁, r₁₂, r₁₃, e₅, e₆⟩
    exact ⟨⟨r₁, r₂, r₃, r₄, r₅, r₆, r₇, r₈, r₉, r₁₀, r₁₁, r₁₂, r₁₃⟩, e₁, e₂, e₃, e₄, e₅, e₆⟩
  · rintro ⟨⟨r₁, r₂, r₃, r₄, r₅, r₆, r₇, r₈, r₉, r₁₀, r₁₁, r₁₂, r₁₃⟩, e₁, e₂, e₃, e₄, e₅, e₆⟩
    exact ⟨e₁, e₂, r₁, e₃, r₂, r₃, r₄, r₅, r₆, r₇, e₄, r₈, r₉, r₁₀, r₁₁, r₁₂, r₁₃, e₅, e₆⟩

/-- A row of the signal logger is read back exactly if its unprotected fields are text. -/
theorem readRecord_formatRow_iff (ts : UInt64) (data : Info) :
    readRecord (SignalLogger.formatRow ts data).toList =
      some ((signalValues ts data).map String.toList) ↔ SignalText data := by
  rw [formatRow_eq, ← signalFields_plain_iff ts data, ← signalFields_values]
  exact readRecord_written_iff (List.cons_ne_nil _ _)

/-! ### The rows of the connection logger -/

/-- What the columns of `ConnectionLogger.header` are to hold. -/
def changeValues (ts : UInt64) (change : ConnectionLogger.Change) : List String :=
  [toString ts.toNat, deviceDatetime ts, change.event.text, change.event.detail, change.old,
    change.new]

/-- The fields of a row. -/
def changeFields (ts : UInt64) (change : ConnectionLogger.Change) : List Field :=
  [raw (toString ts.toNat), raw (deviceDatetime ts), raw change.event.text,
    raw change.event.detail, escaped change.old, escaped change.new]

/-- A row is the record of its fields. -/
theorem formatChange_eq (ts : UInt64) (change : ConnectionLogger.Change) :
    (ConnectionLogger.formatChange ts change).toList = recordText (changeFields ts change) := by
  refine intercalate_toList _ _ ?_
  simp only [changeFields, List.map_cons, List.map_nil, csvEscape_toList, raw_text]

/-- The names of an event are text. -/
theorem event_text (event : ConnectionLogger.Event) :
    TextOnly event.text ∧ TextOnly event.detail := by
  unfold TextOnly
  cases event <;> decide +kernel

/-- A row of the connection logger is read back exactly if both of its values are protected. -/
theorem readRecord_formatChange_iff (ts : UInt64) (change : ConnectionLogger.Change) :
    readRecord (ConnectionLogger.formatChange ts change).toList =
      some ((changeValues ts change).map String.toList) ↔
      Protected change.old ∧ Protected change.new := by
  have hts := toString_text ts.toNat
  have hdt := deviceDatetime_text ts
  have hevent := event_text change.event
  have hfields : (∀ f ∈ changeFields ts change, f.Plain) ↔
      Protected change.old ∧ Protected change.new := by
    simp only [changeFields, List.forall_mem_cons, raw_plain_iff, escaped_plain_iff, hts, hdt,
      hevent, true_and]
    simp
  have hvalues : (changeFields ts change).map Field.value =
      (changeValues ts change).map String.toList := by
    simp only [changeFields, changeValues, raw, escaped, List.map_cons, List.map_nil]
  rw [formatChange_eq, ← hfields, ← hvalues]
  exact readRecord_written_iff (List.cons_ne_nil _ _)

/-! ### The headers -/

theorem toList_append_append (a b c : String) :
    (a ++ b ++ c).toList = a.toList ++ b.toList ++ c.toList := by
  rw [String.toList_append, String.toList_append]

/-- The columns of the signal log. -/
theorem signalHeader_columns :
    (readRecord SignalLogger.header.toList).map List.length = some 21 := by
  have hparts : SignalLogger.header.toList = _ := toList_append_append _ _ _
  -- The characters of a literal are its own: nothing is decoded.
  rw [hparts, String.toList_ofList, String.toList_ofList, String.toList_ofList]
  decide +kernel

/-- The columns of the connection log. -/
theorem connectionHeader_columns :
    (readRecord ConnectionLogger.header.toList).map List.length = some 6 := by
  delta ConnectionLogger.header
  rw [String.toList_ofList]
  decide +kernel

/-! ### Both -/

/-- For every time and every observation, and every one before it: a row of the signal logger is one
record with the fields of its header and the values of the observation exactly if none of the texts
that are written as they are has a separator, a quote or a line break, and no other text has a
carriage return that nothing else in it protects. The rows of the connection logger are exactly if
the values before and after each change are so protected. -/
theorem log_rows_read_iff (ts : UInt64) (data : Info) (previous : Option Info) :
    (readRecord (SignalLogger.formatRow ts data).toList =
          some ((signalValues ts data).map String.toList) ∧
        (readRecord SignalLogger.header.toList).map List.length =
          some (signalValues ts data).length ↔ SignalText data) ∧
    ((ConnectionLogger.rows ts data previous).1.map (fun row => readRecord row.toList) =
          (ConnectionLogger.changesSince previous data).map (fun change =>
            some ((changeValues ts change).map String.toList)) ∧
        (∀ change, (readRecord ConnectionLogger.header.toList).map List.length =
          some (changeValues ts change).length) ↔
      ∀ change ∈ ConnectionLogger.changesSince previous data,
        Protected change.old ∧ Protected change.new) := by
  constructor
  · rw [readRecord_formatRow_iff]
    exact and_iff_left signalHeader_columns
  · have hcolumns : ∀ change, (readRecord ConnectionLogger.header.toList).map List.length =
        some (changeValues ts change).length := fun _ => connectionHeader_columns
    rw [and_iff_left hcolumns]
    show ((ConnectionLogger.changesSince previous data).map _).map _ = _ ↔ _
    rw [List.map_map, List.map_inj_left]
    simp only [Function.comp_apply, readRecord_formatChange_iff]

/-- Two powers in the field of one make a column too many. -/
theorem rsrp_list_shifts_columns :
    ¬ (readRecord (SignalLogger.formatRow 0 [("lte_rsrp", .string "-95,-97")]).toList =
      some ((signalValues 0 [("lte_rsrp", .string "-95,-97")]).map String.toList)) := by
  rw [readRecord_formatRow_iff]
  intro h
  have htext := h.1 "lte_rsrp" (by decide)
  revert htext
  unfold TextOnly
  decide +kernel

end OpenUI.Agent.NetworkLogs
