import OpenUI.Proofs.WebApp.Home

/-!
# `OpenUI.Proofs.WebApp.Boundary`: what the dashboard makes of any response

A malformed field should become unknown, never a fabricated 0 or a crash. The header of
`data/api.ts` says so of all its mappers, and those that check their fields hold to it.

* `mapClients_iff`, `mapWifi_iff`: the clients and the Wi-Fi page.
* `boundary_iff`: the payloads that all the mappers turn into honest numbers.
* `boundary_fabricates`: a speed without rates is shown as 0.
-/

set_option autoImplicit false

namespace OpenUI.WebApp.Js

open OpenUI.Text OpenUI.WebApp OpenUI.WebApp.Wifi

/-! ### Clients -/

/-- The fields of a client that are numbers. -/
def clientKeys : List String :=
  ["signal_dbm", "tx_bitrate_mbps", "rx_bitrate_mbps", "expected_throughput_mbps",
    "connected_secs", "wired_link_mbps"]

/-- The numbers of a client. -/
def Client.numbers (c : Client) (v : Value) : List Reading :=
  [c.signalDbm, c.txBitrateMbps, c.rxBitrateMbps, c.expectedThroughputMbps, c.connectedSecs,
    c.wiredLinkMbps].zip (clientKeys.map fun key => finiteNumber (v.get key))

/-- The items of an array. -/
def arrayItems : Option Value → List Value
  | some (.arr items) => items
  | _ => []

/-- `v.map(f)`, which only an array has. -/
def mapArray (v : Option Value) (f : Value → Option Client) : Option (List Client) :=
  match v with
  | some (.arr items) => items.mapM f
  | _ => none

/-- The numbers of clients that were mapped from an array. -/
def arrayNumbers (v : Option Value) (clients : List Client) : List Reading :=
  (clients.zip (arrayItems v)).flatMap fun c => c.1.numbers c.2

/-- The numbers of the clients. -/
def clientNumbers (d : Value) (clients : List Client) : List Reading :=
  arrayNumbers (d.get (if falsy (d.get "clients") then "dhcp_leases" else "clients")) clients

/-- A list of entries whose numbers are numbers, or of leases, or nothing. -/
def PlainClients (d : Value) : Prop :=
  (falsy (d.get "clients") = false ∧ ∃ items, d.get "clients" = some (.arr items) ∧
    ∀ c ∈ items, c ≠ .null ∧ ∀ key ∈ clientKeys, PlainCast (c.get key)) ∨
  (falsy (d.get "clients") = true ∧ (falsy (d.get "dhcp_leases") = true ∨
    ∃ items, d.get "dhcp_leases" = some (.arr items) ∧ ∀ l ∈ items, l ≠ .null))

/-- A list is mapped, with results that are all good, when every element is. -/
theorem exists_mapM_iff {α β : Type} (f : α → Option β) (P : β → α → Prop) (l : List α) :
    (∃ r, l.mapM f = some r ∧ ∀ p ∈ r.zip l, P p.1 p.2) ↔ ∀ a ∈ l, ∃ b, f a = some b ∧ P b a := by
  induction l with
  | nil => exact iff_of_true ⟨[], rfl, by rintro p ⟨⟩⟩ (by rintro a ⟨⟩)
  | cons a rest ih =>
    rw [List.forall_mem_cons, ← ih, List.mapM_cons]
    constructor
    · rintro ⟨r, hr, hgood⟩
      obtain ⟨b, hb, hr⟩ := Option.bind_eq_some_iff.mp hr
      obtain ⟨bs, hbs, hr⟩ := Option.bind_eq_some_iff.mp hr
      obtain rfl := Option.some.inj hr
      rw [List.zip_cons_cons, List.forall_mem_cons] at hgood
      exact ⟨⟨b, hb, hgood.1⟩, bs, hbs, hgood.2⟩
    · rintro ⟨⟨b, hb, hgood⟩, bs, hbs, hrest⟩
      refine ⟨b :: bs, ?_, ?_⟩
      · rw [hb, hbs]
        rfl
      · rw [List.zip_cons_cons, List.forall_mem_cons]
        exact ⟨hgood, hrest⟩

/-- A client. -/
theorem clientOf_iff (v : Value) :
    (∃ c, clientOf v = some c ∧ ∀ r ∈ c.numbers v, Honest r) ↔
      v ≠ .null ∧ ∀ key ∈ clientKeys, PlainCast (v.get key) := by
  by_cases hnull : v = .null
  · subst hnull
    exact iff_of_false (by rintro ⟨c, ⟨⟩, -⟩) fun h => h.1 rfl
  · have hclient : ∃ c, clientOf v = some c ∧ c.numbers v =
        clientKeys.map fun key => casted (v.get key) := by
      cases v with
      | null => exact absurd rfl hnull
      | _ => exact ⟨_, rfl, rfl⟩
    obtain ⟨c, hc, hnumbers⟩ := hclient
    have hplain : (∀ r ∈ c.numbers v, Honest r) ↔ ∀ key ∈ clientKeys, PlainCast (v.get key) := by
      rw [hnumbers, List.forall_mem_map]
      simp only [casted, honest_cast_iff]
    rw [and_iff_right hnull, ← hplain]
    constructor
    · rintro ⟨other, hother, hhonest⟩
      obtain rfl : c = other := Option.some.inj (hc.symm.trans hother)
      exact hhonest
    · exact fun hhonest => ⟨c, hc, hhonest⟩

/-- A lease, which has no numbers. -/
theorem leaseOf_iff (v : Value) :
    (∃ c, leaseOf v = some c ∧ ∀ r ∈ c.numbers v, Honest r) ↔ v ≠ .null := by
  by_cases hnull : v = .null
  · subst hnull
    exact iff_of_false (by rintro ⟨c, ⟨⟩, -⟩) fun h => h rfl
  · have hlease : ∃ c, leaseOf v = some c ∧ c.numbers v =
        clientKeys.map fun key => (.unknown, finiteNumber (v.get key)) := by
      cases v with
      | null => exact absurd rfl hnull
      | _ => exact ⟨_, rfl, rfl⟩
    obtain ⟨c, hc, hnumbers⟩ := hlease
    refine iff_of_true ⟨c, hc, ?_⟩ hnull
    rw [hnumbers, List.forall_mem_map]
    exact fun key _ => .inl rfl

/-- Only an array is mapped. -/
theorem mapArray_iff {f : Value → Option Client} {P : Value → Prop}
    (hf : ∀ w, (∃ c, f w = some c ∧ ∀ r ∈ c.numbers w, Honest r) ↔ P w) (v : Option Value) :
    (∃ cs, mapArray v f = some cs ∧ ∀ r ∈ arrayNumbers v cs, Honest r) ↔
      ∃ items, v = some (.arr items) ∧ ∀ w ∈ items, P w := by
  by_cases harr : ∃ items, v = some (.arr items)
  · obtain ⟨items, rfl⟩ := harr
    have hall := exists_mapM_iff f (fun c w => ∀ r ∈ c.numbers w, Honest r) items
    simp only [hf] at hall
    simp only [mapArray, arrayNumbers, arrayItems, List.forall_mem_flatMap]
    rw [hall]
    constructor
    · exact fun h => ⟨items, rfl, h⟩
    · rintro ⟨others, heq, h⟩
      obtain rfl : items = others := Value.arr.inj (Option.some.inj heq)
      exact h
  · refine iff_of_false ?_ fun h => harr ⟨h.choose, h.choose_spec.1⟩
    rintro ⟨cs, hcs, -⟩
    unfold mapArray at hcs
    split at hcs
    · exact harr ⟨_, rfl⟩
    · cases hcs

/-- The entries come first, and the leases only where there are none. -/
theorem mapClients_eq (d : Value) :
    mapClients d =
      if falsy (d.get "clients") then
        if falsy (d.get "dhcp_leases") then some [] else mapArray (d.get "dhcp_leases") leaseOf
      else mapArray (d.get "clients") clientOf := by
  rw [mapClients]
  cases falsy (d.get "clients") <;> rfl

/-- The clients are mapped, with honest numbers, exactly when the payload has plain ones. -/
theorem mapClients_iff (d : Value) :
    (∃ cs, mapClients d = some cs ∧ ∀ r ∈ clientNumbers d cs, Honest r) ↔ PlainClients d := by
  simp only [mapClients_eq, clientNumbers, PlainClients]
  cases falsy (d.get "clients") with
  | false =>
    simp only [Bool.false_eq_true, if_false, true_and, false_and, or_false]
    exact mapArray_iff clientOf_iff _
  | true =>
    simp only [Bool.true_eq_false, if_true, true_and, false_and, false_or]
    cases falsy (d.get "dhcp_leases") with
    | true => exact iff_of_true ⟨[], rfl, by rintro r ⟨⟩⟩ (.inl rfl)
    | false =>
      simp only [Bool.false_eq_true, if_false, false_or]
      exact mapArray_iff leaseOf_iff _

/-! ### Wi-Fi -/

section Wifi

variable (d : Value) (suffix radio : String)

/-- The numbers of a band. The widths are made of texts. -/
def WifiBand.numbers (b : WifiBand) : List Reading :=
  [(checked b.channel, finiteNumber (d.get ("actual_channel_" ++ suffix))),
    (checked b.actualChannel, finiteNumber (d.get ("actual_channel_" ++ suffix))),
    derived b.configuredWidthMhz, derived b.actualWidthMhz,
    (checked b.txpowerPercent, finiteNumber (d.get ("txpower_" ++ suffix))),
    (b.clients, finiteNumber (d.get ("clients_" ++ suffix)))]

/-- A text that does not start like a number, or is one, and is 0 when it starts like it. -/
def PlainStart (v : Option Value) (text : String) : Prop :=
  ∀ n, channelOfText text = some n → ∃ x, finiteNumber v = some x ∧ (n = 0 → x = 0)

/-- The channels of a band have texts, and its numbers are numbers. -/
def PlainBand : Prop :=
  (∃ text, textOr (d.get ("actual_channel_" ++ suffix)) "" = some text ∧
    PlainStart (d.get ("actual_channel_" ++ suffix)) text) ∧
  (textOr (d.get ("channel_" ++ suffix)) "auto").isSome = true ∧
  PlainCast (d.get ("clients_" ++ suffix))

/-- A width is one of a few. -/
theorem honest_widthMhz (v : Option Value) : Honest (derived (widthMhz v)) := by
  have hwidth : ∀ n ∈ validWidths, (n : ℚ) ≠ 0 := by decide
  refine honest_derived fun h => ?_
  unfold widthMhz at h
  split at h
  · split at h
    · rename_i hvalid
      obtain rfl := Option.some.inj h
      obtain ⟨n, hn, heq⟩ := List.any_eq_true.mp hvalid
      exact hwidth n hn (eq_of_beq heq).symm
    · cases h
  · dsimp only at h
    split at h
    · split at h
      · rename_i hvalid
        exact hwidth _ hvalid (Option.some.inj h)
      · cases h
    · cases h
  · cases h

/-- The channel of a band. -/
theorem honest_channel_iff (v : Option Value) (text : String) :
    Honest (checked (channelOfText text), finiteNumber v) ↔ PlainStart v text := by
  rw [PlainStart]
  cases channelOfText text with
  | none => exact iff_of_true (.inl rfl) (by rintro n ⟨⟩)
  | some n =>
    refine honest_number_iff.trans ⟨?_, fun h => h n rfl⟩
    rintro h m ⟨⟩
    exact h

/-- A band of the Wi-Fi page. -/
theorem mapBand_iff :
    (∃ b, mapBand d suffix radio = some b ∧ ∀ r ∈ b.numbers d suffix, Honest r) ↔
      PlainBand d suffix := by
  rw [PlainBand]
  cases hactual : textOr (d.get ("actual_channel_" ++ suffix)) "" with
  | none =>
    refine iff_of_false ?_ (by rintro ⟨⟨text, ⟨⟩, -⟩, -⟩)
    rintro ⟨b, hb, -⟩
    rw [mapBand, hactual] at hb
    cases hb
  | some actual =>
    cases hconfigured : textOr (d.get ("channel_" ++ suffix)) "auto" with
    | none =>
      refine iff_of_false ?_ (by rintro ⟨-, ⟨⟩, -⟩)
      rintro ⟨b, hb, -⟩
      rw [mapBand, hactual, hconfigured] at hb
      cases hb
    | some configured =>
      have hnumbers : ∀ b, mapBand d suffix radio = some b → ((∀ r ∈ b.numbers d suffix, Honest r) ↔
          PlainStart (d.get ("actual_channel_" ++ suffix)) actual ∧
            PlainCast (d.get ("clients_" ++ suffix))) := by
        intro b hb
        rw [mapBand, hactual, hconfigured] at hb
        obtain rfl := Option.some.inj hb
        simp only [WifiBand.numbers, List.forall_mem_cons, honest_channel_iff, honest_widthMhz,
          honest_intInRange, honest_cast_iff, true_and, List.not_mem_nil, false_implies,
          implies_true, and_true, and_self_left]
      have hmapped : ∃ b, mapBand d suffix radio = some b := by
        rw [mapBand, hactual, hconfigured]
        exact ⟨_, rfl⟩
      constructor
      · rintro ⟨b, hb, hhonest⟩
        obtain ⟨hstart, hclients⟩ := (hnumbers b hb).mp hhonest
        exact ⟨⟨actual, rfl, hstart⟩, rfl, hclients⟩
      · rintro ⟨⟨text, htext, hstart⟩, -, hclients⟩
        obtain rfl : actual = text := Option.some.inj htext
        obtain ⟨b, hb⟩ := hmapped
        exact ⟨b, hb, (hnumbers b hb).mpr ⟨hstart, hclients⟩⟩

/-- The Wi-Fi page is mapped, with honest numbers, exactly when its bands are plain. -/
theorem mapWifi_iff (d : Value) :
    (∃ w, mapWifi d = some w ∧
      ∀ r ∈ w.band2g.numbers d "2g" ++ w.band5g.numbers d "5g", Honest r) ↔
      PlainBand d "2g" ∧ PlainBand d "5g" := by
  rw [← mapBand_iff d "2g" "radio2_disabled", ← mapBand_iff d "5g" "radio5_disabled"]
  simp only [List.forall_mem_append]
  constructor
  · rintro ⟨w, hw, h2g, h5g⟩
    simp only [mapWifi] at hw
    split at hw
    · rename_i hband2g hband5g
      obtain rfl := Option.some.inj hw
      exact ⟨⟨_, hband2g, h2g⟩, ⟨_, hband5g, h5g⟩⟩
    · cases hw
  · rintro ⟨⟨band2g, hband2g, h2g⟩, ⟨band5g, hband5g, h5g⟩⟩
    simp only [mapWifi, hband2g, hband5g]
    exact ⟨_, rfl, h2g, h5g⟩

end Wifi

/-! ### The boundary -/

/-- Every mapper returns, the alerts are derived from the home page, and all numbers are honest. -/
def Boundary (d : Value) : Prop :=
  (∃ h, mapHome d = some h ∧ (∀ error, (deriveConditions h error).isSome = true) ∧
    ∀ r ∈ h.numbers d, Honest r) ∧
  (∃ s, mapSignal d = some s ∧ ∀ r ∈ s.numbers d, Honest r) ∧
  (∃ cs, mapClients d = some cs ∧ ∀ r ∈ clientNumbers d cs, Honest r) ∧
  (∃ w, mapWifi d = some w ∧ ∀ r ∈ w.band2g.numbers d "2g" ++ w.band5g.numbers d "5g", Honest r)

/-- The payloads that the boundary holds for. -/
def PlainPayload (d : Value) : Prop :=
  PlainHome d ∧ PlainSignal d ∧ PlainClients d ∧ PlainBand d "2g" ∧ PlainBand d "5g"

/-- The boundary holds exactly for plain payloads. -/
theorem boundary_iff (d : Value) : Boundary d ↔ PlainPayload d := by
  rw [Boundary, PlainPayload, mapHome_iff, mapSignal_iff, mapClients_iff, mapWifi_iff]

/-- An answer of the agent with a speed that has no rates. -/
def noRates : Value := .obj [("speed", .obj [])]

/-- The rates are shown as 0. -/
theorem boundary_fabricates : ¬∀ d : Value, Boundary d := by
  intro h
  have hspeed := (mapHome_iff.mp (h noRates).1).2.2.1
  obtain ⟨x, hx⟩ := hspeed (.obj []) rfl "rx_speed" (by simp)
  cases hx

end OpenUI.WebApp.Js
