import OpenUI.Proofs.Text
import OpenUI.Proofs.WebApp.Bands
import OpenUI.WebApp.WifiValidation

/-!
# `OpenUI.Proofs.WebApp.WifiValidation`: the two checks of a Wi-Fi text

The form of the dashboard checks a network name and a password before they are sent, and the agent
checks them again. `wifi_checks_agree_iff` says on which texts the two agree. Both count the bytes of
the same characters (`utf8ByteSize_received`) and look for the same ASCII characters
(`any_received`). What the form lets pass and the agent does not are the control characters from
U+0080 on, and surrogates without their other half.
-/

set_option autoImplicit false

namespace OpenUI.WebApp.Js

open OpenUI.Text OpenUI.WebApp.Wifi

-- The equations are stated here once, before the proofs that rewrite with them.
section
attribute [local simp] codePoints
end

/-! ### Code points and code units -/

/-- Half of a pair has a large number, and so has the pair. -/
theorem surrogates_large {u v : UInt16}
    (h : (isLeadingSurrogate u && isTrailingSurrogate v) = true) :
    0xD800 ≤ u.toNat ∧ u.toNat < 0xDC00 ∧ 0xDC00 ≤ v.toNat ∧ v.toNat < 0xE000 := by
  simp only [isLeadingSurrogate, isTrailingSurrogate, Bool.and_eq_true, decide_eq_true_eq] at h
  omega

/-- A test that only small numbers pass finds the same in the code points as in the code units. -/
theorem any_codePoints {P : Nat → Bool} (hP : ∀ n, 0xD800 ≤ n → P n = false) (s : JsString) :
    (codePoints s).any P = s.any fun u => P u.toNat := by
  induction s using codePoints.induct with
  | case1 => rfl
  | case2 u => rfl
  | case3 u v rest hpair ih =>
    have hlarge := surrogates_large hpair
    rw [codePoints, if_pos hpair, List.any_cons, List.any_cons, List.any_cons, ih,
      hP _ (by omega), hP u.toNat hlarge.1, hP v.toNat (by omega)]
    rfl
  | case4 u v rest hpair ih =>
    rw [codePoints, if_neg hpair, List.any_cons, List.any_cons, ih]

/-- So does a test that all of them are to pass. -/
theorem all_codePoints {P : Nat → Bool} (hP : ∀ n, 0xD800 ≤ n → P n = false) (s : JsString) :
    (codePoints s).all P = s.all fun u => P u.toNat := by
  induction s using codePoints.induct with
  | case1 => rfl
  | case2 u => rfl
  | case3 u v rest hpair ih =>
    have hlarge := surrogates_large hpair
    rw [codePoints, if_pos hpair, List.all_cons, List.all_cons, hP _ (by omega),
      hP u.toNat hlarge.1]
    rfl
  | case4 u v rest hpair ih =>
    rw [codePoints, if_neg hpair, List.all_cons, List.all_cons, ih]

/-- Every code point is one of Unicode. -/
theorem codePoints_lt (s : JsString) : ∀ n ∈ codePoints s, n < 0x110000 := by
  induction s using codePoints.induct with
  | case1 => simp [codePoints]
  | case2 u =>
    intro n hn
    have hu := u.toNat_lt
    simp only [codePoints, List.mem_singleton] at hn
    omega
  | case3 u v rest hpair ih =>
    have hlarge := surrogates_large hpair
    intro n hn
    rw [codePoints, if_pos hpair, List.mem_cons] at hn
    rcases hn with hn | hn
    · omega
    · exact ih n hn
  | case4 u v rest hpair ih =>
    intro n hn
    have hu := u.toNat_lt
    rw [codePoints, if_neg hpair, List.mem_cons] at hn
    rcases hn with hn | hn
    · omega
    · exact ih n hn

/-! ### The text at the agent -/

/-- The number of a code point that is no surrogate. -/
theorem toNat_ofNat {n : Nat} (hn : n < 0x110000) (h : n < 0xD800 ∨ 0xE000 ≤ n) :
    (Char.ofNat n).toNat = n := by
  have hvalid : n.isValidChar := by
    rcases h with h | h
    · exact .inl h
    · exact .inr ⟨by omega, hn⟩
  rw [Char.ofNat, dif_pos hvalid]
  rfl

/-- The bytes of a character. -/
theorem utf8Size_eq (c : Char) : c.utf8Size = utf8Length c.toNat := by
  unfold Char.utf8Size utf8Length
  simp only [UInt32.le_iff_toNat_le]
  rfl

/-- The characters that reach the agent. -/
theorem received_eq {text : JsString} {s : String} (h : received text = some s) :
    s.toList.map Char.toNat = codePoints text := by
  unfold received at h
  split at h
  · next hw =>
    cases h
    rw [String.toList_ofList, List.map_map]
    refine (List.map_congr_left fun n hn => ?_).trans (List.map_id _)
    have hn' := List.all_eq_true.mp hw n hn
    simp only [Bool.or_eq_true, decide_eq_true_eq] at hn'
    exact toNat_ofNat (codePoints_lt text n hn) hn'
  · cases h

/-- Both sides count the same bytes. -/
theorem utf8ByteSize_received {text : JsString} {s : String} (h : received text = some s) :
    s.utf8ByteSize = byteLength text := by
  rw [byteLength, ← received_eq h, List.map_map, ← String.ofList_toList (s := s),
    utf8ByteSize_ofList, String.toList_ofList]
  exact congrArg List.sum (List.map_congr_left fun c _ => utf8Size_eq c)

/-- Both sides find the same small characters. -/
theorem any_received {text : JsString} {s : String} (h : received text = some s) {P : Nat → Bool}
    (hP : ∀ n, 0xD800 ≤ n → P n = false) :
    (s.toList.any fun c => P c.toNat) = text.any fun u => P u.toNat := by
  rw [← any_codePoints hP, ← received_eq h, List.any_map]
  rfl

/-- All characters pass a test of ASCII characters on both sides. -/
theorem all_received {text : JsString} {s : String} (h : received text = some s) {P : Nat → Bool}
    (hP : ∀ n, 0xD800 ≤ n → P n = false) :
    (s.toList.all fun c => P c.toNat) = text.all fun u => P u.toNat := by
  rw [← all_codePoints hP, ← received_eq h, List.all_map]
  rfl

/-- Small code units are code points. -/
theorem codePoints_of_small {s : JsString} (h : ∀ u ∈ s, u.toNat < 0xD800) :
    codePoints s = s.map UInt16.toNat := by
  induction s using codePoints.induct with
  | case1 => rfl
  | case2 u => rfl
  | case3 u v rest hpair ih =>
    have hlarge := surrogates_large hpair
    have hsmall := h u (List.mem_cons_self ..)
    omega
  | case4 u v rest hpair ih =>
    rw [codePoints, if_neg hpair, ih fun w hw => h w (List.mem_cons_of_mem _ hw)]
    rfl

/-- A hexadecimal digit is an ASCII character. -/
theorem hexUnit_lt {u : UInt16} (h : isHexUnit u = true) : u.toNat < 0x80 := by
  simp only [isHexUnit, Bool.or_eq_true, Bool.and_eq_true, decide_eq_true_eq] at h
  omega

/-- Hexadecimal digits have as many bytes as code units. -/
theorem byteLength_of_hex {text : JsString} (h : text.all isHexUnit = true) :
    byteLength text = text.length := by
  have hsmall : ∀ u ∈ text, u.toNat < 0x80 := fun u hu =>
    hexUnit_lt (List.all_eq_true.mp h u hu)
  have hone : ∀ u ∈ text, utf8Length u.toNat = 1 := by
    intro u hu
    have hlt := hsmall u hu
    rw [utf8Length, if_pos (by omega)]
  have hpoints := codePoints_of_small fun u hu => (hsmall u hu).trans (by decide)
  have hlengths : (text.map UInt16.toNat).map utf8Length = text.map fun _ => 1 := by
    rw [List.map_map]
    exact List.map_congr_left hone
  rw [byteLength, hpoints, hlengths]
  simp

/-! ### The texts that both treat alike -/

/-- A control character beyond ASCII. -/
def isC1 (u : UInt16) : Bool := 0x80 ≤ u.toNat && u.toNat ≤ 0x9F

/-- No surrogate without its other half, and no control character beyond ASCII. -/
def plain (text : JsString) : Bool := wellFormed text && !text.any isC1

/-- A network name that is plain, or that has a fault both look for: its length, one of the shell's
metacharacters, or an ASCII control character. -/
def SsidMirrored (text : JsString) : Prop :=
  plain text = true ∨ byteLength text < 1 ∨ 32 < byteLength text ∨
    text.any ssidForbidden = true ∨ text.any control = true

/-- A password that is plain, or that has a fault both look for: its length, or an ASCII control
character. A text of 64 bytes is a key only if it is hexadecimal, and then it is plain. -/
def KeyMirrored (text : JsString) : Prop :=
  plain text = true ∨ byteLength text < 8 ∨ 63 < byteLength text ∨ text.any control = true

/-! ### What each side accepts -/

/-- The form takes the text as a network name. -/
theorem ssidError_none_iff {text : JsString} :
    ssidError text = none ↔ 1 ≤ byteLength text ∧ byteLength text ≤ 32 ∧
      text.any ssidForbidden = false ∧ text.any control = false := by
  unfold ssidError
  by_cases hlen : byteLength text < 1 ∨ 32 < byteLength text
  · rw [if_pos (by simpa using hlen)]
    refine iff_of_false (by simp) ?_
    omega
  · rw [if_neg (by simpa using hlen)]
    have hbounds : 1 ≤ byteLength text ∧ byteLength text ≤ 32 := by omega
    cases text.any ssidForbidden <;> cases text.any control <;> simp [hbounds]

/-- The form takes the text as a password. -/
theorem passwordError_none_iff {text : JsString} :
    passwordError text = none ↔ text.any control = false ∧
      (8 ≤ byteLength text ∧ byteLength text ≤ 63 ∨
        byteLength text = 64 ∧ isHex64 text = true) := by
  unfold passwordError
  cases text.any control with
  | true => simp
  | false =>
    cases isHex64 text with
    | false => simp
    | true =>
      simp only [Bool.false_eq_true, if_false, Bool.and_true, Bool.not_eq_true']
      simp
      omega

/-- A text that reaches the agent has the control characters of the form's check, and those beyond
ASCII. -/
theorem any_isControl {text : JsString} {s : String} (h : received text = some s) :
    s.toList.any isControl = (text.any control || text.any isC1) := by
  have hctl : ∀ n : Nat, 0xD800 ≤ n → (n ≤ 0x1F || (0x7F ≤ n && n ≤ 0x9F) : Bool) = false := by
    intro n hn
    simp only [Bool.or_eq_false_iff, Bool.and_eq_false_iff, decide_eq_false_iff_not]
    omega
  have hany := any_received h hctl
  show (s.toList.any fun c => (c.toNat ≤ 0x1F || (0x7F ≤ c.toNat && c.toNat ≤ 0x9F) : Bool)) = _
  have hsplit : ∀ u : UInt16, (u.toNat ≤ 0x1F || (0x7F ≤ u.toNat && u.toNat ≤ 0x9F) : Bool) =
      (control u || isC1 u) := by
    intro u
    rw [Bool.eq_iff_iff]
    simp only [control, isC1, Bool.or_eq_true, Bool.and_eq_true, decide_eq_true_eq, beq_iff_eq]
    omega
  rw [hany, Bool.eq_iff_iff, Bool.or_eq_true, List.any_eq_true, List.any_eq_true,
    List.any_eq_true]
  simp only [hsplit, Bool.or_eq_true, and_or_left, exists_or]

/-- A text that reaches the agent has the metacharacters of the form's check. -/
theorem any_isShellMeta {text : JsString} {s : String} (h : received text = some s) :
    s.toList.any Agent.Wifi.isShellMeta = text.any ssidForbidden := by
  refine any_received h (P := fun n =>
    [0x27, 0x22, 0x3B, 0x24, 0x60, 0x5C, 0x7C, 0x3C, 0x3E, 0x26].contains n) ?_
  intro n hn
  rw [Bool.eq_false_iff]
  intro hmem
  simp only [List.contains_eq_mem, decide_eq_true_eq, List.mem_cons, List.not_mem_nil,
    or_false] at hmem
  omega

/-- A text that reaches the agent is hexadecimal for both. -/
theorem all_isAsciiHexdigit {text : JsString} {s : String} (h : received text = some s) :
    s.toList.all isAsciiHexdigit = text.all isHexUnit := by
  refine (all_received h (P := fun n => (0x30 ≤ n && n ≤ 0x39) || (0x41 ≤ n && n ≤ 0x46)
    || (0x61 ≤ n && n ≤ 0x66)) ?_).trans ?_
  · intro n hn
    simp only [Bool.or_eq_false_iff, Bool.and_eq_false_iff, decide_eq_false_iff_not]
    omega
  · congr 1
    funext u
    rw [Bool.eq_iff_iff]
    simp only [isHexUnit, Bool.or_eq_true, Bool.and_eq_true, decide_eq_true_eq]
    omega

/-- `wifi_value` of a text. -/
theorem wifiValue_str_iff {key s : String} {cfg : Agent.Wifi.WifiConfig} :
    Agent.Wifi.wifiValue key (.str s) cfg = .ok s ↔
      s.toList.any isControl = false ∧ Agent.Wifi.validText key s cfg = true := by
  unfold Agent.Wifi.wifiValue
  cases hc : s.toList.any isControl <;> cases hv : Agent.Wifi.validText key s cfg <;>
    simp [Agent.Wifi.textOf, hc, hv]

/-- The agent takes a text exactly if it is well-formed, without control characters, and follows the
rule of the field. -/
theorem agentTakes_iff {key : String} {text : JsString} {cfg : Agent.Wifi.WifiConfig} :
    AgentTakes key text cfg ↔ ∃ s, received text = some s ∧ text.any control = false ∧
      text.any isC1 = false ∧ Agent.Wifi.validText key s cfg = true := by
  unfold AgentTakes
  refine exists_congr fun s => and_congr_right fun h => ?_
  rw [wifiValue_str_iff, any_isControl h, Bool.or_eq_false_iff, and_assoc]

/-- What reaches the agent at all. -/
theorem received_isSome_iff {text : JsString} :
    (∃ s, received text = some s) ↔ wellFormed text = true := by
  unfold received
  cases wellFormed text <;> simp

/-- The rule of a network name, on the text that the form had. -/
theorem validText_ssid_iff (suffix : BandSuffix) {text : JsString} {s : String}
    {cfg : Agent.Wifi.WifiConfig} (h : received text = some s) :
    Agent.Wifi.validText ("ssid_" ++ suffix.text) s cfg = true ↔
      1 ≤ byteLength text ∧ byteLength text ≤ 32 ∧ text.any ssidForbidden = false := by
  have hrule : Agent.Wifi.validText ("ssid_" ++ suffix.text) s cfg = Agent.Wifi.validSsid s := by
    cases suffix
    · rfl
    · rfl
  rw [hrule, Agent.Wifi.validSsid, any_isShellMeta h, utf8ByteSize_received h]
  simp only [Bool.and_eq_true, decide_eq_true_eq, Bool.not_eq_true', and_assoc]

/-- The rule of a key, on the text that the form had. -/
theorem validText_key_iff (suffix : BandSuffix) {text : JsString} {s : String}
    {cfg : Agent.Wifi.WifiConfig} (h : received text = some s) :
    Agent.Wifi.validText ("key_" ++ suffix.text) s cfg = true ↔
      (8 ≤ byteLength text ∧ byteLength text ≤ 63 ∨
        byteLength text = 64 ∧ isHex64 text = true) := by
  have hrule : Agent.Wifi.validText ("key_" ++ suffix.text) s cfg = Agent.Wifi.validKey s := by
    cases suffix
    · rfl
    · rfl
  have hhex : byteLength text = 64 → (text.all isHexUnit = true ↔ isHex64 text = true) := by
    intro hlen
    unfold isHex64
    constructor
    · intro hall
      rw [byteLength_of_hex hall] at hlen
      rw [hlen, hall]
      rfl
    · intro hboth
      exact ((Bool.and_eq_true _ _).mp hboth).2
  rw [hrule, Agent.Wifi.validKey, all_isAsciiHexdigit h, utf8ByteSize_received h]
  simp only [Bool.or_eq_true, Bool.and_eq_true, decide_eq_true_eq, beq_iff_eq]
  exact or_congr_right (and_congr_right hhex)

/-- The agent takes a network name exactly if it is plain and the form takes it. -/
theorem agentTakes_ssid_iff (suffix : BandSuffix) {text : JsString}
    {cfg : Agent.Wifi.WifiConfig} :
    AgentTakes ("ssid_" ++ suffix.text) text cfg ↔ plain text = true ∧ ssidError text = none := by
  rw [agentTakes_iff, ssidError_none_iff, plain, Bool.and_eq_true, ← received_isSome_iff]
  constructor
  · rintro ⟨s, hs, hctl, hc1, hvalid⟩
    have hrule := (validText_ssid_iff suffix hs).mp hvalid
    exact ⟨⟨⟨s, hs⟩, by rw [hc1]; rfl⟩, hrule.1, hrule.2.1, hrule.2.2, hctl⟩
  · rintro ⟨⟨⟨s, hs⟩, hc1⟩, hmin, hmax, hforb, hctl⟩
    exact ⟨s, hs, hctl, by simpa using hc1, (validText_ssid_iff suffix hs).mpr ⟨hmin, hmax, hforb⟩⟩

/-- The agent takes a key exactly if it is plain and the form takes it. -/
theorem agentTakes_key_iff (suffix : BandSuffix) {text : JsString}
    {cfg : Agent.Wifi.WifiConfig} :
    AgentTakes ("key_" ++ suffix.text) text cfg ↔
      plain text = true ∧ passwordError text = none := by
  rw [agentTakes_iff, passwordError_none_iff, plain, Bool.and_eq_true, ← received_isSome_iff]
  constructor
  · rintro ⟨s, hs, hctl, hc1, hvalid⟩
    exact ⟨⟨⟨s, hs⟩, by rw [hc1]; rfl⟩, hctl, (validText_key_iff suffix hs).mp hvalid⟩
  · rintro ⟨⟨⟨s, hs⟩, hc1⟩, hctl, hlen⟩
    exact ⟨s, hs, hctl, by simpa using hc1, (validText_key_iff suffix hs).mpr hlen⟩

/-- Hexadecimal digits are plain. -/
theorem plain_of_hex {text : JsString} (h : text.all isHexUnit = true) : plain text = true := by
  have hsmall : ∀ u ∈ text, u.toNat < 0x80 := fun u hu =>
    hexUnit_lt (List.all_eq_true.mp h u hu)
  have hpoints := codePoints_of_small fun u hu => (hsmall u hu).trans (by decide)
  rw [plain, wellFormed, hpoints, Bool.and_eq_true]
  constructor
  · rw [List.all_map, List.all_eq_true]
    intro u hu
    have hlt := hsmall u hu
    simp only [Function.comp_apply, Bool.or_eq_true, decide_eq_true_eq]
    omega
  · rw [Bool.not_eq_true', List.any_eq_false]
    intro u hu
    have hlt := hsmall u hu
    simp only [isC1, Bool.and_eq_true, decide_eq_true_eq]
    omega

/-! ### TX power -/

/-- The number of the field is from 1 to 100. -/
theorem parseTxPower_bounds {text : String} {n : Nat} (h : parseTxPower text = .ok (some n)) :
    1 ≤ n ∧ n ≤ 100 := by
  unfold parseTxPower at h
  simp only at h
  split at h
  · cases h
  · split at h
    · cases h
    · split at h
      · cases h
      · next hbounds =>
        cases h
        simp only [Bool.or_eq_true, decide_eq_true_eq] at hbounds
        omega

/-- A number that the form sends is one the agent takes. -/
theorem wifiValue_txpower (suffix : BandSuffix) {n : Nat} (h : 1 ≤ n ∧ n ≤ 100)
    (cfg : Agent.Wifi.WifiConfig) :
    Agent.Wifi.wifiValue ("txpower_" ++ suffix.text) (.num n) cfg = .ok (toString n) := by
  have hdigits : (toString n).toList = Nat.toDigits 10 n := Nat.toList_repr
  have hctl : (toString n).toList.any isControl = false := by
    rw [hdigits, List.any_eq_false]
    intro c hc
    have hdigit := isAsciiDigit_of_mem hc
    simp only [isAsciiDigit, Bool.and_eq_true, decide_eq_true_eq] at hdigit
    simp only [isControl, Bool.or_eq_true, Bool.and_eq_true, decide_eq_true_eq]
    omega
  have hread : parseU16 (toString n).toList = some n := by
    rw [hdigits]
    show Agent.Cell.parseUnsigned 65536 (Nat.toDigits 10 n) = some n
    rw [parseUnsigned_toDigits, if_pos (by omega)]
  have hrule : Agent.Wifi.validText ("txpower_" ++ suffix.text) (toString n) cfg =
      (parseU16 (toString n).toList).any fun n => 1 ≤ n && n ≤ 100 := by
    cases suffix
    · rfl
    · rfl
  have hvalid : Agent.Wifi.validText ("txpower_" ++ suffix.text) (toString n) cfg = true := by
    rw [hrule, hread]
    simp [h]
  unfold Agent.Wifi.wifiValue
  simp only [Agent.Wifi.textOf, hctl, hvalid, Bool.false_eq_true, if_false, if_true]

/-- The only number of a patch is the TX power that was typed. -/
theorem number_of_patch {suffix : BandSuffix} {draft base : BandDraft} {key : String} {n : Nat}
    (h : (key, PatchValue.number n) ∈ buildBandPatch suffix draft base) :
    key = "txpower_" ++ suffix.text ∧ parseTxPower draft.txpower = .ok (some n) := by
  have hentry : ∀ (send : Bool) (name value : String),
      (key, PatchValue.number n) ∉ entry send name suffix (.text value) := by
    intro send name value
    cases send <;> simp [entry]
  simp only [buildBandPatch, List.mem_append, hentry, false_or, List.mem_map, Option.mem_toList,
    Prod.mk.injEq, PatchValue.number.injEq] at h
  obtain ⟨value, hsent, hkey, hn⟩ := h
  refine ⟨hkey.symm, ?_⟩
  unfold txToSend at hsent
  split at hsent
  · next typed htyped =>
    split at hsent
    · cases hsent
      rw [htyped, hn]
    · cases hsent
  · cases hsent

/-! ### Both checks -/

/-- Two checks of which one wants the text to be plain as well agree on the plain texts, and on those
that the other refuses. -/
theorem agree_iff {form agent : Prop} {text : JsString} (h : agent ↔ plain text = true ∧ form) :
    (form ↔ agent) ↔ plain text = true ∨ ¬ form := by
  rw [h]
  tauto

/-- The network names that the two checks treat alike. -/
theorem ssidMirrored_iff {text : JsString} :
    plain text = true ∨ ¬ ssidError text = none ↔ SsidMirrored text := by
  rw [ssidError_none_iff, SsidMirrored]
  refine or_congr_right ?_
  cases text.any ssidForbidden with
  | true => simp
  | false =>
    cases text.any control with
    | true => simp
    | false =>
      simp only [Bool.false_eq_true, and_true, or_false]
      omega

/-- The passwords that the two checks treat alike. -/
theorem keyMirrored_iff {text : JsString} :
    plain text = true ∨ ¬ passwordError text = none ↔ KeyMirrored text := by
  have hhex : isHex64 text = true → plain text = true := fun h =>
    plain_of_hex ((Bool.and_eq_true _ _).mp h).2
  rw [passwordError_none_iff, KeyMirrored]
  by_cases hp : plain text = true
  · exact iff_of_true (.inl hp) (.inl hp)
  · have hno : ¬ isHex64 text = true := fun h => hp (hhex h)
    cases text.any control with
    | true => simp
    | false =>
      simp only [hp, hno, and_false, or_false, false_or, true_and, Bool.false_eq_true]
      omega

/-- For every form: a changed network name, and a changed password of a secured network, are
accepted on both sides or on neither exactly when the text is plain or has a fault both look for. The
number a TX power text stands for, and every number of a patch, is one the agent takes. -/
theorem wifi_checks_agree_iff (suffix : BandSuffix) (draft base : FormDraft)
    (security : Option String) (cfg : Agent.Wifi.WifiConfig) :
    (draft.ssid ≠ base.ssid →
      (((validateDraft draft base security).ssid = none ↔
        AgentTakes ("ssid_" ++ suffix.text) draft.ssid cfg) ↔ SsidMirrored draft.ssid)) ∧
    (draft.password ≠ base.password → security ≠ some "none" →
      (((validateDraft draft base security).password = none ↔
        AgentTakes ("key_" ++ suffix.text) draft.password cfg) ↔ KeyMirrored draft.password)) ∧
    (∀ n, parseTxPower (unitText draft.txpower) = .ok (some n) →
      Agent.Wifi.wifiValue ("txpower_" ++ suffix.text) (.num n) cfg = .ok (toString n)) ∧
    ∀ (edited read : BandDraft) (key : String) (n : Nat),
      (key, PatchValue.number n) ∈ buildBandPatch suffix edited read →
        Agent.Wifi.wifiValue key (.num n) cfg = .ok (toString n) := by
  refine ⟨?_, ?_, ?_, ?_⟩
  · intro hchanged
    have herror : (validateDraft draft base security).ssid = ssidError draft.ssid := if_pos hchanged
    rw [herror, agree_iff (agentTakes_ssid_iff suffix)]
    exact ssidMirrored_iff
  · intro hchanged hsecured
    have herror : (validateDraft draft base security).password = passwordError draft.password :=
      if_pos ⟨hchanged, hsecured⟩
    rw [herror, agree_iff (agentTakes_key_iff suffix)]
    exact keyMirrored_iff
  · intro n hn
    exact wifiValue_txpower suffix (parseTxPower_bounds hn) cfg
  · intro edited read key n hn
    obtain ⟨hkey, hparsed⟩ := number_of_patch hn
    rw [hkey]
    exact wifiValue_txpower suffix (parseTxPower_bounds hparsed) cfg

/-- A name beyond ASCII, a key in hex and a padded TX power are accepted on both sides. -/
theorem wifi_checks_agree_on_plain :
    ((validateDraft ⟨units "Café", units (String.ofList (List.replicate 64 'a')), units " 025"⟩
        ⟨[], [], []⟩ none).ssid = none ↔ AgentTakes "ssid_5g" (units "Café") ⟨[], []⟩) ∧
    ((validateDraft ⟨units "Café", units (String.ofList (List.replicate 64 'a')), units " 025"⟩
        ⟨[], [], []⟩ none).password = none ↔
      AgentTakes "key_5g" (units (String.ofList (List.replicate 64 'a'))) ⟨[], []⟩) ∧
    Agent.Wifi.wifiValue "txpower_5g" (.num 25) ⟨[], []⟩ = .ok (toString 25) :=
  have h := wifi_checks_agree_iff .band5g
    ⟨units "Café", units (String.ofList (List.replicate 64 'a')), units " 025"⟩ ⟨[], [], []⟩ none
    ⟨[], []⟩
  ⟨(h.1 (by decide +kernel)).mpr (.inl (by decide +kernel)),
    (h.2.1 (by decide +kernel) (by decide)).mpr (.inl (by decide +kernel)),
    h.2.2.1 25 (by decide +kernel)⟩

/-- The form takes a name with the control character U+0085, and the agent does not. -/
theorem next_line_in_ssid :
    ¬ ((validateDraft ⟨units "Home\u0085", [], []⟩ ⟨[], [], []⟩ none).ssid = none ↔
      AgentTakes "ssid_2g" (units "Home\u0085") ⟨[], []⟩) := by
  intro h
  have hform : (validateDraft ⟨units "Home\u0085", [], []⟩ ⟨[], [], []⟩ none).ssid = none := by
    decide +kernel
  have hplain := ((agentTakes_ssid_iff .band2g).mp (h.mp hform)).1
  revert hplain
  decide +kernel

end OpenUI.WebApp.Js
