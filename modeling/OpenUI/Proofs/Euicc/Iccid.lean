import OpenUI.Euicc.Es10c
import OpenUI.Helper.Inventory
import OpenUI.Proofs.Euicc.Coding
import Mathlib.Data.List.Induction

/-!
# `OpenUI.Proofs.Euicc.Iccid`: the ICCID that names a profile

A card reports an ICCID as bytes of swapped digits, and a request names the profile by the digits
that were read of them. Encoding and decoding both look at the digits padded with `f` to the whole
field, so neither the number of digits nor what the last of them are makes a difference.

* `swappedBytes_swappedDigits`: bytes, to their digits and back.
* `iccidToBcd_eq`: encoding is filling up with `f`.
* `iccidToBcd_bcdToIccid`: a reported field, and what a request says of it.
-/

set_option autoImplicit false

namespace OpenUI.Euicc

-- The equations are stated here once, before the proofs that rewrite with them.
section
attribute [local simp] swappedBytes
end

/-! ### Digits and bytes -/

theorem hexDigit_low (b : UInt8) :
    hexDigit (asciiByte (Nat.digitChar (b.toNat % 16))) = some (b &&& 0x0F) := by
  revert b
  exact forall_byte (by decide +kernel)

theorem hexDigit_high (b : UInt8) :
    hexDigit (asciiByte (Nat.digitChar (b.toNat / 16))) = some (b >>> 4) := by
  revert b
  exact forall_byte (by decide +kernel)

theorem join_nibbles (b : UInt8) : (b >>> 4) <<< 4 ||| (b &&& 0x0F) = b := by
  revert b
  exact forall_byte (by decide +kernel)

/-- The bytes of the digits of some bytes. -/
theorem swappedBytes_swappedDigits (bin : Bytes) :
    swappedBytes ((bin.flatMap swappedDigits).map asciiByte) = some bin := by
  induction bin with
  | nil => rfl
  | cons b bin ih =>
    rw [List.flatMap_cons, List.map_append]
    show swappedBytes (asciiByte _ :: asciiByte _ :: (List.flatMap _ bin).map asciiByte) = _
    -- Two digits are read back as the two halves of their byte.
    rw [swappedBytes, hexDigit_low, hexDigit_high, ih]
    show some (_ :: bin) = _
    rw [join_nibbles]

/-- The digit that fills up. -/
def filler : UInt8 := 0x66

/-- Every pair of digits is one byte, and an odd one is a byte too. -/
theorem swappedBytes_length {digits bcd : Bytes} (h : swappedBytes digits = some bcd) :
    bcd.length = (digits.length + 1) / 2 := by
  fun_induction swappedBytes digits generalizing bcd with
  | case1 =>
    cases h
    rfl
  | case2 low =>
    simp only [Option.bind_eq_bind, Option.bind_eq_some_iff, Option.pure_def] at h
    obtain ⟨_, -, ⟨⟩⟩ := h
    simp
  | case3 low high rest ih =>
    simp only [Option.bind_eq_bind, Option.bind_eq_some_iff, Option.pure_def] at h
    obtain ⟨_, -, _, -, rest', hrest, ⟨⟩⟩ := h
    have := ih hrest
    simp only [List.length_cons]
    omega

theorem swappedBytes_fillers (n : Nat) :
    swappedBytes (List.replicate (2 * n) filler) = some (List.replicate n 0xFF) := by
  induction n with
  | zero => rfl
  | succ n ih =>
    rw [Nat.mul_succ, List.replicate_succ, List.replicate_succ, swappedBytes, ih]
    rfl

/-- Filling up with `f` fills up with `FF`. -/
theorem swappedBytes_filled (digits : Bytes) (n : Nat) (hn : digits.length ≤ 2 * n) :
    swappedBytes (digits ++ List.replicate (2 * n - digits.length) filler) =
      (swappedBytes digits).map fun bcd => bcd ++ List.replicate (n - bcd.length) 0xFF := by
  fun_induction swappedBytes digits generalizing n with
  | case1 => exact swappedBytes_fillers n
  | case2 low =>
    -- The odd digit shares its byte with the first of the fillers.
    obtain ⟨n, rfl⟩ : ∃ m, n = m + 1 := ⟨n - 1, by simp at hn; omega⟩
    have hcount : 2 * (n + 1) - [low].length = 2 * n + 1 := by
      simp only [List.length_cons, List.length_nil]
      omega
    rw [hcount, List.replicate_succ]
    show swappedBytes (low :: filler :: List.replicate (2 * n) filler) = _
    rw [swappedBytes, swappedBytes_fillers]
    cases hexDigit low with
    | none => rfl
    | some low => rfl
  | case3 low high rest ih =>
    obtain ⟨n, rfl⟩ : ∃ m, n = m + 1 := ⟨n - 1, by simp at hn; omega⟩
    have hcount : 2 * (n + 1) - (low :: high :: rest).length = 2 * n - rest.length := by
      simp only [List.length_cons]
      omega
    rw [hcount]
    show swappedBytes (low :: high :: (rest ++ List.replicate (2 * n - rest.length) filler)) = _
    rw [swappedBytes, ih n (by simp at hn; omega)]
    cases hexDigit low with
    | none => rfl
    | some low =>
      cases hexDigit high with
      | none => rfl
      | some high =>
        cases swappedBytes rest with
        | none => rfl
        | some bcd => simp

/-- Encoding is filling up with `f`. -/
theorem iccidToBcd_eq {digits : String} (h : (utf8 digits).length ≤ 20) :
    iccidToBcd digits 10 =
      swappedBytes (utf8 digits ++ List.replicate (20 - (utf8 digits).length) filler) := by
  rw [swappedBytes_filled (utf8 digits) 10 h, iccidToBcd]
  cases hbcd : swappedBytes (utf8 digits) with
  | none => rfl
  | some bcd =>
    have hlength := swappedBytes_length hbcd
    show (if 10 < bcd.length then none else _) = _
    -- Twenty digits are ten bytes at most, so the field is never too short.
    rw [if_neg (by omega)]
    rfl

/-! ### Dropped padding -/

/-- What is dropped is a number of fillers. -/
theorem dropPadding_append (chars : List Char) :
    ∃ n, dropPadding chars ++ List.replicate n 'f' = chars := by
  cases chars with
  | nil => exact ⟨0, rfl⟩
  | cons c chars =>
    obtain ⟨n, hn⟩ : ∃ n, chars.reverse.takeWhile (· == 'f') = List.replicate n 'f' := by
      refine ⟨_, List.eq_replicate_of_mem fun d hd => ?_⟩
      simpa using List.mem_takeWhile_imp hd
    -- The source drops from the end, so the split is that of the digits read backwards.
    refine ⟨n, ?_⟩
    have hsplit := List.takeWhile_append_dropWhile (p := (· == 'f')) (l := chars.reverse)
    rw [hn] at hsplit
    have hback := congrArg List.reverse hsplit
    rw [List.reverse_append, List.reverse_replicate, List.reverse_reverse] at hback
    exact congrArg (c :: ·) hback

theorem mem_dropPadding {chars : List Char} {c : Char} (h : c ∈ dropPadding chars) : c ∈ chars := by
  obtain ⟨n, hn⟩ := dropPadding_append chars
  rw [← hn]
  exact List.mem_append_left _ h

/-- Fillers behind digits that are none are dropped. -/
theorem dropPadding_filled {chars : List Char} (hne : chars ≠ []) (hf : 'f' ∉ chars) (n : Nat) :
    dropPadding (chars ++ List.replicate n 'f') = chars := by
  cases chars with
  | nil => exact absurd rfl hne
  | cons c chars =>
    show c :: ((chars ++ List.replicate n 'f').reverse.dropWhile (· == 'f')).reverse = _
    have hrest : (chars ++ List.replicate n 'f').reverse.dropWhile (· == 'f') = chars.reverse := by
      have hfirst : chars.reverse.dropWhile (· == 'f') = chars.reverse := by
        -- The last of the digits is no filler.
        rw [List.dropWhile_eq_self_iff]
        intro hpos hbad
        have hmem : chars.reverse[0] ∈ chars := List.mem_reverse.mp (List.getElem_mem hpos)
        rw [beq_iff_eq.mp hbad] at hmem
        exact hf (List.mem_cons_of_mem c hmem)
      rw [List.reverse_append, List.reverse_replicate, List.dropWhile_append, hfirst,
        List.dropWhile_replicate]
      simp
    rw [hrest, List.reverse_reverse]

/-! ### Both ways -/

theorem digitChar_ascii : ∀ d < 16, (Nat.digitChar d).toNat < 0x80 := by decide

/-- Every digit of a byte is one of sixteen. -/
theorem exists_nibble {bin : Bytes} {c : Char} (hc : c ∈ bin.flatMap swappedDigits) :
    ∃ d < 16, c = Nat.digitChar d := by
  obtain ⟨b, -, hb⟩ := List.mem_flatMap.mp hc
  have hlt := b.toNat_lt
  simp only [swappedDigits, List.mem_cons, List.not_mem_nil, or_false] at hb
  rcases hb with rfl | rfl
  · exact ⟨b.toNat % 16, by omega, rfl⟩
  · exact ⟨b.toNat / 16, by omega, rfl⟩

theorem swappedDigits_ascii (bin : Bytes) : ∀ c ∈ bin.flatMap swappedDigits, c.toNat < 0x80 := by
  intro c hc
  obtain ⟨d, hd, rfl⟩ := exists_nibble hc
  exact digitChar_ascii d hd

theorem swappedDigits_length (bin : Bytes) : (bin.flatMap swappedDigits).length =
    2 * bin.length := by
  induction bin with
  | nil => rfl
  | cons b bin ih =>
    rw [List.flatMap_cons, List.length_append, ih, List.length_cons]
    show 2 + 2 * bin.length = _
    omega

/-- Bytes of `FF` are digits of `f`. -/
theorem swappedDigits_fillers (n : Nat) :
    (List.replicate n (0xFF : UInt8)).flatMap swappedDigits = List.replicate (2 * n) 'f' := by
  induction n with
  | zero => rfl
  | succ n ih =>
    rw [Nat.mul_succ, List.replicate_succ, List.replicate_succ, List.replicate_succ,
      List.flatMap_cons, ih]
    rfl

theorem utf8_bcdToIccid (field : Bytes) :
    utf8 (bcdToIccid field) = (dropPadding (field.flatMap swappedDigits)).map asciiByte := by
  rw [bcdToIccid]
  exact utf8_ofList_ascii fun c hc => swappedDigits_ascii field c (mem_dropPadding hc)

/-- The digits that are reported, and those that were dropped. -/
theorem exists_dropped (field : Bytes) : ∃ n,
    dropPadding (field.flatMap swappedDigits) ++ List.replicate n 'f' =
      field.flatMap swappedDigits ∧
    (utf8 (bcdToIccid field)).length + n = 2 * field.length := by
  obtain ⟨n, hn⟩ := dropPadding_append (field.flatMap swappedDigits)
  have hcount := congrArg List.length hn
  rw [swappedDigits_length, List.length_append, List.length_replicate] at hcount
  refine ⟨n, hn, ?_⟩
  rw [utf8_bcdToIccid, List.length_map]
  exact hcount

/-- A reported field: what its digits encode to is the field, filled up. -/
theorem iccidToBcd_bcdToIccid {field : Bytes} (hlength : field.length ≤ 10) :
    iccidToBcd (bcdToIccid field) 10 =
      some (field ++ List.replicate (10 - field.length) 0xFF) := by
  obtain ⟨n, hn, hcount⟩ := exists_dropped field
  -- The digits that were dropped and those that fill up are all the same.
  have hfilled : utf8 (bcdToIccid field) ++
      List.replicate (20 - (utf8 (bcdToIccid field)).length) filler =
        ((field ++ List.replicate (10 - field.length) 0xFF).flatMap swappedDigits).map
          asciiByte := by
    have hfill : ∀ k, List.replicate k filler = (List.replicate k 'f').map asciiByte := by
      intro k
      rw [List.map_replicate]
      rfl
    have hmissing : 20 - (utf8 (bcdToIccid field)).length = n + 2 * (10 - field.length) := by
      omega
    rw [hmissing, utf8_bcdToIccid, hfill, ← List.map_append, List.flatMap_append,
      swappedDigits_fillers, List.replicate_add, ← List.append_assoc, hn]
  rw [iccidToBcd_eq (by omega), hfilled, swappedBytes_swappedDigits]

/-- Two digits are the digits of a byte. -/
theorem swappedDigits_ofNat :
    ∀ low < 16, ∀ high < 16, swappedDigits (UInt8.ofNat (high * 16 + low)) =
      [Nat.digitChar low, Nat.digitChar high] := by
  decide +kernel

/-- An even number of digits is the digits of bytes. -/
theorem exists_swappedDigits (n : Nat) (chars : List Char) (hlength : chars.length = 2 * n)
    (hdigit : ∀ c ∈ chars, ∃ d < 16, c = Nat.digitChar d) :
    ∃ bin : Bytes, bin.flatMap swappedDigits = chars ∧ bin.length = n := by
  induction n generalizing chars with
  | zero => exact ⟨[], (List.eq_nil_of_length_eq_zero hlength).symm, rfl⟩
  | succ n ih =>
    -- Two digits at a time.
    obtain ⟨c, d, rest, rfl⟩ : ∃ c d rest, chars = c :: d :: rest := by
      cases chars with
      | nil => simp at hlength
      | cons c chars =>
        cases chars with
        | nil => simp at hlength; omega
        | cons d rest => exact ⟨c, d, rest, rfl⟩
    obtain ⟨low, hlow, rfl⟩ := hdigit c (by simp)
    obtain ⟨high, hhigh, rfl⟩ := hdigit d (by simp)
    obtain ⟨bin, hbin, hcount⟩ := ih rest (by simp at hlength; omega) fun c hc =>
      hdigit c (List.mem_cons_of_mem _ (List.mem_cons_of_mem _ hc))
    refine ⟨UInt8.ofNat (high * 16 + low) :: bin, ?_, by rw [List.length_cons, hcount]⟩
    rw [List.flatMap_cons, swappedDigits_ofNat low hlow high hhigh, hbin]
    rfl

theorem exists_digitChar {c : Char} (h : Text.isAsciiDigit c = true) :
    ∃ d < 10, c = Nat.digitChar d := by
  have hback : ∀ d < 10, Nat.digitChar d = Char.ofNat (d + 0x30) := by decide
  simp only [Text.isAsciiDigit, Bool.and_eq_true, decide_eq_true_eq] at h
  refine ⟨c.toNat - 0x30, by omega, ?_⟩
  rw [hback _ (by omega), Nat.sub_add_cancel h.1, Char.ofNat_toNat]

/-- A digit string: what its encoding decodes to is the string. -/
theorem bcdToIccid_iccidToBcd {digits : String} (hdigits : digits.toList.all Text.isAsciiDigit)
    (hsome : 1 ≤ digits.length) (hfits : digits.length ≤ 20) :
    ∃ bcd, iccidToBcd digits 10 = some bcd ∧ bcd.length = 10 ∧ bcdToIccid bcd = digits := by
  obtain ⟨chars, rfl⟩ : ∃ chars, digits = String.ofList chars :=
    ⟨digits.toList, digits.ofList_toList.symm⟩
  rw [String.toList_ofList, List.all_eq_true] at hdigits
  rw [String.length_ofList] at hsome hfits
  have hdigit : ∀ c ∈ chars, ∃ d < 10, c = Nat.digitChar d := fun c hc =>
    exists_digitChar (hdigits c hc)
  have hutf8 : utf8 (String.ofList chars) = chars.map asciiByte := by
    refine utf8_ofList_ascii fun c hc => ?_
    obtain ⟨d, hd, rfl⟩ := hdigit c hc
    exact digitChar_ascii d (by omega)
  have hf : 'f' ∉ chars := by
    intro hmem
    obtain ⟨d, hd, hf⟩ := hdigit 'f' hmem
    have hno : ∀ d < 10, 'f' ≠ Nat.digitChar d := by decide
    exact hno d hd hf
  -- The digits and the fillers are the digits of ten bytes.
  obtain ⟨bcd, hbcd, hlength⟩ := exists_swappedDigits 10
    (chars ++ List.replicate (20 - chars.length) 'f')
    (by rw [List.length_append, List.length_replicate]; omega) fun c hc => by
      rcases List.mem_append.mp hc with hc | hc
      · obtain ⟨d, hd, rfl⟩ := hdigit c hc
        exact ⟨d, by omega, rfl⟩
      · exact ⟨15, by omega, List.eq_of_mem_replicate hc⟩
  refine ⟨bcd, ?_, hlength, ?_⟩
  · -- Encoding: the digits and the fillers are read as those ten bytes.
    rw [iccidToBcd_eq (by rw [hutf8, List.length_map]; exact hfits), hutf8, List.length_map]
    have hfill : List.replicate (20 - chars.length) filler =
        (List.replicate (20 - chars.length) 'f').map asciiByte := by
      rw [List.map_replicate]
      rfl
    rw [hfill, ← List.map_append, ← hbcd, swappedBytes_swappedDigits]
  · -- Decoding: only the fillers are dropped. The source never drops the first digit.
    have hne : chars ≠ [] := by
      intro hnil
      rw [hnil] at hsome
      exact absurd hsome (by decide)
    rw [bcdToIccid, hbcd, dropPadding_filled hne hf]

/-! ### The profile that is named -/

/-- A field of ten bytes. -/
def padded (field : Bytes) : Bytes := field ++ List.replicate (10 - field.length) 0xFF

/-- The ICCID field of an entry of the profile list: the last one counts. -/
def listedIccid (entry : List Tlv) : Option Bytes :=
  ((entry.filter (·.tag == 0x5A)).getLast?).map Tlv.value

/-- An entry of the profile list, as it is reported. -/
def listed (entry : List Tlv) : Helper.ProfileInfo := entry.foldl Helper.ProfileInfo.read {}

/-- The digits of the last ICCID field are reported. -/
theorem listed_iccid {entry : List Tlv} {field : Bytes} (h : listedIccid entry = some field) :
    (listed entry).iccid = bcdToIccid field := by
  induction entry using List.reverseRecOn with
  | nil => cases h
  | append_singleton entry t ih =>
    rw [listed, List.foldl_append]
    show (Helper.ProfileInfo.read (listed entry) t).iccid = _
    -- Fields are read one after another; a later ICCID replaces an earlier one.
    by_cases htag : t.tag = 0x5A
    · have hfield : t.value = field := by
        simpa [listedIccid, htag] using h
      rw [Helper.ProfileInfo.read, if_pos htag, hfield]
    · have hkept : (Helper.ProfileInfo.read (listed entry) t).iccid = (listed entry).iccid := by
        rw [Helper.ProfileInfo.read, if_neg htag]
        split_ifs <;> rfl
      rw [hkept]
      exact ih (by simpa [listedIccid, htag] using h)

theorem isHexdigit_digitChar : ∀ d < 16, Es10c.isHexdigit (asciiByte (Nat.digitChar d)) = true := by
  decide

/-- A request that is given the digits of a reported field names the field. -/
theorem profileId_bcdToIccid {field : Bytes} (hne : field ≠ []) (hlength : field.length ≤ 10) :
    Es10c.profileId (bcdToIccid field) = .ok (.prim 0x5A (padded field)) := by
  obtain ⟨n, -, hcount⟩ := exists_dropped field
  have hutf8 := utf8_bcdToIccid field
  have hfits : (utf8 (bcdToIccid field)).length ≤ 20 := by
    omega
  -- The request checks that the digits are there, that they fit, and that they are digits.
  have hsome : utf8 (bcdToIccid field) ≠ [] := by
    intro hnil
    rw [hutf8, List.map_eq_nil_iff] at hnil
    cases field with
    | nil => exact hne rfl
    | cons b field => cases hnil
  have hhex : (utf8 (bcdToIccid field)).all Es10c.isHexdigit = true := by
    rw [hutf8, List.all_eq_true]
    intro b hb
    obtain ⟨c, hc, rfl⟩ := List.mem_map.mp hb
    obtain ⟨d, hd, rfl⟩ := exists_nibble (mem_dropPadding hc)
    exact isHexdigit_digitChar d hd
  rw [Es10c.profileId, if_neg (by omega), if_neg (by
    rw [hhex]
    simp only [hsome, false_or, not_true_eq_false, or_false, not_lt]
    exact hfits), iccidToBcd_bcdToIccid hlength]
  rfl

/-- Digits survive their encoding. A profile with a field of at most ten bytes is named by that
field, filled up, in every request that is given its reported digits. -/
theorem iccid_round_trip :
    (∀ digits : String, digits.toList.all Text.isAsciiDigit = true → 1 ≤ digits.length →
      digits.length ≤ 20 →
      ∃ bcd, iccidToBcd digits 10 = some bcd ∧ bcd.length = 10 ∧ bcdToIccid bcd = digits) ∧
    ∀ (entry : List Tlv) (field : Bytes), listedIccid entry = some field → field ≠ [] →
      field.length ≤ 10 →
      iccidToBcd (listed entry).iccid 10 = some (padded field) ∧
      (∀ refresh, Es10c.enableProfile (listed entry).iccid refresh =
        .ok (.cons 0xBF31 [.cons 0xA0 [.prim 0x5A (padded field)],
          .prim 0x81 [if refresh then 0xFF else 0x00]])) ∧
      (∀ refresh, Es10c.disableProfile (listed entry).iccid refresh =
        .ok (.cons 0xBF32 [.cons 0xA0 [.prim 0x5A (padded field)],
          .prim 0x81 [if refresh then 0xFF else 0x00]])) ∧
      Es10c.deleteProfile (listed entry).iccid =
        .ok (.cons 0xBF33 [.prim 0x5A (padded field)]) := by
  constructor
  · intro digits hdigits hsome hfits
    exact bcdToIccid_iccidToBcd hdigits hsome hfits
  · intro entry field hfield hne hlength
    have hid := profileId_bcdToIccid hne hlength
    rw [listed_iccid hfield]
    refine ⟨iccidToBcd_bcdToIccid hlength, ?_, ?_, ?_⟩
    · intro refresh
      rw [Es10c.enableProfile, Es10c.switchRequest, hid]
      rfl
    · intro refresh
      rw [Es10c.disableProfile, Es10c.switchRequest, hid]
      rfl
    · rw [Es10c.deleteProfile, hid]
      rfl

/-- Nineteen digits, and a profile whose field has nine bytes and an odd number of digits. -/
theorem iccid_round_trip_sample :
    (∃ bcd, iccidToBcd "8963000000000000001" 10 = some bcd ∧ bcd.length = 10 ∧
      bcdToIccid bcd = "8963000000000000001") ∧
    iccidToBcd (listed [⟨0x5A, [0x98, 0x36, 0, 0, 0, 0, 0, 0, 0xF1], []⟩]).iccid 10 =
      some (padded [0x98, 0x36, 0, 0, 0, 0, 0, 0, 0xF1]) :=
  ⟨iccid_round_trip.1 "8963000000000000001" (by decide) (by decide) (by decide),
    (iccid_round_trip.2 [⟨0x5A, [0x98, 0x36, 0, 0, 0, 0, 0, 0, 0xF1], []⟩]
      [0x98, 0x36, 0, 0, 0, 0, 0, 0, 0xF1] rfl (by decide) (by decide)).1⟩

end OpenUI.Euicc
