import OpenUI.Agent.Cell
import OpenUI.WebApp.Bands
import Mathlib.Data.Nat.Bitwise
import Mathlib.Data.Rat.Cast.Order

/-!
# `OpenUI.Proofs.WebApp.Bands`: three encodings of a set of bands

The dashboard writes a mask or a list, the agent checks it, and the dashboard reads it back.

* `testBit_lteMask`: the bits of a mask.
* `parseUnsigned_toDigits`, `readMask_decimal`, `readMask_hexadecimal`: the numbers are read as they
  were written.
* `acceptsLte_iff`, `acceptsNr_iff`: the agent accepts the sets of bands that the firmware has.
* `parseLteBandLock_mask`, `parseNrBandLock_join`: the dashboard reads back what it wrote.
-/

set_option autoImplicit false

namespace OpenUI.WebApp

open OpenUI.Text OpenUI.Json OpenUI.WebApp.Wifi
open OpenUI.Agent.Cell (AcceptsLte AcceptsNr lteBands nrBands allowedMask parseUnsigned
  parseBandList textFields)

/-! ### Digits -/

theorem isAsciiDigit_eq (c : Char) : isAsciiDigit c = c.isDigit := by
  have hlow : decide (0x30 ≤ c.toNat) = decide (c.val ≥ '0'.val) :=
    decide_eq_decide.mpr (UInt32.le_iff_toNat_le (a := '0'.val) (b := c.val)).symm
  have hhigh : decide (c.toNat ≤ 0x39) = decide (c.val ≤ '9'.val) :=
    decide_eq_decide.mpr (UInt32.le_iff_toNat_le (a := c.val) (b := '9'.val)).symm
  rw [isAsciiDigit, Char.isDigit, hlow, hhigh]

theorem isAsciiDigit_of_mem {c : Char} {n : Nat} (h : c ∈ Nat.toDigits 10 n) :
    isAsciiDigit c = true := by
  rw [isAsciiDigit_eq]
  exact Nat.isDigit_of_mem_toDigits (by decide) (by decide) h

theorem all_toDigits (n : Nat) : (Nat.toDigits 10 n).all isAsciiDigit = true :=
  List.all_eq_true.mpr fun _ h => isAsciiDigit_of_mem h

/-- A digit is neither a sign nor a separator. -/
theorem not_mem_toDigits {c : Char} (h : isAsciiDigit c = false) (n : Nat) :
    c ∉ Nat.toDigits 10 n := by
  intro hc
  rw [isAsciiDigit_of_mem hc] at h
  cases h

theorem numberOf_toDigits (n : Nat) : numberOf (Nat.toDigits 10 n) = n :=
  Nat.ofDigitChars_ten_toDigits

/-- Rust's reading of a decimal number. -/
theorem parseUnsigned_toDigits (size n : Nat) :
    parseUnsigned size (Nat.toDigits 10 n) = if n < size then some n else none := by
  unfold parseUnsigned
  split
  · rename_i rest heq
    have hplus : '+' ∈ Nat.toDigits 10 n := by
      rw [heq]
      exact List.mem_cons_self
    exact absurd hplus (not_mem_toDigits (by decide) n)
  · simp only [Nat.ofDigitChars_ten_toDigits, ne_eq, Nat.toDigits_ne_nil, not_false_eq_true, all_toDigits, true_and]

/-- JavaScript's. -/
theorem readMask_decimal (n : Nat) : readMask (Nat.toDigits 10 n) = some n := by
  have hnot : ¬((Nat.toDigits 10 n).take 2 = ['0', 'x'] ∨
      (Nat.toDigits 10 n).take 2 = ['0', 'X']) := by
    rintro (h | h)
    · have hmem : 'x' ∈ (Nat.toDigits 10 n).take 2 := by simp [h]
      exact not_mem_toDigits (by decide) n (List.mem_of_mem_take hmem)
    · have hmem : 'X' ∈ (Nat.toDigits 10 n).take 2 := by simp [h]
      exact not_mem_toDigits (by decide) n (List.mem_of_mem_take hmem)
  rw [readMask, if_neg fun h => hnot h.1, if_pos ⟨Nat.toDigits_ne_nil, all_toDigits n⟩,
    numberOf_toDigits]

theorem hexDigit_digitChar : ∀ d < 16, hexDigit (Nat.digitChar d) = d ∧
    isAsciiHexdigit (Nat.digitChar d) = true := by
  decide

/-- A number in hexadecimal, digit by digit. -/
theorem hexNumberOf_toDigits (n : Nat) : hexNumberOf (Nat.toDigits 16 n) = n ∧
    (Nat.toDigits 16 n).all isAsciiHexdigit = true := by
  induction n using Nat.base_induction 16 (by decide) with
  | single m hm =>
    obtain ⟨hvalue, hhex⟩ := hexDigit_digitChar m hm
    rw [Nat.toDigits_of_lt_base hm]
    simp [hexNumberOf, hvalue, hhex]
  | digit m k hk hm ih =>
    obtain ⟨hvalue, hhex⟩ := hexDigit_digitChar k hk
    obtain ⟨hnumber, hall⟩ := ih
    rw [← Nat.toDigits_append_toDigits (by decide) hm hk, Nat.toDigits_of_lt_base hk]
    rw [hexNumberOf] at hnumber
    simp [hexNumberOf, hnumber, hvalue, hhex, hall]

theorem readMask_hexadecimal (n : Nat) : readMask ('0' :: 'x' :: Nat.toDigits 16 n) = some n := by
  obtain ⟨hnumber, hall⟩ := hexNumberOf_toDigits n
  rw [readMask, if_pos ⟨Or.inl rfl, by simp, by simpa using hall⟩]
  exact congrArg some hnumber

/-! ### Masks -/

/-- Band `N` is bit `N - 1`. -/
theorem testBit_lteMask {bands : List Nat} (hpos : ∀ b ∈ bands, 0 < b) (i : Nat) :
    (lteMask bands).testBit i = decide (i + 1 ∈ bands) := by
  have hfold : ∀ start : Nat, (bands.foldl (fun mask b => mask ||| 1 <<< (b - 1)) start).testBit i =
      (start.testBit i || decide (i + 1 ∈ bands)) := by
    induction bands with
    | nil => simp
    | cons b rest ih =>
      intro start
      have hb := hpos b List.mem_cons_self
      have hbit : (1 <<< (b - 1)).testBit i = decide (i + 1 = b) := by
        rw [Nat.one_shiftLeft, Nat.testBit_two_pow]
        exact decide_eq_decide.mpr (by omega)
      rw [List.foldl_cons, ih (fun b hb => hpos b (List.mem_cons_of_mem _ hb)), Nat.testBit_or, hbit]
      simp [Bool.or_assoc, List.mem_cons]
  rw [lteMask, hfold]
  simp

theorem lteMask_eq_zero_iff {bands : List Nat} (hpos : ∀ b ∈ bands, 0 < b) :
    lteMask bands = 0 ↔ bands = [] := by
  constructor
  · intro hzero
    by_contra hne
    obtain ⟨b, hb⟩ := List.exists_mem_of_ne_nil bands hne
    have hbit := testBit_lteMask hpos (b - 1)
    have hpred : b - 1 + 1 = b := Nat.sub_add_cancel (hpos b hb)
    rw [hzero, Nat.zero_testBit, hpred, decide_eq_true hb] at hbit
    cases hbit
  · rintro rfl
    rfl

/-- A mask fits in some bits exactly if its bands do. -/
theorem lteMask_shiftRight_eq_zero_iff {bands : List Nat} (hpos : ∀ b ∈ bands, 0 < b) (n : Nat) :
    lteMask bands >>> n = 0 ↔ ∀ b ∈ bands, b ≤ n := by
  constructor
  · intro hzero b hb
    by_contra hlarge
    have hbit : (lteMask bands >>> n).testBit (b - 1 - n) = true := by
      rw [Nat.testBit_shiftRight, testBit_lteMask hpos]
      rw [show n + (b - 1 - n) + 1 = b by omega]
      exact decide_eq_true hb
    rw [hzero, Nat.zero_testBit] at hbit
    cases hbit
  · intro hall
    refine Nat.eq_of_testBit_eq fun i => ?_
    rw [Nat.testBit_shiftRight, testBit_lteMask hpos, Nat.zero_testBit]
    apply decide_eq_false
    intro hmem
    have hle := hall _ hmem
    omega

theorem lteMask_lt_iff {bands : List Nat} (hpos : ∀ b ∈ bands, 0 < b) :
    lteMask bands < 1 <<< 128 ↔ ∀ b ∈ bands, b ≤ 128 := by
  rw [← lteMask_shiftRight_eq_zero_iff hpos, Nat.shiftRight_eq_div_pow, Nat.one_shiftLeft]
  exact (Nat.div_eq_zero_iff_lt (Nat.two_pow_pos 128)).symm

/-! ### The agent -/

/-- The bits of the agent's mask are the firmware's bands. -/
theorem getLsbD_allowedMask : ∀ i < 128, allowedMask.getLsbD i = decide (i + 1 ∈ lteBands) := by
  decide +kernel

/-- The bands the firmware has are no larger than a mask. -/
theorem lteBands_le : ∀ b ∈ lteBands, b ≤ 128 := by decide

/-- No bit of a mask is outside the agent's. -/
theorem and_not_allowedMask_eq_zero_iff {bands : List Nat} (hpos : ∀ b ∈ bands, 0 < b)
    (hle : ∀ b ∈ bands, b ≤ 128) :
    BitVec.ofNat 128 (lteMask bands) &&& ~~~allowedMask = 0 ↔ ∀ b ∈ bands, b ∈ lteBands := by
  have hbits : ∀ i < 128, (BitVec.ofNat 128 (lteMask bands)).getLsbD i =
      decide (i + 1 ∈ bands) := by
    intro i hi
    rw [BitVec.getLsbD_ofNat, testBit_lteMask hpos, decide_eq_true hi, Bool.true_and]
  constructor
  · intro hzero b hb
    have hlt : b - 1 < 128 := by
      have h1 := hpos b hb
      have h2 := hle b hb
      omega
    have hpred : b - 1 + 1 = b := Nat.sub_add_cancel (hpos b hb)
    have hbit := congrArg (fun v : BitVec 128 => v.getLsbD (b - 1)) hzero
    simp only [BitVec.getLsbD_and, BitVec.getLsbD_not, hbits _ hlt, getLsbD_allowedMask _ hlt, hpred,
      decide_eq_true hb, decide_eq_true hlt] at hbit
    simpa using hbit
  · intro hall
    refine BitVec.eq_of_getLsbD_eq fun i hi => ?_
    rw [BitVec.getLsbD_and, BitVec.getLsbD_not, hbits i hi, getLsbD_allowedMask i hi,
      decide_eq_true hi, Bool.true_and]
    by_cases hmem : i + 1 ∈ bands
    · simp [hmem, hall _ hmem]
    · simp [hmem]

/-- The agent accepts a mask exactly if it is that of some of the firmware's bands. -/
theorem acceptsLte_iff {bands : List Nat} (hpos : ∀ b ∈ bands, 0 < b) :
    AcceptsLte (bandLockLte bands) ↔ bands ≠ [] ∧ ∀ b ∈ bands, b ∈ lteBands := by
  have hjson : Agent.Cell.LteBandLock.ofJson (bandLockLte bands) =
      some { isLteBand := "1", lteBandMask := toString (lteMask bands), isGwBand := "0"
             gwBandMask := "0" } := rfl
  rw [AcceptsLte, hjson]
  simp only [Option.some.injEq, exists_eq_left']
  rw [Agent.Cell.LteBandLock.validate, if_neg (by simp)]
  simp only [Nat.toString_eq_repr, Nat.toList_repr, parseUnsigned_toDigits]
  by_cases hle : ∀ b ∈ bands, b ≤ 128
  · have hlt := (lteMask_lt_iff hpos).mpr hle
    rw [if_pos hlt]
    have hzero : BitVec.ofNat 128 (lteMask bands) = 0 ↔ bands = [] := by
      have hmod : (BitVec.ofNat 128 (lteMask bands)).toNat = lteMask bands := Nat.mod_eq_of_lt hlt
      rw [← lteMask_eq_zero_iff hpos, ← BitVec.toNat_inj, hmod]
      rfl
    have hallowed := and_not_allowedMask_eq_zero_iff hpos hle
    simp only [hzero, ne_eq, hallowed]
    by_cases hempty : bands = []
    · simp [hempty]
    · by_cases hall : ∀ b ∈ bands, b ∈ lteBands
      · have hgood : ¬(bands = [] ∨ ¬∀ b ∈ bands, b ∈ lteBands) := fun h =>
          h.elim hempty fun h => h hall
        rw [if_neg hgood]
        exact iff_of_true rfl ⟨hempty, hall⟩
      · rw [if_pos (Or.inr hall)]
        simp [hall]
  · rw [if_neg (mt (lteMask_lt_iff hpos).mp hle)]
    constructor
    · intro h
      cases h
    · rintro ⟨-, hall⟩
      exact absurd (fun b hb => lteBands_le b (hall b hb)) hle

/-! ### Lists -/

/-- Numbers between commas are read one by one. -/
theorem splitOn_joinBands {bands : List Nat} (hne : bands ≠ []) :
    (joinBands bands).toList.splitOn ',' = bands.map (Nat.toDigits 10) := by
  rw [joinBands, String.toList_ofList]
  refine List.splitOn_intercalate ',' (fun l hl => ?_) (by simpa using hne)
  obtain ⟨b, -, rfl⟩ := List.mem_map.mp hl
  exact not_mem_toDigits (by decide) b

/-- A list is read if each of its elements is. -/
theorem mapM_read {α : Type} {f : α → Option Nat} {g : Nat → α} {p : Nat → Prop} [DecidablePred p]
    (hread : ∀ n, f (g n) = if p n then some n else none) (bands : List Nat) :
    (bands.map g).mapM f = if ∀ b ∈ bands, p b then some bands else none := by
  induction bands with
  | nil => simp
  | cons b rest ih =>
    rw [List.map_cons, List.mapM_cons, hread, ih]
    by_cases hb : p b
    · by_cases hrest : ∀ b ∈ rest, p b
      · rw [if_pos hb, if_pos hrest, if_pos (List.forall_mem_cons.mpr ⟨hb, hrest⟩)]
        rfl
      · rw [if_neg hrest, if_neg fun h => hrest (List.forall_mem_cons.mp h).2]
        cases if p b then some b else none <;> rfl
    · simp [hb]

theorem not_isWhitespace_of_isAsciiDigit {c : Char} (h : isAsciiDigit c = true) :
    isWhitespace c = false ∧ isSpace c = false := by
  simp only [isAsciiDigit, Bool.and_eq_true, decide_eq_true_eq] at h
  constructor
  · simp [isWhitespace]
    omega
  · simp [isSpace]
    omega

/-- White space is dropped from the ends only. -/
theorem trimText_eq {s : String} (h : ∀ c ∈ s.toList, isSpace c = false) : trimText s = s.toList := by
  have hdrop : ∀ cs : List Char, (∀ c ∈ cs, isSpace c = false) → cs.dropWhile isSpace = cs := by
    intro cs hcs
    cases cs with
    | nil => rfl
    | cons c cs => rw [List.dropWhile_cons, if_neg (by simp [hcs c List.mem_cons_self])]
  rw [trimText, hdrop _ h, hdrop, List.reverse_reverse]
  intro c hc
  exact h c (List.mem_reverse.mp hc)

theorem trimChars_toDigits (n : Nat) : trimChars (Nat.toDigits 10 n) = Nat.toDigits 10 n := by
  have htrim : trim (String.ofList (Nat.toDigits 10 n)) = String.ofList (Nat.toDigits 10 n) :=
    trim_eq_self fun c hc => by
      rw [String.toList_ofList] at hc
      exact (not_isWhitespace_of_isAsciiDigit (isAsciiDigit_of_mem hc)).1
  have hchars := congrArg String.toList htrim
  rwa [trim, String.toList_ofList, String.toList_ofList] at hchars

/-- A list of different numbers is read, unless one of them is too large or they are too many. -/
theorem parseBandList_join {bands : List Nat} (hset : bands.Nodup) (hne : bands ≠ []) :
    parseBandList (joinBands bands) =
      if ∀ b ∈ bands, b < 256 then
        if nrBands.length < bands.length then .error "select at least one band" else .ok bands
      else .error "band list must contain comma-separated numbers" := by
  have hread : ((joinBands bands).toList.splitOn ',').mapM (fun band =>
      parseUnsigned 256 (trimChars band)) = if ∀ b ∈ bands, b < 256 then some bands else none := by
    rw [splitOn_joinBands hne]
    refine mapM_read (fun n => ?_) bands
    rw [trimChars_toDigits, parseUnsigned_toDigits]
  have hsorted : (bands.insertionSort (· ≤ ·)).Nodup :=
    (List.perm_insertionSort _ bands).nodup_iff.mpr hset
  have hunique : ((bands.insertionSort (· ≤ ·)).destutter (· ≠ ·)).length = bands.length := by
    rw [List.destutter_of_isChain _ _ (List.Pairwise.isChain hsorted), List.length_insertionSort]
  rw [parseBandList, hread]
  by_cases hbyte : ∀ b ∈ bands, b < 256
  · rw [if_pos hbyte, if_pos hbyte]
    simp only [hne, false_or, hunique, ne_eq, not_true, if_false]
  · rw [if_neg hbyte, if_neg hbyte]

/-- The firmware's bands are bytes. -/
theorem nrBands_lt : ∀ b ∈ nrBands, b < 256 := by decide

/-- The agent accepts a list exactly if it is one of the firmware's bands. -/
theorem acceptsNr_iff {bands : List Nat} (hset : bands.Nodup) :
    AcceptsNr (bandLockNr (joinBands bands)) ↔ bands ≠ [] ∧ ∀ b ∈ bands, b ∈ nrBands := by
  have hjson : Agent.Cell.NrBandLock.ofJson (bandLockNr (joinBands bands)) =
      some { nr5gType := "SA", nr5gBand := joinBands bands } := rfl
  rw [AcceptsNr, hjson]
  simp only [Option.some.injEq, exists_eq_left']
  rw [Agent.Cell.NrBandLock.validate, if_neg (by simp)]
  by_cases hempty : bands = []
  · subst hempty
    have hrefused : parseBandList (joinBands []) =
        .error "band list must contain comma-separated numbers" := rfl
    simp only [hrefused]
    simp
  · simp only [parseBandList_join hset hempty]
    have hknown : (bands.any fun band => !nrBands.contains band) = true ↔
        ¬∀ b ∈ bands, b ∈ nrBands := by
      simp
    by_cases hall : ∀ b ∈ bands, b ∈ nrBands
    · have hcount : ¬nrBands.length < bands.length :=
        Nat.not_lt.mpr (List.subperm_of_subset hset hall).length_le
      rw [if_pos fun b hb => nrBands_lt b (hall b hb), if_neg hcount]
      simp only []
      rw [if_neg fun h => hknown.mp h hall]
      exact iff_of_true rfl ⟨hempty, hall⟩
    · have hno : ¬(bands ≠ [] ∧ ∀ b ∈ bands, b ∈ nrBands) := fun h => hall h.2
      refine iff_of_false (fun h => ?_) hno
      -- Whatever the list is read as, one of its bands is none of the firmware's.
      split at h
      · cases h
      · rename_i parsed hparsed
        split_ifs at hparsed
        obtain rfl := Except.ok.inj hparsed
        rw [if_pos (hknown.mpr hall)] at h
        cases h

/-! ### Reading back -/

/-- A set of bands in ascending order, as JavaScript numbers. -/
def ascending (bands : List Nat) : List ℚ :=
  numbers (bands.insertionSort (· ≤ ·))

/-- The bands of a mask are those it was made of. -/
theorem bandsOf_lteMask {bands : List Nat} (hset : bands.Nodup) (hpos : ∀ b ∈ bands, 0 < b)
    (hle : ∀ b ∈ bands, b ≤ maxLteBand) :
    bandsOf (lteMask bands) = bands.insertionSort (· ≤ ·) := by
  have hbit : ∀ b, 0 < b → ((lteMask bands >>> (b - 1)) % 2 == 1) = decide (b ∈ bands) := by
    intro b hb
    have htest := testBit_lteMask hpos (b - 1)
    rw [Nat.sub_add_cancel hb, Nat.testBit_eq_decide_div_mod_eq] at htest
    rw [Nat.shiftRight_eq_div_pow, ← htest]
    exact beq_eq_decide _ _
  have hrange : (List.range' 1 maxLteBand).Pairwise (· < ·) := List.pairwise_lt_range'
  have hsorted : (bandsOf (lteMask bands)).Pairwise (· ≤ ·) :=
    (hrange.imp Nat.le_of_lt).filter _
  have hnodup : (bandsOf (lteMask bands)).Nodup := (hrange.imp Nat.ne_of_lt).filter _
  -- Both are sorted, and have the same elements.
  have hperm : (bandsOf (lteMask bands)).Perm (bands.insertionSort (· ≤ ·)) := by
    refine List.Perm.trans ?_ (List.perm_insertionSort _ bands).symm
    refine (List.perm_ext_iff_of_nodup hnodup hset).mpr fun b => ?_
    rw [bandsOf, List.mem_filter, List.mem_range'_1]
    constructor
    · rintro ⟨⟨hb, -⟩, htest⟩
      rw [hbit b hb] at htest
      exact of_decide_eq_true htest
    · intro hb
      refine ⟨⟨hpos b hb, ?_⟩, ?_⟩
      · have hbound := hle b hb
        omega
      · rw [hbit b (hpos b hb)]
        exact decide_eq_true hb
  exact hperm.eq_of_pairwise (fun a b _ _ => Nat.le_antisymm) hsorted
    (List.pairwise_insertionSort _ bands)

/-- What the dashboard makes of a mask, however it is written. -/
theorem parseLteBandLock_of_readMask {bands : List Nat} (hset : bands.Nodup)
    (hpos : ∀ b ∈ bands, 0 < b) {text : List Char} (hne : text ≠ [])
    (hspace : ∀ c ∈ text, isSpace c = false) (hread : readMask text = some (lteMask bands)) :
    parseLteBandLock (some (String.ofList text)) =
      if bands = [] then .automatic
      else if ∀ b ∈ bands, b ≤ maxLteBand then .locked (ascending bands) else .unknown := by
  have htrim : trimText (String.ofList text) = text := by
    rw [trimText_eq (by rwa [String.toList_ofList]), String.toList_ofList]
  have hzero := lteMask_eq_zero_iff hpos
  have hfits := lteMask_shiftRight_eq_zero_iff hpos maxLteBand
  rw [parseLteBandLock]
  simp only [htrim]
  by_cases hplain : text = ['0']
  · -- A zero is the mask of no bands.
    subst hplain
    have hempty : bands = [] := hzero.mp (Option.some.inj (hread.symm.trans rfl))
    rw [if_pos (Or.inr rfl), if_pos hempty]
  · rw [if_neg (by simp [hne, hplain]), hread]
    simp only [hzero]
    by_cases hempty : bands = []
    · rw [if_pos hempty, if_pos hempty]
    · rw [if_neg hempty, if_neg hempty]
      by_cases hle : ∀ b ∈ bands, b ≤ maxLteBand
      · have hbands := bandsOf_lteMask hset hpos hle
        have hsome : bandsOf (lteMask bands) ≠ [] := by
          intro hnone
          rw [hbands] at hnone
          have hlength := congrArg List.length hnone
          rw [List.length_insertionSort] at hlength
          exact hempty (List.length_eq_zero_iff.mp hlength)
        rw [if_neg (by simp [hfits.mpr hle, hsome]), if_pos hle, hbands]
        rfl
      · rw [if_pos (Or.inl (mt hfits.mp hle)), if_neg hle]

/-- The decimal and the hexadecimal text of a mask. -/
def renderings (mask : Nat) : List String :=
  [toString mask, String.ofList ('0' :: 'x' :: Nat.toDigits 16 mask)]

theorem not_isSpace_of_isAsciiHexdigit {c : Char} (h : isAsciiHexdigit c = true) :
    isSpace c = false := by
  simp only [isAsciiHexdigit, isAsciiDigit, Bool.or_eq_true, Bool.and_eq_true,
    decide_eq_true_eq] at h
  simp [isSpace]
  omega

theorem parseLteBandLock_mask {bands : List Nat} (hset : bands.Nodup) (hpos : ∀ b ∈ bands, 0 < b)
    {text : String} (htext : text ∈ renderings (lteMask bands)) :
    parseLteBandLock (some text) =
      if bands = [] then .automatic
      else if ∀ b ∈ bands, b ≤ maxLteBand then .locked (ascending bands) else .unknown := by
  rw [renderings, List.mem_cons, List.mem_singleton] at htext
  rcases htext with rfl | rfl
  · rw [Nat.toString_eq_ofList_toDigits]
    refine parseLteBandLock_of_readMask hset hpos Nat.toDigits_ne_nil ?_ (readMask_decimal _)
    intro c hc
    exact (not_isWhitespace_of_isAsciiDigit (isAsciiDigit_of_mem hc)).2
  · refine parseLteBandLock_of_readMask hset hpos (by simp) ?_ (readMask_hexadecimal _)
    intro c hc
    rcases List.mem_cons.mp hc with rfl | hc
    · rfl
    · rcases List.mem_cons.mp hc with rfl | hc
      · rfl
      · have hall := (hexNumberOf_toDigits (lteMask bands)).2
        exact not_isSpace_of_isAsciiHexdigit (List.all_eq_true.mp hall c hc)

/-- Different positive integers are kept as they are. -/
theorem foldl_addBand {bands : List Nat} (hset : bands.Nodup) (hpos : ∀ b ∈ bands, 0 < b)
    (out : List Nat) (hnew : ∀ b ∈ bands, b ∉ out) :
    (numbers bands).foldl addBand (numbers out) = numbers (out ++ bands) := by
  induction bands generalizing out with
  | nil => simp [numbers]
  | cons b rest ih =>
    obtain ⟨hb, hrest⟩ := List.nodup_cons.mp hset
    have hmem : (b : ℚ) ∉ numbers out := by
      intro h
      obtain ⟨b', hb', heq⟩ := List.mem_map.mp h
      exact hnew b List.mem_cons_self (Nat.cast_inj.mp heq ▸ hb')
    have hkept : addBand (numbers out) (b : ℚ) = numbers (out ++ [b]) := by
      have hint : (b : ℚ).isInt = true := by simp [Rat.isInt]
      have hzero : (0 : ℚ) < (b : ℚ) := Nat.cast_pos.mpr (hpos b List.mem_cons_self)
      rw [addBand, if_pos (by simp [hint, hzero, hmem])]
      simp [numbers]
    have hstep := ih hrest (fun b hb => hpos b (List.mem_cons_of_mem _ hb)) (out ++ [b]) (by
      intro b' hb' hout
      rcases List.mem_append.mp hout with hout | hout
      · exact hnew b' (List.mem_cons_of_mem _ hb') hout
      · obtain rfl := List.mem_singleton.mp hout
        exact hb hb')
    rw [List.append_assoc, ← hkept] at hstep
    exact hstep

theorem normaliseBands_numbers {bands : List Nat} (hset : bands.Nodup)
    (hpos : ∀ b ∈ bands, 0 < b) : normaliseBands (some (numbers bands)) = ascending bands := by
  have hfold := foldl_addBand hset hpos [] (by simp)
  have hfold' : (numbers bands).foldl addBand [] = numbers bands := hfold
  rw [normaliseBands, hfold', ascending]
  exact (List.map_insertionSort (· ≤ ·) (· ≤ ·) _ _ fun a _ b _ => Nat.cast_le.symm).symm

/-- A joined list has digits and commas only. -/
theorem mem_joinBands {bands : List Nat} {c : Char} (h : c ∈ (joinBands bands).toList) :
    isAsciiDigit c = true ∨ c = ',' := by
  rw [joinBands, String.toList_ofList] at h
  induction bands with
  | nil => cases h
  | cons b rest ih =>
    cases rest with
    | nil =>
      rw [List.map_singleton, List.intercalate_singleton] at h
      exact Or.inl (isAsciiDigit_of_mem h)
    | cons b' rest =>
      rw [List.map_cons, List.map_cons, List.intercalate_cons_cons] at h
      rcases List.mem_append.mp h with h | h
      · rcases List.mem_append.mp h with h | h
        · exact Or.inl (isAsciiDigit_of_mem h)
        · exact Or.inr (List.mem_singleton.mp h)
      · exact ih h

theorem parseNrBandLock_join {bands : List Nat} (hset : bands.Nodup) (hpos : ∀ b ∈ bands, 0 < b)
    (hne : bands ≠ []) (hle : ∀ b ∈ bands, b ≤ maxNrBand) :
    parseNrBandLock (some (joinBands bands)) = .locked (ascending bands) := by
  have hchars : ∀ c ∈ (joinBands bands).toList, isSpace c = false := by
    intro c hc
    rcases mem_joinBands hc with hdigit | rfl
    · exact (not_isWhitespace_of_isAsciiDigit hdigit).2
    · rfl
  have hsplit := splitOn_joinBands hne
  -- The text is no zero, because a band is none.
  have hplain : ¬((joinBands bands).toList = [] ∨ (joinBands bands).toList = ['0']) := by
    have hzero : ∀ digits : List Char, Nat.ofDigitChars 10 digits 0 = 0 →
        bands.map (Nat.toDigits 10) ≠ [digits] := by
      intro digits hvalue hsingle
      obtain ⟨b, rest, rfl⟩ := List.exists_cons_of_ne_nil hne
      obtain ⟨hb, -⟩ := List.cons.inj hsingle
      have hnumber := Nat.ofDigitChars_ten_toDigits (n := b)
      rw [hb, hvalue] at hnumber
      exact absurd hnumber (Nat.ne_of_lt (hpos b List.mem_cons_self))
    rintro (h | h)
    · rw [h] at hsplit
      exact hzero [] rfl hsplit.symm
    · rw [h] at hsplit
      exact hzero ['0'] rfl hsplit.symm
  have hband : ∀ n, readBand (Nat.toDigits 10 n) =
      if 1 ≤ n ∧ n ≤ maxNrBand then some n else none := by
    intro n
    have htrim : trimText (String.ofList (Nat.toDigits 10 n)) = Nat.toDigits 10 n := by
      rw [trimText_eq, String.toList_ofList]
      intro c hc
      rw [String.toList_ofList] at hc
      exact (not_isWhitespace_of_isAsciiDigit (isAsciiDigit_of_mem hc)).2
    rw [readBand, htrim, numberOf_toDigits]
    simp only [ne_eq, Nat.toDigits_ne_nil, not_false_eq_true, all_toDigits, true_and]
  rw [parseNrBandLock]
  simp only [trimText_eq hchars]
  rw [if_neg hplain, hsplit, mapM_read hband, if_pos fun b hb => ⟨hpos b hb, hle b hb⟩]
  simp only [normaliseBands_numbers hset hpos]

/-- **The three encodings of a set of bands agree.** For different positive bands in any order: the
agent accepts the mask, and the list, exactly if the bands are some of the firmware's; the mask is
read back as the bands in ascending order if they fit, as automatic if there are none, and as
unknown otherwise; and the list is read back as the bands in ascending order. -/
theorem band_encodings_agree (bands : List Nat) (hset : bands.Nodup)
    (hpos : ∀ b ∈ bands, 0 < b) :
    (AcceptsLte (bandLockLte bands) ↔ bands ≠ [] ∧ ∀ b ∈ bands, b ∈ lteBands) ∧
    (AcceptsNr (bandLockNr (joinBands bands)) ↔ bands ≠ [] ∧ ∀ b ∈ bands, b ∈ nrBands) ∧
    (∀ text ∈ renderings (lteMask bands), parseLteBandLock (some text) =
      if bands = [] then .automatic
      else if ∀ b ∈ bands, b ≤ 128 then .locked (ascending bands) else .unknown) ∧
    (bands ≠ [] → (∀ b ∈ bands, b ≤ 1024) →
      parseNrBandLock (some (joinBands bands)) = .locked (ascending bands)) := by
  refine ⟨acceptsLte_iff hpos, acceptsNr_iff hset, ?_, ?_⟩
  · intro text htext
    exact parseLteBandLock_mask hset hpos htext
  · intro hne hle
    exact parseNrBandLock_join hset hpos hne hle

/-- Two bands, in descending order. -/
theorem band_encodings_agree_pair : AcceptsNr (bandLockNr "78,1") ∧
    ¬AcceptsLte (bandLockLte [78, 1]) ∧ parseNrBandLock (some "78,1") = .locked [1, 78] := by
  have hpos : ∀ b ∈ [78, 1], 0 < b := by decide
  obtain ⟨hlte, hnr, -, hread⟩ := band_encodings_agree [78, 1] (by decide) hpos
  have hjoin : joinBands [78, 1] = "78,1" := by decide
  have hsorted : ascending [78, 1] = [1, 78] := by decide
  rw [hjoin] at hnr hread
  refine ⟨hnr.mpr ⟨by decide, by decide⟩, fun h => ?_, ?_⟩
  · exact absurd (hlte.mp h).2 (by decide)
  · rw [hread (by decide) (by decide), hsorted]

end OpenUI.WebApp
