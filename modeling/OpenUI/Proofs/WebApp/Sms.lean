import OpenUI.Agent.Sms
import OpenUI.WebApp.Sms

/-!
# `OpenUI.Proofs.WebApp.Sms`: texts and numbers of messages

The agent codes a character by its scalar value, in four hexadecimal digits or more; the dashboard
reads four digits as one UTF-16 unit.

* `hexCode_eq`, `decodeUcs2Hex_digits`: both sides on the values of the digits.
* `quadValues_eq_iff`: the units that are read are those of the text exactly if every character is
  of the basic plane. Two characters beyond it make too few units; after a single one every unit is
  misaligned, and no text is equal to itself shifted by a digit.
* `text_survives_iff`, `number_kept_iff`: what follows for texts and for numbers.
* `mapSmsListResult_spec`: the list keeps the order of the entries, and counts what it drops.
-/

set_option autoImplicit false

namespace OpenUI.WebApp.Js

open OpenUI.Text OpenUI.Agent.Sms

/-! ### Digits -/

/-- The number of some digits. -/
def valueOf (ds : List Nat) : Nat := ds.foldl (fun n d => 16 * n + d) 0

/-- The code unit of a digit. -/
def upperUnit (d : Nat) : UInt16 := UInt16.ofNat (Nat.digitChar d).toUpper.toNat

/-- A digit is read as itself, and is no sign, no prefix and no space. -/
theorem upperUnit_spec : ∀ d < 16, hexUnit (upperUnit d) = some d ∧ upperUnit d ≠ 0x2B ∧
    upperUnit d ≠ 0x2D ∧ upperUnit d ≠ 0x78 ∧ upperUnit d ≠ 0x58 ∧
    isSpaceUnit (upperUnit d) = false ∧
    unitsOfCode (Nat.digitChar d).toUpper.toNat = [upperUnit d] := by
  decide

/-- Some digits are read as their number. -/
theorem parseIntHex_digits {ds : List Nat} (hne : ds ≠ []) (hds : ∀ d ∈ ds, d < 16) :
    parseIntHex (ds.map upperUnit) = some (valueOf ds : Int) := by
  obtain ⟨d, rest, rfl⟩ := List.exists_cons_of_ne_nil hne
  obtain ⟨-, hplus, hminus, -, -, hspace, -⟩ := upperUnit_spec d (hds d List.mem_cons_self)
  have hdrop : ((d :: rest).map upperUnit).dropWhile isSpaceUnit = (d :: rest).map upperUnit := by
    rw [List.map_cons, List.dropWhile_cons, if_neg (by simp [hspace])]
  have hprefix : ¬((rest.map upperUnit).head? = some 0x78 ∨
      (rest.map upperUnit).head? = some 0x58) := by
    cases rest with
    | nil => simp
    | cons e rest =>
      obtain ⟨-, -, -, hx, hX, -, -⟩ := upperUnit_spec e (hds e (by simp))
      simp [hx, hX]
  have hmap : ((d :: rest).map upperUnit).map hexUnit = (d :: rest).map some := by
    rw [List.map_map]
    exact List.map_congr_left fun e he => (upperUnit_spec e (hds e he)).1
  have htake : ((d :: rest).map some).takeWhile (·.isSome) = (d :: rest).map some :=
    List.takeWhile_eq_self_iff.mpr (by simp)
  have hvalues : ((d :: rest).map some).filterMap id = d :: rest := by
    rw [List.filterMap_map]
    exact List.filterMap_some
  have hhead : ((d :: rest).map upperUnit).head? = some (upperUnit d) := rfl
  have htail : ((d :: rest).map upperUnit).tail = rest.map upperUnit := rfl
  have hsigned : ¬(some (upperUnit d) = some 0x2B ∨ some (upperUnit d) = some 0x2D) := by
    simp [hplus, hminus]
  unfold parseIntHex
  simp only [hdrop, hhead, if_neg hsigned, htail, if_neg fun h => hprefix (And.right h), hmap,
    htake, hvalues]
  rw [if_neg (by simp), if_neg (by simp [hminus])]
  rfl

theorem quads_map {α β : Type} (f : α → β) (l : List α) :
    quads (l.map f) = (quads l).map (List.map f) := by
  fun_induction quads l with
  | case1 a b c d rest ih => simpa [quads] using ih
  | case2 => rfl
  | case3 rest hlong hne =>
    obtain _ | ⟨a, _ | ⟨b, _ | ⟨c, _ | ⟨d, rest⟩⟩⟩⟩ := rest
    · exact absurd rfl hne
    · rfl
    · rfl
    · rfl
    · exact absurd rfl (hlong a b c d rest)

/-- The numbers of some digits, four by four. -/
def quadValues (ds : List Nat) : List Nat := (quads ds).map valueOf

@[simp]
theorem quadValues_nil : quadValues [] = [] := rfl

@[simp]
theorem quadValues_single (d : Nat) : quadValues [d] = [d] := by
  simp [quadValues, quads, valueOf]

@[simp]
theorem quadValues_cons (a b c d : Nat) (rest : List Nat) :
    quadValues (a :: b :: c :: d :: rest) =
      (16 * (16 * (16 * a + b) + c) + d) :: quadValues rest := by
  simp [quadValues, quads, valueOf]

theorem mem_quads {α : Type} {l q : List α} (h : q ∈ quads l) :
    q ≠ [] ∧ q.length ≤ 4 ∧ ∀ a ∈ q, a ∈ l := by
  fun_induction quads l with
  | case1 a b c d rest ih =>
    rcases List.mem_cons.mp h with rfl | h
    · simp
    · obtain ⟨hne, hlength, hall⟩ := ih h
      refine ⟨hne, hlength, fun e he => ?_⟩
      have hrest := hall e he
      simp [hrest]
  | case2 => cases h
  | case3 rest hlong hne =>
    obtain rfl := List.mem_singleton.mp h
    refine ⟨hne, ?_, fun a ha => ha⟩
    obtain _ | ⟨a, _ | ⟨b, _ | ⟨c, _ | ⟨d, rest⟩⟩⟩⟩ := q
    · simp
    · simp
    · simp
    · simp
    · exact absurd rfl (hlong a b c d rest)

theorem length_quadValues (ds : List Nat) : (quadValues ds).length = (ds.length + 3) / 4 := by
  rw [quadValues, List.length_map]
  fun_induction quads ds with
  | case1 a b c d rest ih =>
    rw [List.length_cons, ih]
    simp only [List.length_cons]
    omega
  | case2 => rfl
  | case3 rest hlong hne =>
    obtain _ | ⟨a, _ | ⟨b, _ | ⟨c, _ | ⟨d, rest⟩⟩⟩⟩ := rest
    · exact absurd rfl hne
    · simp
    · simp
    · simp
    · exact absurd rfl (hlong a b c d rest)

/-- Four digits are at most two bytes. -/
theorem valueOf_lt {q : List Nat} (hlength : q.length ≤ 4) (hq : ∀ d ∈ q, d < 16) :
    valueOf q < 0x10000 := by
  obtain _ | ⟨a, _ | ⟨b, _ | ⟨c, _ | ⟨d, _ | ⟨e, rest⟩⟩⟩⟩⟩ := q
  · decide
  · have ha := hq a (by simp)
    simp [valueOf]
    omega
  · have ha := hq a (by simp)
    have hb := hq b (by simp)
    simp [valueOf]
    omega
  · have ha := hq a (by simp)
    have hb := hq b (by simp)
    have hc := hq c (by simp)
    simp [valueOf]
    omega
  · have ha := hq a (by simp)
    have hb := hq b (by simp)
    have hc := hq c (by simp)
    have hd := hq d (by simp)
    simp [valueOf]
    omega
  · simp only [List.length_cons] at hlength
    omega

/-- Every four digits are decoded to one unit. -/
theorem decodeUcs2Hex_digits {ds : List Nat} (hds : ∀ d ∈ ds, d < 16) :
    decodeUcs2Hex (ds.map upperUnit) = (quadValues ds).map UInt16.ofNat := by
  have hparts : ∀ qs : List (List Nat), (∀ q ∈ qs, q ∈ quads ds) →
      (qs.map (List.map upperUnit)).mapM (fun quad => (parseIntHex quad).bind fromCodePoint) =
        some (qs.map fun q => [UInt16.ofNat (valueOf q)]) := by
    intro qs hqs
    induction qs with
    | nil => rfl
    | cons q qs ih =>
      obtain ⟨hne, hlength, hall⟩ := mem_quads (hqs q List.mem_cons_self)
      have hdigits : ∀ d ∈ q, d < 16 := fun d hd => hds d (hall d hd)
      have hlt := valueOf_lt hlength hdigits
      have hcode : fromCodePoint (valueOf q : Int) = some [UInt16.ofNat (valueOf q)] := by
        rw [fromCodePoint, if_pos (by omega), Int.toNat_natCast, unitsOfCode, if_pos hlt]
      rw [List.map_cons, List.mapM_cons, parseIntHex_digits hne hdigits, Option.bind_some, hcode,
        ih fun q hq => hqs q (List.mem_cons_of_mem _ hq)]
      rfl
  rw [decodeUcs2Hex, quads_map, hparts _ fun q hq => hq, quadValues]
  simp only [List.map_map, ← List.flatMap_def]
  exact List.map_eq_flatMap.symm

/-! ### Characters -/

/-- The digits of a character. -/
def codeDigits (n : Nat) : List Nat :=
  if n < 0x10000 then [n / 0x1000, n / 0x100 % 16, n / 0x10 % 16, n % 16]
  else if n < 0x100000 then
    [n / 0x10000, n / 0x1000 % 16, n / 0x100 % 16, n / 0x10 % 16, n % 16]
  else [n / 0x100000, n / 0x10000 % 16, n / 0x1000 % 16, n / 0x100 % 16, n / 0x10 % 16, n % 16]

/-- The units of a character. -/
def codeUnits (n : Nat) : List Nat :=
  if n < 0x10000 then [n]
  else [0xD800 + (n - 0x10000) / 0x400, 0xDC00 + (n - 0x10000) % 0x400]

theorem unitsOfCode_eq (n : Nat) : unitsOfCode n = (codeUnits n).map UInt16.ofNat := by
  unfold unitsOfCode codeUnits
  split <;> rfl

theorem codeDigits_lt {n : Nat} (h : n < 0x110000) : ∀ d ∈ codeDigits n, d < 16 := by
  unfold codeDigits
  split_ifs
  · simp only [List.mem_cons, List.not_mem_nil, or_false]
    omega
  · simp only [List.mem_cons, List.not_mem_nil, or_false]
    omega
  · simp only [List.mem_cons, List.not_mem_nil, or_false]
    omega

theorem codeUnits_lt {n : Nat} (h : n < 0x110000) : ∀ u ∈ codeUnits n, u < 0x10000 := by
  unfold codeUnits
  split
  · simp only [List.mem_singleton]
    omega
  · simp only [List.mem_cons, List.not_mem_nil, or_false]
    omega

/-- The last `k` hexadecimal digits of a number. -/
def lastDigits : Nat → Nat → List Nat
  | 0, _ => []
  | k + 1, n => lastDigits k (n / 16) ++ [n % 16]

theorem lastDigits_zero (k : Nat) : lastDigits k 0 = List.replicate k 0 := by
  induction k with
  | zero => rfl
  | succ k ih => rw [lastDigits, Nat.zero_div, ih, List.replicate_succ', Nat.zero_mod]

/-- A number with zeros in front. -/
theorem padded_toDigits (k : Nat) {n : Nat} (h : n < Nat.pow 16 (k + 1)) :
    List.replicate (k + 1 - (Nat.toDigits 16 n).length) '0' ++ Nat.toDigits 16 n =
      (lastDigits (k + 1) n).map Nat.digitChar := by
  induction k generalizing n with
  | zero =>
    have hlt : n < 16 := h
    rw [Nat.toDigits_of_lt_base hlt]
    simp [lastDigits, Nat.mod_eq_of_lt hlt]
  | succ k ih =>
    rw [lastDigits, List.map_append, List.map_singleton]
    by_cases hlt : n < 16
    · rw [Nat.toDigits_of_lt_base hlt, Nat.div_eq_of_lt hlt, lastDigits_zero, Nat.mod_eq_of_lt hlt]
      simp
    · have hdiv : n / 16 < Nat.pow 16 (k + 1) := Nat.div_lt_of_lt_mul (by rw [Nat.mul_comm]; exact h)
      rw [Nat.toDigits_of_base_le (by decide) (Nat.not_lt.mp hlt), List.length_append,
        List.length_singleton, Nat.add_sub_add_right, ← List.append_assoc, ih hdiv]

/-- The agent writes these digits, in upper case. -/
theorem hexCode_eq {n : Nat} (h : n < 0x110000) :
    hexCode n = (codeDigits n).map fun d => (Nat.digitChar d).toUpper := by
  have hupper : ∀ k ds, (List.replicate k '0' ++ ds).map Char.toUpper =
      List.replicate k '0' ++ ds.map Char.toUpper := by
    intro k ds
    rw [List.map_append, List.map_replicate]
    rfl
  have hcode : ∀ k, (Nat.toDigits 16 n).length ≤ k + 1 → 3 ≤ k →
      (k = 3 ∨ k < (Nat.toDigits 16 n).length) → n < Nat.pow 16 (k + 1) →
      hexCode n = ((lastDigits (k + 1) n).map Nat.digitChar).map Char.toUpper := by
    intro k hle hk hfull hlt
    have hpad : 4 - (Nat.toDigits 16 n).length = k + 1 - (Nat.toDigits 16 n).length := by omega
    rw [← padded_toDigits k hlt, hupper, hexCode]
    simp only [List.length_map, hpad]
  have hlength : ∀ k, 0 < k → ((Nat.toDigits 16 n).length ≤ k ↔ n < Nat.pow 16 k) := fun k hk =>
    Nat.length_toDigits_le_iff (by decide) hk
  have h4 := hlength 4 (by decide)
  have h5 := hlength 5 (by decide)
  have h6 := hlength 6 (by decide)
  have hpow4 : Nat.pow 16 4 = 0x10000 := rfl
  have hpow5 : Nat.pow 16 5 = 0x100000 := rfl
  have hpow6 : Nat.pow 16 6 = 0x1000000 := rfl
  rw [hpow4] at h4
  rw [hpow5] at h5
  rw [hpow6] at h6
  unfold codeDigits
  split_ifs with hplane hshort
  · rw [hcode 3 (h4.mpr hplane) (by decide) (Or.inl rfl) hplane]
    have htop : n / (16 * 16 * 16) % 16 = n / 0x1000 := by omega
    simp only [lastDigits, List.nil_append, List.cons_append, List.map_cons, List.map_nil,
      Nat.div_div_eq_div_mul, htop]
  · rw [hcode 4 (h5.mpr hshort) (by decide) (Or.inr (by omega)) hshort]
    have htop : n / (16 * 16 * 16 * 16) % 16 = n / 0x10000 := by omega
    simp only [lastDigits, List.nil_append, List.cons_append, List.map_cons, List.map_nil,
      Nat.div_div_eq_div_mul, htop]
  · have hlong : n < 0x1000000 := by omega
    rw [hcode 5 (h6.mpr hlong) (by decide) (Or.inr (by omega)) hlong]
    have htop : n / (16 * 16 * 16 * 16 * 16) % 16 = n / 0x100000 := by omega
    simp only [lastDigits, List.nil_append, List.cons_append, List.map_cons, List.map_nil,
      Nat.div_div_eq_div_mul, htop]

/-! ### Units -/

/-- Four digits of a character of the basic plane are the character. -/
theorem quadValues_code {n : Nat} (h : n < 0x10000) (ds : List Nat) :
    quadValues (codeDigits n ++ ds) = n :: quadValues ds := by
  rw [codeDigits, if_pos h]
  simp only [List.cons_append, List.nil_append, quadValues_cons]
  congr 1
  omega

theorem quadValues_codes {codes : List Nat} (h : ∀ n ∈ codes, n < 0x10000) (ds : List Nat) :
    quadValues (codes.flatMap codeDigits ++ ds) = codes ++ quadValues ds := by
  induction codes with
  | nil => rfl
  | cons n codes ih =>
    rw [List.flatMap_cons, List.append_assoc, quadValues_code (h n List.mem_cons_self),
      ih fun m hm => h m (List.mem_cons_of_mem _ hm)]
    rfl

theorem codeUnits_codes {codes : List Nat} (h : ∀ n ∈ codes, n < 0x10000) :
    codes.flatMap codeUnits = codes := by
  induction codes with
  | nil => rfl
  | cons n codes ih =>
    rw [List.flatMap_cons, ih fun m hm => h m (List.mem_cons_of_mem _ hm), codeUnits,
      if_pos (h n List.mem_cons_self)]
    rfl

/-- A digit in front shifts every character by one. -/
theorem quadValues_shifted (d : Nat) {n : Nat} (h : n < 0x10000) (ds : List Nat) :
    quadValues (d :: (codeDigits n ++ ds)) = (0x1000 * d + n / 16) :: quadValues (n % 16 :: ds) := by
  rw [codeDigits, if_pos h]
  simp only [List.cons_append, List.nil_append, quadValues_cons]
  congr 1
  omega

/-- No text without zeros is itself after a shift by a digit, unless it is a single digit. -/
theorem lt_of_quadValues_shifted {n : Nat} {codes : List Nat} (hn : n ≠ 0)
    (hcodes : ∀ m ∈ codes, m ≠ 0 ∧ m < 0x10000)
    (h : quadValues (n % 16 :: codes.flatMap codeDigits) = n :: codes) : n < 16 := by
  induction codes generalizing n with
  | nil =>
    rw [List.flatMap_nil, quadValues_single] at h
    have heq := (List.cons.inj h).1
    omega
  | cons m codes ih =>
    obtain ⟨hm, hlt⟩ := hcodes m List.mem_cons_self
    rw [List.flatMap_cons, quadValues_shifted _ hlt] at h
    obtain ⟨hhead, htail⟩ := List.cons.inj h
    -- The next character is a single digit, so this one ends in three zeros, and is zero.
    have hnext := ih hm (fun k hk => hcodes k (List.mem_cons_of_mem _ hk)) htail
    omega

/-- After a character beyond the basic plane, the units do not match any more. -/
theorem quadValues_astral_ne {v : Nat} {codes : List Nat} (hv : 0x10000 ≤ v) (hv' : v < 0x110000)
    (hcodes : ∀ m ∈ codes, m ≠ 0 ∧ m < 0x10000) :
    quadValues (codeDigits v ++ codes.flatMap codeDigits) ≠ codeUnits v ++ codes := by
  intro h
  rw [codeUnits, if_neg (by omega)] at h
  by_cases hshort : v < 0x100000
  · rw [codeDigits, if_neg (by omega), if_pos hshort] at h
    simp only [List.cons_append, List.nil_append, quadValues_cons] at h
    obtain ⟨-, htail⟩ := List.cons.inj h
    cases codes with
    | nil =>
      rw [List.flatMap_nil, quadValues_single] at htail
      have heq := (List.cons.inj htail).1
      omega
    | cons m codes =>
      obtain ⟨hm, hlt⟩ := hcodes m List.mem_cons_self
      rw [List.flatMap_cons, quadValues_shifted _ hlt] at htail
      obtain ⟨hlow, hrest⟩ := List.cons.inj htail
      have hnext := lt_of_quadValues_shifted hm
        (fun k hk => hcodes k (List.mem_cons_of_mem _ hk)) hrest
      omega
  · rw [codeDigits, if_neg (by omega), if_neg hshort] at h
    simp only [List.cons_append, List.nil_append, quadValues_cons] at h
    obtain ⟨hhead, -⟩ := List.cons.inj h
    omega

/-- The characters beyond the basic plane. -/
def astral (codes : List Nat) : Nat := codes.countP (0x10000 ≤ ·)

/-- How many digits and how many units a text has. -/
theorem length_codes {codes : List Nat} (h : ∀ n ∈ codes, n < 0x110000) :
    (codes.flatMap codeUnits).length = codes.length + astral codes ∧
      4 * codes.length + astral codes ≤ (codes.flatMap codeDigits).length ∧
      (codes.flatMap codeDigits).length ≤ 4 * codes.length + 2 * astral codes := by
  induction codes with
  | nil => simp [astral]
  | cons n codes ih =>
    obtain ⟨hunits, hlow, hhigh⟩ := ih fun m hm => h m (List.mem_cons_of_mem _ hm)
    have hone : (codeUnits n).length = 1 + (if 0x10000 ≤ n then 1 else 0) ∧
        4 + (if 0x10000 ≤ n then 1 else 0) ≤ (codeDigits n).length ∧
        (codeDigits n).length ≤ 4 + 2 * (if 0x10000 ≤ n then 1 else 0) := by
      unfold codeUnits codeDigits
      split_ifs <;> simp <;> omega
    obtain ⟨hone, hone', hone''⟩ := hone
    have hcount : astral (n :: codes) = astral codes + (if 0x10000 ≤ n then 1 else 0) := by
      rw [astral, astral, List.countP_cons]
      simp
    rw [List.flatMap_cons, List.flatMap_cons, List.length_append, List.length_append,
      List.length_cons, hcount]
    omega

/-- **What is read is the text exactly if every character is of the basic plane.** -/
theorem quadValues_eq_iff {codes : List Nat} (h : ∀ n ∈ codes, n ≠ 0 ∧ n < 0x110000) :
    quadValues (codes.flatMap codeDigits) = codes.flatMap codeUnits ↔
      ∀ n ∈ codes, n < 0x10000 := by
  constructor
  · intro heq
    -- One character beyond the basic plane, at most, leaves as many units.
    obtain ⟨hunits, -, hhigh⟩ := length_codes fun n hn => (h n hn).2
    have hlength := congrArg List.length heq
    rw [length_quadValues, hunits] at hlength
    by_contra hnot
    obtain ⟨v, hv, hlarge⟩ : ∃ v ∈ codes, 0x10000 ≤ v := by simpa using hnot
    obtain ⟨before, after, rfl⟩ := List.append_of_mem hv
    have hcount : astral before = 0 ∧ astral after = 0 := by
      have hsplit : astral (before ++ v :: after) = astral before + (astral after + 1) := by
        rw [astral, List.countP_append, List.countP_cons_of_pos (by simpa using hlarge)]
        rfl
      omega
    have hplane : ∀ part, astral part = 0 → ∀ n ∈ part, n < 0x10000 := by
      intro part hpart n hn
      have hsmall := List.countP_eq_zero.mp hpart n hn
      simpa using hsmall
    rw [List.flatMap_append, List.flatMap_append, quadValues_codes (hplane _ hcount.1),
      codeUnits_codes (hplane _ hcount.1), List.append_cancel_left_eq, List.flatMap_cons,
      List.flatMap_cons, codeUnits_codes (hplane _ hcount.2)] at heq
    refine quadValues_astral_ne hlarge (h v hv).2 (fun m hm => ⟨?_, hplane _ hcount.2 m hm⟩) heq
    exact (h m (List.mem_append_right _ (List.mem_cons_of_mem _ hm))).1
  · intro hplane
    have hread := quadValues_codes hplane []
    rw [List.append_nil] at hread
    rw [hread, codeUnits_codes hplane, quadValues_nil, List.append_nil]

/-! ### Texts -/

/-- The scalar values of a text. -/
def codesOf (s : String) : List Nat := s.toList.map Char.toNat

theorem codesOf_lt (s : String) : ∀ n ∈ codesOf s, n < 0x110000 := by
  intro n hn
  obtain ⟨c, -, rfl⟩ := List.mem_map.mp hn
  rcases c.valid with h | h
  · exact Nat.lt_trans h (by decide)
  · exact h.2

theorem digits_lt (s : String) : ∀ d ∈ (codesOf s).flatMap codeDigits, d < 16 := by
  intro d hd
  obtain ⟨n, hn, hd⟩ := List.mem_flatMap.mp hd
  exact codeDigits_lt (codesOf_lt s n hn) d hd

theorem units_eq (s : String) : units s = ((codesOf s).flatMap codeUnits).map UInt16.ofNat := by
  rw [units, codesOf, List.flatMap_map, List.map_flatMap]
  exact List.flatMap_congr fun c _ => unitsOfCode_eq c.toNat

/-- What the agent passes on, as the dashboard's string. -/
theorem units_encodeMessage (message : String) :
    units (encodeMessage message) = ((codesOf message).flatMap codeDigits).map upperUnit := by
  have hchars : message.toList.flatMap (fun c => hexCode c.toNat) =
      ((codesOf message).flatMap codeDigits).map fun d => (Nat.digitChar d).toUpper := by
    rw [codesOf, List.flatMap_map, List.map_flatMap]
    refine List.flatMap_congr fun c hc => hexCode_eq ?_
    exact codesOf_lt message _ (List.mem_map_of_mem hc)
  rw [units, encodeMessage, String.toList_ofList, hchars, List.flatMap_map, List.map_eq_flatMap]
  refine List.flatMap_congr fun d hd => ?_
  exact (upperUnit_spec d (digits_lt message d hd)).2.2.2.2.2.2

/-- Units that fit are told apart by their values. -/
theorem map_ofNat_inj {l l' : List Nat} (h : ∀ n ∈ l, n < 0x10000) (h' : ∀ n ∈ l', n < 0x10000) :
    l.map UInt16.ofNat = l'.map UInt16.ofNat ↔ l = l' := by
  have hback : ∀ l : List Nat, (∀ n ∈ l, n < 0x10000) →
      (l.map UInt16.ofNat).map UInt16.toNat = l := by
    intro l hl
    rw [List.map_map]
    refine (List.map_congr_left fun n hn => ?_).trans (List.map_id l)
    exact UInt16.toNat_ofNat_of_lt (hl n hn)
  constructor
  · intro heq
    rw [← hback l h, heq, hback l' h']
  · rintro rfl
    rfl

theorem decode_encodeMessage_iff {message : String} (hnul : ∀ c ∈ message.toList, c.toNat ≠ 0) :
    decodeUcs2Hex (units (encodeMessage message)) = units message ↔
      ∀ c ∈ message.toList, c.toNat < 0x10000 := by
  have hdigits := digits_lt message
  have hread : ∀ n ∈ quadValues ((codesOf message).flatMap codeDigits), n < 0x10000 := by
    intro n hn
    obtain ⟨q, hq, rfl⟩ := List.mem_map.mp hn
    obtain ⟨-, hlength, hall⟩ := mem_quads hq
    exact valueOf_lt hlength fun d hd => hdigits d (hall d hd)
  have hunits : ∀ n ∈ (codesOf message).flatMap codeUnits, n < 0x10000 := by
    intro n hn
    obtain ⟨code, hcode, hn⟩ := List.mem_flatMap.mp hn
    exact codeUnits_lt (codesOf_lt message code hcode) n hn
  have hcodes : ∀ n ∈ codesOf message, n ≠ 0 ∧ n < 0x110000 := by
    intro n hn
    refine ⟨?_, codesOf_lt message n hn⟩
    obtain ⟨c, hc, rfl⟩ := List.mem_map.mp hn
    exact hnul c hc
  rw [units_encodeMessage, decodeUcs2Hex_digits hdigits, units_eq, map_ofNat_inj hread hunits,
    quadValues_eq_iff hcodes]
  simp [codesOf]

/-- Digits are taken for coded text exactly if there are some, by fours. -/
theorem isUcs2Hex_digits {ds : List Nat} (hds : ∀ d ∈ ds, d < 16) :
    isUcs2Hex (ds.map upperUnit) = true ↔ ds ≠ [] ∧ ds.length % 4 = 0 := by
  have hall : ((ds.map upperUnit).all fun u => (hexUnit u).isSome) = true := by
    rw [List.all_eq_true]
    intro u hu
    obtain ⟨d, hd, rfl⟩ := List.mem_map.mp hu
    rw [(upperUnit_spec d (hds d hd)).1]
    rfl
  simp [isUcs2Hex, hall, List.length_pos_iff]

/-- A text is shown as it was exactly if every character is of the basic plane. -/
theorem shownText_encodeMessage_iff {message : String} (hne : message.toList ≠ [])
    (hnul : ∀ c ∈ message.toList, c.toNat ≠ 0) :
    shownText (units (encodeMessage message)) = units message ↔
      ∀ c ∈ message.toList, c.toNat < 0x10000 := by
  obtain ⟨hunits, hlow, hhigh⟩ := length_codes (codesOf_lt message)
  have hpos : 0 < (codesOf message).length := by
    rw [codesOf, List.length_map]
    exact List.length_pos_iff.mpr hne
  have hguess := isUcs2Hex_digits (digits_lt message)
  rw [← units_encodeMessage] at hguess
  rw [shownText]
  by_cases hhex : isUcs2Hex (units (encodeMessage message)) = true
  · rw [if_pos hhex, decode_encodeMessage_iff hnul]
  · rw [if_neg hhex]
    constructor
    · -- As it is, the body is longer than the text.
      intro heq
      have hlength := congrArg List.length heq
      have hcount : astral (codesOf message) ≤ (codesOf message).length := List.countP_le_length
      rw [units_encodeMessage, units_eq, List.length_map, List.length_map, hunits] at hlength
      omega
    · intro hplane
      have hcount : astral (codesOf message) = 0 :=
        List.countP_eq_zero.mpr (by simpa [codesOf] using hplane)
      refine absurd (hguess.mpr ⟨fun hnil => ?_, by omega⟩) hhex
      rw [hnil, List.length_nil] at hlow
      omega

/-- The texts that `sms_send` accepts. -/
structure IsMessage (message : String) : Prop where
  nonempty : message.toList.length ≠ 0
  short : message.toList.length ≤ 160
  nul : ∀ c ∈ message.toList, c.toNat ≠ 0

/-- A request that is passed on has such a text, and a recipient that was checked. -/
theorem accepted_cases {request : SmsSendRequest} {time : Except String String}
    {payload : Json.Value} (h : smsPayload request time = .ok payload) :
    validateRecipient request.number = .ok () ∧ IsMessage request.message ∧
      payload.get "message_body" = .str (encodeMessage request.message) := by
  unfold smsPayload at h
  split at h
  · cases h
  · rename_i hnumber
    simp only [] at h
    split_ifs at h with hmessage
    split at h
    · cases h
    · obtain rfl := Except.ok.inj h
      push Not at hmessage
      obtain ⟨hne, hshort, hnul⟩ := hmessage
      refine ⟨hnumber, ⟨hne, hshort, fun c hc hzero => ?_⟩, rfl⟩
      exact hnul (List.any_eq_true.mpr ⟨c, hc, beq_iff_eq.mpr hzero⟩)

/-- **A text survives the trip** exactly if every character is of the basic plane: its body,
decoded, and also as the dashboard shows it. -/
theorem text_survives_iff (request : SmsSendRequest) (time : Except String String)
    (payload : Json.Value) (h : smsPayload request time = .ok payload) :
    ∃ body, payload.get "message_body" = .str body ∧
      (decodeUcs2Hex (units body) = units request.message ↔
        ∀ c ∈ request.message.toList, c.toNat < 0x10000) ∧
      (shownText (units body) = units request.message ↔
        ∀ c ∈ request.message.toList, c.toNat < 0x10000) := by
  obtain ⟨-, hmessage, hbody⟩ := accepted_cases h
  have hne : request.message.toList ≠ [] := fun hnil => hmessage.nonempty (by rw [hnil]; rfl)
  exact ⟨_, hbody, decode_encodeMessage_iff hmessage.nul,
    shownText_encodeMessage_iff hne hmessage.nul⟩

/-- A request, with a text of one character. -/
def request (message : String) : SmsSendRequest := { number := "+15550100", message }

/-- Its payload. -/
def payload (message : String) : Json.Value :=
  .obj [("number", .str "+15550100"), ("sms_time", .str "26;10;01;12;00;00;+0"),
    ("message_body", .str (encodeMessage message)), ("id", .str "-1"),
    ("encode_type", .str (encodeType message))]

theorem payload_euro : smsPayload (request "€") (.ok "26;10;01;12;00;00;+0") =
    .ok (payload "€") := rfl

theorem payload_emoji : smsPayload (request "😀") (.ok "26;10;01;12;00;00;+0") =
    .ok (payload "😀") := rfl

/-- A sign of the basic plane arrives. -/
theorem text_survives_euro : decodeUcs2Hex (units (encodeMessage "€")) = units "€" := by
  obtain ⟨body, hbody, hread, -⟩ := text_survives_iff _ _ _ payload_euro
  obtain rfl : encodeMessage "€" = body := Json.Value.str.inj hbody
  refine hread.mpr fun c hc => ?_
  obtain rfl : c = '€' := List.mem_singleton.mp hc
  decide

/-- An emoji is five digits, which are read as two other units. -/
theorem emoji_garbled : decodeUcs2Hex (units "1F600") = [0x1F60, 0x0000] ∧
    ¬∀ request time payload, smsPayload request time = .ok payload →
      ∀ body, payload.get "message_body" = .str body →
        decodeUcs2Hex (units body) = units request.message := by
  refine ⟨by decide, fun h => ?_⟩
  have hread := h _ _ _ payload_emoji (encodeMessage "😀") rfl
  exact absurd hread (by decide +kernel)

/-! ### Numbers -/

/-- The characters of a recipient. -/
theorem recipient_cases {number : String} (h : validateRecipient number = .ok ()) :
    number.toList ≠ [] ∧ ∀ c ∈ number.toList, isAsciiDigit c = true ∨ c = '+' ∨ c = '*' ∨ c = '#' := by
  unfold validateRecipient at h
  split_ifs at h with hnumber
  obtain ⟨hne, -, hall⟩ : number ≠ "" ∧ ¬32 < number.utf8ByteSize ∧
      number.toList.all (fun c => isAsciiDigit c || c == '+' || c == '*' || c == '#') = true := by
    simpa only [not_or, Bool.not_eq_true', Bool.not_eq_false] using hnumber
  refine ⟨fun hnil => hne (String.toList_inj.mp hnil), fun c hc => ?_⟩
  have hchar := List.all_eq_true.mp hall c hc
  simpa [or_assoc] using hchar

/-- A recipient that reads as digits, by fours. -/
def LooksCoded (number : String) : Prop :=
  number.toList.all isAsciiDigit = true ∧ number.toList.length % 4 = 0

instance (number : String) : Decidable (LooksCoded number) :=
  inferInstanceAs (Decidable (_ ∧ _))

/-- A digit's unit is the digit's. -/
theorem unitsOfCode_digit {c : Char} (h : isAsciiDigit c = true) :
    c.toNat - 0x30 < 16 ∧ unitsOfCode c.toNat = [upperUnit (c.toNat - 0x30)] := by
  simp only [isAsciiDigit, Bool.and_eq_true, decide_eq_true_eq] at h
  have hunit : ∀ n < 10, unitsOfCode (n + 0x30) = [upperUnit n] := by decide
  have hn := hunit (c.toNat - 0x30) (by omega)
  rw [Nat.sub_add_cancel h.1] at hn
  exact ⟨by omega, hn⟩

/-- A number is shown as it is exactly if it does not look coded. -/
theorem shownText_number_iff {number : String} (h : validateRecipient number = .ok ()) :
    shownText (units number) = units number ↔ ¬LooksCoded number := by
  obtain ⟨hne, hchars⟩ := recipient_cases h
  by_cases hdigits : number.toList.all isAsciiDigit = true
  · have hvalues : units number = (number.toList.map fun c => c.toNat - 0x30).map upperUnit := by
      rw [units, List.map_map, List.map_eq_flatMap]
      exact List.flatMap_congr fun c hc =>
        (unitsOfCode_digit (List.all_eq_true.mp hdigits c hc)).2
    have hds : ∀ d ∈ number.toList.map fun c => c.toNat - 0x30, d < 16 := by
      intro d hd
      obtain ⟨c, hc, rfl⟩ := List.mem_map.mp hd
      exact (unitsOfCode_digit (List.all_eq_true.mp hdigits c hc)).1
    have hguess := isUcs2Hex_digits hds
    rw [← hvalues, List.length_map, ne_eq, List.map_eq_nil_iff] at hguess
    rw [shownText]
    by_cases hfour : number.toList.length % 4 = 0
    · -- It is decoded, to a quarter of its length.
      rw [if_pos (hguess.mpr ⟨hne, hfour⟩)]
      refine iff_of_false (fun heq => ?_) fun hnot => hnot ⟨hdigits, hfour⟩
      have hlength := congrArg List.length heq
      simp only [hvalues, decodeUcs2Hex_digits hds, List.length_map, length_quadValues] at hlength
      have hpos := List.length_pos_iff.mpr hne
      omega
    · rw [if_neg fun hhex => hfour (hguess.mp hhex).2]
      exact iff_of_true rfl fun hlooks => hfour hlooks.2
  · have hplain : isUcs2Hex (units number) = false := by
      obtain ⟨c, hc, hother⟩ : ∃ c ∈ number.toList, isAsciiDigit c = false := by
        simpa using hdigits
      have hunit : ∃ u ∈ units number, hexUnit u = none := by
        rcases hchars c hc with hdigit | rfl | rfl | rfl
        · rw [hdigit] at hother
          cases hother
        · exact ⟨0x2B, List.mem_flatMap.mpr ⟨_, hc, by decide⟩, by decide⟩
        · exact ⟨0x2A, List.mem_flatMap.mpr ⟨_, hc, by decide⟩, by decide⟩
        · exact ⟨0x23, List.mem_flatMap.mpr ⟨_, hc, by decide⟩, by decide⟩
      obtain ⟨u, hu, hnone⟩ := hunit
      have hall : ((units number).all fun u => (hexUnit u).isSome) = false :=
        List.all_eq_false.mpr ⟨u, hu, by simp [hnone]⟩
      rw [isUcs2Hex, hall, Bool.and_false]
    rw [shownText, hplain]
    exact iff_of_true rfl fun hlooks => hdigits hlooks.1

/-! ### The list -/

/-- The messages so far are those of some entries, in their order, with different ids. -/
structure SmsList.Inv (list : SmsList) (raw : List Value) : Prop where
  entries : ∃ shown, shown.Sublist raw ∧
    List.Forall₂ (fun entry message => readEntry entry = some message) shown list.messages
  seen : ∀ id, id ∈ list.seen ↔ id ∈ list.messages.map SmsMessage.id
  nodup : (list.messages.map SmsMessage.id).Nodup
  count : list.messages.length + list.dropped = raw.length

/-- One entry more. -/
theorem SmsList.Inv.step {list : SmsList} {raw : List Value} (h : list.Inv raw) (m : Value) :
    (list.step m).Inv (raw ++ [m]) := by
  obtain ⟨shown, hsub, hall⟩ := h.entries
  have hdrop : SmsList.Inv { list with dropped := list.dropped + 1 } (raw ++ [m]) :=
    { entries := ⟨shown, hsub.trans (List.sublist_append_left _ _), hall⟩
      seen := h.seen
      nodup := h.nodup
      count := by
        have hcount := h.count
        simp only [List.length_append, List.length_singleton]
        omega }
  unfold SmsList.step
  split
  · exact hdrop
  · rename_i message hmessage
    split_ifs with hseen
    · exact hdrop
    · have hnew : message.id ∉ list.messages.map SmsMessage.id := by
        rw [← h.seen]
        simpa using hseen
      exact
        { entries := ⟨shown ++ [m], hsub.append (List.Sublist.refl _),
            List.rel_append hall (List.Forall₂.cons hmessage List.Forall₂.nil)⟩
          seen := by
            intro id
            rw [List.mem_cons, h.seen, List.map_append, List.mem_append, List.map_singleton,
              List.mem_singleton]
            exact or_comm
          nodup := by
            rw [List.map_append, List.nodup_append]
            refine ⟨h.nodup, List.nodup_cons.mpr ⟨List.not_mem_nil, List.nodup_nil⟩, ?_⟩
            rintro id hid _ hother rfl
            obtain rfl := List.mem_singleton.mp hother
            exact hnew hid
          count := by
            have hcount := h.count
            simp only [List.length_append, List.length_singleton]
            omega }

/-- All entries. -/
theorem SmsList.inv_foldl (raw : List Value) : (raw.foldl SmsList.step {}).Inv raw := by
  induction raw using List.reverseRecOn with
  | nil => exact ⟨⟨[], List.Sublist.refl _, List.Forall₂.nil⟩, by simp, List.nodup_nil, rfl⟩
  | append_singleton raw m ih =>
    rw [List.foldl_append]
    exact ih.step m

/-- A message that is read has a tag from 0 to 4. -/
theorem tag_of_readEntry {m : Value} {message : SmsMessage} (h : readEntry m = some message) :
    message.tag.isInt = true ∧ 0 ≤ message.tag ∧ message.tag ≤ 4 := by
  unfold readEntry at h
  split_ifs at h
  split at h
  · rename_i id tag hid htag
    obtain rfl := Option.some.inj h
    obtain ⟨-, hrange⟩ := Option.filter_eq_some_iff.mp htag
    simpa [and_assoc] using hrange
  · cases h

/-- The entries that are shown come in the order of the payload, with different ids and valid tags,
and those that are not shown are counted. -/
structure SmsList.Lawful (list : SmsList) (raw : List Value) : Prop where
  entries : ∃ shown, shown.Sublist raw ∧
    List.Forall₂ (fun entry message => readEntry entry = some message) shown list.messages
  nodup : (list.messages.map SmsMessage.id).Nodup
  tags : ∀ message ∈ list.messages,
    message.tag.isInt = true ∧ 0 ≤ message.tag ∧ message.tag ≤ 4
  count : list.messages.length + list.dropped = raw.length

theorem mapSmsListResult_spec {d : Value} {list : SmsList} (h : mapSmsListResult d = .ok list) :
    ∃ raw, smsEntries d = .ok raw ∧ list.Lawful raw := by
  unfold mapSmsListResult at h
  split at h
  · cases h
  · rename_i raw hraw
    obtain rfl := Except.ok.inj h
    have hinv := SmsList.inv_foldl raw
    refine ⟨raw, hraw, hinv.entries, hinv.nodup, ?_, hinv.count⟩
    intro message hmessage
    obtain ⟨shown, -, hall⟩ := hinv.entries
    obtain ⟨hlength, hget⟩ := List.forall₂_iff_get.mp hall
    obtain ⟨i, rfl⟩ := List.mem_iff_get.mp hmessage
    have hi : i < shown.length := by
      rw [hlength]
      exact i.2
    exact tag_of_readEntry (hget i hi i.2)

/-- In every list, an entry with this number is shown with it. -/
def Kept (number : String) : Prop :=
  ∀ d raw list, smsEntries d = .ok raw → mapSmsListResult d = .ok list →
    ∀ entry ∈ raw, entry.get "number" = some (.str number) →
      ∀ message ∈ list.messages, readEntry entry = some message → message.number = units number

/-- What is shown of an entry's number. -/
theorem number_of_readEntry {entry : Value} {message : SmsMessage}
    (h : readEntry entry = some message) : message.number = shownText (textOf (entry.get "number")) := by
  unfold readEntry at h
  split_ifs at h
  split at h
  · obtain rfl := Option.some.inj h
    rfl
  · cases h

/-- An entry with a number. -/
def entryOf (number : String) : Value :=
  .obj [("id", .num 7), ("tag", .num 1), ("number", .str number)]

/-- It is shown. -/
theorem readEntry_entryOf (number : String) : readEntry (entryOf number) =
    some { id := 7, number := shownText (units number), content := [], date := none, tag := 1
           memStore := none } := by
  have hid : nonNegativeInt (some (.num 7)) = some 7 := by decide +kernel
  have htag : intInRange (some (.num 1)) 0 4 = some 1 := by decide +kernel
  have hget : (entryOf number).get "id" = some (.num 7) ∧
      (entryOf number).get "tag" = some (.num 1) := ⟨rfl, rfl⟩
  have hobj : isObj (some (entryOf number)) = true := rfl
  unfold readEntry
  rw [if_pos hobj, hget.1, hget.2, hid, htag]
  rfl

theorem mapSmsListResult_entryOf (number : String) : ∃ list,
    mapSmsListResult (.arr [entryOf number]) = .ok list ∧ ∃ message ∈ list.messages,
      readEntry (entryOf number) = some message ∧ message.number = shownText (units number) := by
  have hread := readEntry_entryOf number
  refine ⟨_, rfl, ?_⟩
  rw [List.foldl_cons, List.foldl_nil, SmsList.step, hread]
  exact ⟨_, List.mem_singleton_self _, rfl, rfl⟩

/-- **A recipient's number is never rewritten** exactly if it does not look coded, which is if it
has one of the signs or is no fours of digits. Every list that is read keeps the order, with
different ids and valid tags, and counts what it drops. -/
theorem number_kept_iff (number : String) (h : validateRecipient number = .ok ()) :
    (Kept number ↔ ¬LooksCoded number) ∧
      ∀ d list, mapSmsListResult d = .ok list → ∃ raw, smsEntries d = .ok raw ∧ list.Lawful raw := by
  constructor
  · rw [← shownText_number_iff h]
    constructor
    · intro hkept
      obtain ⟨list, hlist, message, hmem, hread, hshown⟩ := mapSmsListResult_entryOf number
      rw [← hshown]
      exact hkept _ _ list rfl hlist (entryOf number) List.mem_cons_self rfl message hmem hread
    · intro hshown d raw list _ _ entry _ hnumber message _ hread
      rw [number_of_readEntry hread, hnumber]
      exact hshown
  · intro d list hlist
    exact mapSmsListResult_spec hlist

/-- A number with its country's code is kept. -/
theorem number_kept_international : Kept "+15550100" :=
  (number_kept_iff "+15550100" (by decide)).1.mpr (by decide)

/-- A short code of four digits is a recipient, and is shown as a single letter. -/
theorem short_code_rewritten : validateRecipient "1234" = .ok () ∧
    shownText (units "1234") = [0x1234] ∧
    ¬∀ number, validateRecipient number = .ok () → Kept number := by
  have haccepted : validateRecipient "1234" = .ok () := by decide
  have hread : shownText (units "1234") = [0x1234] := by decide
  refine ⟨haccepted, hread, fun hall => ?_⟩
  obtain ⟨list, hlist, message, hmem, hentry, hshown⟩ := mapSmsListResult_entryOf "1234"
  have hkept := hall "1234" haccepted _ _ list rfl hlist (entryOf "1234") List.mem_cons_self rfl
    message hmem hentry
  rw [hshown, hread] at hkept
  exact absurd hkept (by decide)

end OpenUI.WebApp.Js
