import OpenUI.Euicc.Es9pGrammar
import OpenUI.Proofs.Euicc.Coding

/-!
# `OpenUI.Proofs.Euicc.Es9pTokens`: numbers, strings and names

The parser keeps an index, and the grammar recurses on what is left of the input. At each place they
agree: where the grammar reads nothing the parser rejects, and where it reads something the parser
goes on at the index where what is left begins. No index leaves the input.

* `Agrees`: a reader of the parser and one of the grammar, at one place.
* `number_agrees`, `string_agrees`, `memberName_agrees`: the readers that do not nest.
-/

set_option autoImplicit false

namespace OpenUI.Euicc.Es9p

-- The equations are stated here once, before the proofs that rewrite with them.
section
attribute [local simp] Grammar.after Grammar.afterWhole Grammar.dropSign Grammar.exponent
  Grammar.toQuote closingQuote unescape
end

/-! ### Places -/

/-- A reader that moves an index, and one that gives what is left. -/
inductive Agrees {α : Type} (s : Bytes) (i : Nat) :
    Except Stop (α × Nat) → Option (α × Bytes) → Prop where
  | rejected : Agrees s i (.error .rejected) none
  | read (a : α) (j : Nat) (hi : i < j) (hj : j ≤ s.length) :
    Agrees s i (.ok (a, j)) (some (a, s.drop j))

theorem getElem?_eq_head? (s : Bytes) (i : Nat) : s[i]? = (s.drop i).head? := by
  rw [List.head?_drop]

theorem drop_add (s : Bytes) (i n : Nat) : s.drop (i + n) = (s.drop i).drop n := by
  rw [List.drop_drop]

/-- What is left at a place with a byte. -/
theorem drop_of_getElem? {s : Bytes} {i : Nat} {b : UInt8} (h : s[i]? = some b) :
    s.drop i = b :: s.drop (i + 1) := by
  obtain ⟨hlt, hb⟩ := List.getElem?_eq_some_iff.mp h
  rw [List.drop_eq_getElem_cons hlt, hb]

theorem lt_of_getElem? {s : Bytes} {i : Nat} {b : UInt8} (h : s[i]? = some b) : i < s.length :=
  (List.getElem?_eq_some_iff.mp h).1

/-- What a reader of bytes passes over is what it drops. -/
theorem drop_takeWhile_length (p : UInt8 → Bool) (l : Bytes) :
    l.drop (l.takeWhile p).length = l.dropWhile p := by
  induction l with
  | nil => rfl
  | cons b l ih =>
    by_cases h : p b
    · simp [h, ih]
    · simp [h]

theorem drop_skipWhitespace (s : Bytes) (i : Nat) :
    s.drop (skipWhitespace s i) = Grammar.skipWhitespace (s.drop i) := by
  rw [skipWhitespace, drop_add, drop_takeWhile_length, Grammar.skipWhitespace]

theorem le_skipWhitespace (s : Bytes) (i : Nat) : i ≤ skipWhitespace s i := Nat.le_add_right _ _

theorem skipWhitespace_le {s : Bytes} {i : Nat} (h : i ≤ s.length) :
    skipWhitespace s i ≤ s.length := by
  have hle := (List.takeWhile_prefix (fun b : UInt8 => decide (b ≤ 32)) (l := s.drop i)).length_le
  rw [List.length_drop] at hle
  rw [skipWhitespace]
  omega

/-! ### Numbers -/

theorem digitsAt_eq (s : Bytes) (i : Nat) :
    s.drop (i + digitsAt s i) = (s.drop i).dropWhile isDigit := by
  rw [drop_add, digitsAt, drop_takeWhile_length]

theorem digitsAt_le {s : Bytes} {i : Nat} (h : i ≤ s.length) : i + digitsAt s i ≤ s.length := by
  have hle := (List.takeWhile_prefix isDigit (l := s.drop i)).length_le
  rw [List.length_drop] at hle
  rw [digitsAt]
  omega

/-- The place after an optional sign. -/
theorem drop_sign (s : Bytes) (i : Nat) :
    s.drop (signEnd s i) = Grammar.dropSign (s.drop i) := by
  rw [signEnd]
  -- The source looks at one byte; at the end of the input there is none to look at.
  cases hb : s[i]? with
  | none =>
    have hnil : s.drop i = [] := List.drop_eq_nil_of_le (List.getElem?_eq_none_iff.mp hb)
    rw [hnil]
    exact hnil
  | some b =>
    rw [drop_of_getElem? hb]
    by_cases hsign : isSign b
    · rw [Option.any_some, if_pos hsign, Grammar.dropSign, if_pos hsign]
    · rw [Option.any_some, if_neg hsign, Grammar.dropSign, if_neg hsign, drop_of_getElem? hb]

theorem signEnd_bounds {s : Bytes} {i : Nat} (h : i ≤ s.length) :
    i ≤ signEnd s i ∧ signEnd s i ≤ s.length := by
  rw [signEnd]
  cases hb : s[i]? with
  | none => exact ⟨Nat.le_refl i, h⟩
  | some b =>
    have hlt := lt_of_getElem? hb
    split <;> omega

theorem digitsAt_pos_iff (s : Bytes) (i : Nat) :
    0 < digitsAt s i ↔ (s.drop i).takeWhile isDigit ≠ [] := by
  rw [digitsAt, List.length_pos_iff]

/-- The place after an optional exponent. -/
theorem drop_exponentEnd (s : Bytes) (i : Nat) :
    s.drop (exponentEnd s i) = Grammar.exponent (s.drop i) := by
  cases hb : s[i]? with
  | none =>
    have hnil : s.drop i = [] := List.drop_eq_nil_of_le (List.getElem?_eq_none_iff.mp hb)
    rw [exponentEnd, hb, if_neg (by simp), hnil]
    rfl
  | some e =>
    have hsign := drop_sign s (i + 1)
    have hrest := drop_of_getElem? hb
    rw [exponentEnd, hb, hrest, Grammar.exponent, ← hsign]
    dsimp only
    by_cases he : e = 0x65 ∨ e = 0x45
    · rw [if_pos (by simpa using he)]
      by_cases hdigits : 0 < digitsAt s (signEnd s (i + 1))
      · rw [if_pos hdigits, if_pos ⟨he, (digitsAt_pos_iff _ _).mp hdigits⟩, digitsAt_eq]
      · rw [if_neg hdigits, if_neg (fun h => hdigits ((digitsAt_pos_iff _ _).mpr h.2)), hrest]
    · rw [if_neg (by simpa using he), if_neg (fun h => he h.1), hrest]

theorem exponentEnd_bounds {s : Bytes} {i : Nat} (h : i ≤ s.length) :
    i ≤ exponentEnd s i ∧ exponentEnd s i ≤ s.length := by
  rw [exponentEnd]
  split
  · rename_i he
    have hlt : i < s.length := by
      -- Both letters stand at the place itself, which is therefore within the input.
      rcases he with he | he
      · exact lt_of_getElem? he
      · exact lt_of_getElem? he
    have hsign : i + 1 ≤ signEnd s (i + 1) ∧ signEnd s (i + 1) ≤ s.length := signEnd_bounds hlt
    have hdigits := digitsAt_le hsign.2
    dsimp only
    split <;> omega
  · exact ⟨Nat.le_refl i, h⟩

/-- The bytes that `strtod` takes, and what it leaves. -/
theorem strtod_eq (s : Bytes) :
    strtodLen s ≤ s.length ∧ Grammar.strtod s =
      if strtodLen s = 0 then none else some (s.drop (strtodLen s)) := by
  have hsign := drop_sign s 0
  have hstart := (signEnd_bounds (Nat.zero_le s.length)).2
  rw [List.drop_zero] at hsign
  rw [strtodLen, Grammar.strtod, ← hsign, ← digitsAt_eq]
  have hdigits := digitsAt_le hstart
  have hwhole : (s.drop (signEnd s 0)).takeWhile isDigit = [] ↔ digitsAt s (signEnd s 0) = 0 := by
    rw [digitsAt, List.length_eq_zero_iff]
  have hless : digitsAt s (signEnd s 0) ≤ signEnd s 0 + digitsAt s (signEnd s 0) :=
    Nat.le_add_left _ _
  -- From here on only the number of the first digits matters, and the place behind them.
  generalize (s.drop (signEnd s 0)).takeWhile isDigit = whole at hwhole ⊢
  generalize digitsAt s (signEnd s 0) = n at hdigits hwhole hless ⊢
  generalize signEnd s 0 + n = i at hdigits hless ⊢
  by_cases hpoint : s[i]? = some 0x2E
  · -- With a point: a fraction may follow, and digits on one side of it are enough.
    have hrest := drop_of_getElem? hpoint
    have hlt := lt_of_getElem? hpoint
    have hfraction : (s.drop (i + 1)).takeWhile isDigit = [] ↔ digitsAt s (i + 1) = 0 := by
      rw [digitsAt, List.length_eq_zero_iff]
    have hafter := digitsAt_eq s (i + 1)
    have hplace : i + 1 + digitsAt s (i + 1) ≤ s.length := digitsAt_le hlt
    rw [hrest, if_pos hpoint, Grammar.afterWhole, if_pos rfl]
    simp only [hwhole, hfraction]
    by_cases hnone : n + digitsAt s (i + 1) = 0
    · rw [if_pos hnone, if_pos (by omega)]
      exact ⟨Nat.zero_le _, rfl⟩
    · rw [if_neg hnone, if_pos ⟨hpoint, by omega⟩, if_neg (by omega), ← hafter,
        ← drop_exponentEnd]
      have hbounds := exponentEnd_bounds hplace
      rw [if_neg (by omega)]
      exact ⟨hbounds.2, rfl⟩
  · have hexponent := drop_exponentEnd s i
    have hbounds := exponentEnd_bounds hdigits
    have hplace : (if s[i]? = some 0x2E ∧ 0 < n + 0 then i + 1 + 0 else i) = i :=
      if_neg (fun h => hpoint h.1)
    rw [if_neg hpoint, hplace, Nat.add_zero]
    -- Without a point the exponent follows the first digits.
    have hshape : Grammar.afterWhole whole (s.drop i) =
        if n = 0 then none else some (s.drop (exponentEnd s i)) := by
      rw [hexponent]
      cases hdrop : s.drop i with
      | nil =>
        rw [Grammar.afterWhole]
        simp only [hwhole]
        rfl
      | cons b rest =>
        have hb : b ≠ 0x2E := by
          intro hb
          rw [getElem?_eq_head?, hdrop, hb] at hpoint
          exact hpoint rfl
        rw [Grammar.afterWhole, if_neg hb]
        simp only [hwhole]
    rw [hshape]
    by_cases hnone : n = 0
    · rw [if_pos hnone, if_pos hnone]
      exact ⟨Nat.zero_le _, rfl⟩
    · rw [if_neg hnone, if_neg hnone, if_neg (by omega)]
      exact ⟨hbounds.2, rfl⟩

/-- Numbers. -/
theorem number_agrees {s : Bytes} {i : Nat} (hi : i ≤ s.length) :
    Agrees s i ((number s i).map fun j => ((), j))
      ((Grammar.number (s.drop i)).map fun rest => ((), rest)) := by
  obtain ⟨hle, hstrtod⟩ := strtod_eq ((s.drop i).takeWhile isNumberByte)
  have hrun := (List.takeWhile_prefix isNumberByte (l := s.drop i)).length_le
  rw [List.length_drop] at hrun
  rw [number, Grammar.number, hstrtod]
  cases hn : strtodLen ((s.drop i).takeWhile isNumberByte) with
  | zero => exact .rejected
  | succ n =>
    rw [hn] at hle
    rw [if_neg (Nat.succ_ne_zero n)]
    -- `strtod` may stop within the run of number bytes: the rest of the run is what is left.
    have hrest : ((s.drop i).takeWhile isNumberByte).drop (n + 1) ++
        (s.drop i).dropWhile isNumberByte = s.drop (i + (n + 1)) := by
      have hsplit := List.takeWhile_append_dropWhile (p := isNumberByte) (l := s.drop i)
      rw [← List.drop_append_of_le_length hle, hsplit, ← drop_add]
    show Agrees s i (.ok ((), i + (n + 1))) (some ((), _ ++ _))
    rw [hrest]
    exact .read () _ (by omega) (by omega)

/-! ### The closing quote -/

/-- The closing quote that the first loop of `string` finds, and the contents up to it. -/
inductive Quoted (s : Bytes) (place : Nat) : Except Stop Nat → Option (Bytes × Bytes) → Prop where
  | rejected : Quoted s place (.error .rejected) none
  | closed (content rest : Bytes) (h : s.drop place = content ++ 0x22 :: rest) :
    Quoted s place (.ok (place + content.length)) (some (content, rest))

/-- Bytes that are stepped over are part of the contents. -/
theorem Quoted.before {s : Bytes} {place n : Nat} {r : Except Stop Nat}
    {o : Option (Bytes × Bytes)} (front : Bytes) (hn : front.length = n)
    (hfront : s.drop place = front ++ s.drop (place + n)) (h : Quoted s (place + n) r o) :
    Quoted s place r (o.map fun p => (front ++ p.1, p.2)) := by
  cases h with
  | rejected => exact .rejected
  | closed content rest hrest =>
    have hlength : place + n + content.length = place + (front ++ content).length := by
      rw [List.length_append]
      omega
    rw [hlength]
    refine .closed (front ++ content) rest ?_
    rw [hfront, hrest, List.append_assoc]

theorem Quoted.of_none {s : Bytes} {place : Nat} {r : Except Stop Nat} (h : Quoted s place r none) :
    r = .error .rejected := by
  cases h
  rfl

theorem getOr_some {s : Bytes} {i : Nat} {b : UInt8} (h : s[i]? = some b) : getOr s i = .ok b := by
  rw [getOr, h]

theorem getOr_none {s : Bytes} {i : Nat} (h : s[i]? = none) : getOr s i = .error .rejected := by
  rw [getOr, h]

theorem drop_of_getElem?_none {s : Bytes} {i : Nat} (h : s[i]? = none) : s.drop i = [] :=
  List.drop_eq_nil_of_le (List.getElem?_eq_none_iff.mp h)

theorem toQuote_quote (rest : Bytes) : Grammar.toQuote (0x22 :: rest) = some ([], rest) := by
  cases rest <;> simp [Grammar.toQuote]

theorem toQuote_slash (c : UInt8) (rest : Bytes) :
    Grammar.toQuote (0x5C :: c :: rest) =
      (Grammar.toQuote rest).map fun p => (0x5C :: c :: p.1, p.2) := by
  simp [Grammar.toQuote]

theorem toQuote_other {b : UInt8} (hquote : b ≠ 0x22) (hslash : b ≠ 0x5C) (rest : Bytes) :
    Grammar.toQuote (b :: rest) = (Grammar.toQuote rest).map fun p => (b :: p.1, p.2) := by
  cases rest <;> simp [Grammar.toQuote, hquote, hslash]

/-- Turn by turn, the loop steps over what the grammar steps over. -/
theorem closingQuote_quoted (s : Bytes) (turns place : Nat) (h : s.length - place < turns) :
    Quoted s place (closingQuote s turns place) (Grammar.toQuote (s.drop place)) := by
  induction turns generalizing place with
  | zero => omega
  | succ turns ih =>
    -- Induction on the turns; a byte of the input is left for each of them.
    rw [closingQuote]
    cases hb : s[place]? with
    | none =>
      rw [getOr_none hb, drop_of_getElem?_none hb]
      exact .rejected
    | some b =>
      have hlt := lt_of_getElem? hb
      have hrest := drop_of_getElem? hb
      rw [getOr_some hb, hrest]
      show Quoted s place (if b = 0x22 then pure place
        else if b = 0x5C then closingQuote s turns (place + 2)
        else closingQuote s turns (place + 1)) _
      by_cases hquote : b = 0x22
      · rw [if_pos hquote, hquote, toQuote_quote]
        exact .closed [] _ (by rw [hrest, hquote]; rfl)
      · rw [if_neg hquote]
        -- A backslash takes the next byte with it, so a quote behind it does not close.
        by_cases hslash : b = 0x5C
        · have hnext := ih (place + 2) (by omega)
          rw [if_pos hslash, hslash]
          cases hc : s[place + 1]? with
          | none =>
            -- The input ends behind the backslash.
            have hend : s.drop (place + 2) = [] :=
              List.drop_eq_nil_of_le (by have := List.getElem?_eq_none_iff.mp hc; omega)
            rw [hend] at hnext
            rw [drop_of_getElem?_none hc, hnext.of_none]
            exact .rejected
          | some c =>
            have hback := drop_of_getElem? hc
            rw [hback, toQuote_slash]
            exact hnext.before [0x5C, c] rfl (by rw [hrest, hslash, hback]; rfl)
        · rw [if_neg hslash, toQuote_other hquote hslash]
          exact (ih (place + 1) (by omega)).before [b] rfl hrest

/-! ### Escapes -/

theorem hexDigit_lt {c d : UInt8} (h : hexDigit c = some d) : d.toNat < 16 := by
  -- All bytes, one by one.
  have hall : ∀ c : UInt8, (hexDigit c).all (fun d => decide (d.toNat < 16)) = true :=
    forall_byte (by decide +kernel)
  have hc := hall c
  rw [h, Option.all_some] at hc
  exact of_decide_eq_true hc

/-- One digit more. -/
theorem hex_step {c : UInt8} {l : Bytes} {h n m : Nat} (hn : h < n)
    (hm : (c :: l).foldlM (fun h c => (hexDigit c).map fun d => h * 16 + d.toNat) h = some m) :
    ∃ h' < 16 * n,
      l.foldlM (fun h c => (hexDigit c).map fun d => h * 16 + d.toNat) h' = some m := by
  rw [List.foldlM_cons] at hm
  cases hd : hexDigit c with
  | none =>
    rw [hd] at hm
    cases hm
  | some d =>
    have hlt := hexDigit_lt hd
    rw [hd] at hm
    exact ⟨h * 16 + d.toNat, by omega, hm⟩

/-- Four digits are at most sixteen bits. -/
theorem hex4_lt (d₁ d₂ d₃ d₄ : UInt8) : hex4 [d₁, d₂, d₃, d₄] < 0x10000 := by
  rw [hex4]
  cases hm : ([d₁, d₂, d₃, d₄].take 4).foldlM
      (fun h c => (hexDigit c).map fun d => h * 16 + d.toNat) 0 with
  | none => exact Nat.zero_lt_succ _
  | some m =>
    -- Each digit that is read multiplies the bound by sixteen.
    obtain ⟨h₁, hlt₁, hm⟩ := hex_step (n := 1) Nat.zero_lt_one hm
    obtain ⟨h₂, hlt₂, hm⟩ := hex_step hlt₁ hm
    obtain ⟨h₃, hlt₃, hm⟩ := hex_step hlt₂ hm
    obtain ⟨h₄, hlt₄, hm⟩ := hex_step hlt₃ hm
    cases hm
    show m < 0x10000
    omega

theorem encodeCodepoint_valid {n : Nat} (h : n < 0xD800 ∨ 0xDFFF < n ∧ n < 0x110000) :
    encodeCodepoint n = .ok (String.utf8EncodeChar (Char.ofNat n)) := if_pos h

section Literal

variable (d₁ d₂ d₃ d₄ : UInt8) (rest : Bytes)

/-- An escape whose digits are cut off by the quote. -/
theorem utf16Literal_short (h : rest.length < 4) :
    utf16Literal (0x5C :: 0x75 :: rest) = .error .rejected :=
  if_pos (by rw [List.length_cons, List.length_cons]; omega)

/-- The first four digits of an escape. -/
theorem utf16Literal_digits :
    utf16Literal (0x5C :: 0x75 :: d₁ :: d₂ :: d₃ :: d₄ :: rest) =
      if Grammar.isLow (hex4 [d₁, d₂, d₃, d₄]) then .error .rejected
      else if Grammar.isHigh (hex4 [d₁, d₂, d₃, d₄]) then
        match getSlice (0x5C :: 0x75 :: d₁ :: d₂ :: d₃ :: d₄ :: rest) 6 12 with
        | none => .error .rejected
        | some second =>
          if ¬ [0x5C, 0x75] <+: second then .error .rejected
          else do
            let second := hex4 (← slice second 2 second.length)
            if ¬ (0xDC00 ≤ second ∧ second ≤ 0xDFFF) then .error .rejected
            else do
              let bytes ← encodeCodepoint (joinSurrogates (hex4 [d₁, d₂, d₃, d₄]) second)
              return (bytes, 12)
      else do
        let bytes ← encodeCodepoint (hex4 [d₁, d₂, d₃, d₄])
        return (bytes, 6) := by
  have hlength : ¬ (0x5C :: 0x75 :: d₁ :: d₂ :: d₃ :: d₄ :: rest : Bytes).length < 6 := by
    simp only [List.length_cons]
    omega
  -- The slice of the digits never leaves the input here, so it does not panic.
  have hslice : slice (0x5C :: 0x75 :: d₁ :: d₂ :: d₃ :: d₄ :: rest) 2 6 =
      .ok [d₁, d₂, d₃, d₄] := by
    rw [slice, getSlice, if_pos ⟨by omega, by omega⟩]
    rfl
  rw [utf16Literal, if_neg hlength, hslice]
  simp only [Grammar.isLow, Grammar.isHigh, Bool.and_eq_true, decide_eq_true_eq]
  rfl

variable {d₁ d₂ d₃ d₄} in
theorem utf16Literal_low (h : Grammar.isLow (hex4 [d₁, d₂, d₃, d₄]) = true) :
    utf16Literal (0x5C :: 0x75 :: d₁ :: d₂ :: d₃ :: d₄ :: rest) = .error .rejected := by
  rw [utf16Literal_digits, if_pos h]

variable {d₁ d₂ d₃ d₄} in
/-- An escape of its own. -/
theorem utf16Literal_single (hlow : ¬ Grammar.isLow (hex4 [d₁, d₂, d₃, d₄]) = true)
    (hhigh : ¬ Grammar.isHigh (hex4 [d₁, d₂, d₃, d₄]) = true) :
    utf16Literal (0x5C :: 0x75 :: d₁ :: d₂ :: d₃ :: d₄ :: rest) =
      .ok (String.utf8EncodeChar (Char.ofNat (hex4 [d₁, d₂, d₃, d₄])), 6) := by
  have hlt := hex4_lt d₁ d₂ d₃ d₄
  rw [utf16Literal_digits, if_neg hlow, if_neg hhigh, encodeCodepoint_valid]
  · rfl
  · simp only [Grammar.isLow, Grammar.isHigh, Bool.and_eq_true, decide_eq_true_eq] at hlow hhigh
    omega

variable {d₁ d₂ d₃ d₄ rest} in
/-- The first half of a pair, where the quote cuts the second off. -/
theorem utf16Literal_alone (hlow : ¬ Grammar.isLow (hex4 [d₁, d₂, d₃, d₄]) = true)
    (hhigh : Grammar.isHigh (hex4 [d₁, d₂, d₃, d₄]) = true) (h : rest.length < 6) :
    utf16Literal (0x5C :: 0x75 :: d₁ :: d₂ :: d₃ :: d₄ :: rest) = .error .rejected := by
  have hslice : getSlice (0x5C :: 0x75 :: d₁ :: d₂ :: d₃ :: d₄ :: rest) 6 12 = none := by
    rw [getSlice, if_neg]
    intro hin
    simp only [List.length_cons] at hin
    omega
  rw [utf16Literal_digits, if_neg hlow, if_pos hhigh, hslice]

variable {d₁ d₂ d₃ d₄ rest} in
/-- The first half of a pair, and six bytes more. -/
theorem utf16Literal_pair (hlow : ¬ Grammar.isLow (hex4 [d₁, d₂, d₃, d₄]) = true)
    (hhigh : Grammar.isHigh (hex4 [d₁, d₂, d₃, d₄]) = true) (b c e₁ e₂ e₃ e₄ : UInt8) :
    utf16Literal (0x5C :: 0x75 :: d₁ :: d₂ :: d₃ :: d₄ :: b :: c :: e₁ :: e₂ :: e₃ :: e₄ :: rest) =
      if b = 0x5C ∧ c = 0x75 ∧ Grammar.isLow (hex4 [e₁, e₂, e₃, e₄]) then
        .ok (String.utf8EncodeChar (Char.ofNat
          (joinSurrogates (hex4 [d₁, d₂, d₃, d₄]) (hex4 [e₁, e₂, e₃, e₄]))), 12)
      else .error .rejected := by
  have hslice : getSlice (0x5C :: 0x75 :: d₁ :: d₂ :: d₃ :: d₄ :: b :: c :: e₁ :: e₂ :: e₃ :: e₄ ::
      rest) 6 12 = some [b, c, e₁, e₂, e₃, e₄] := by
    rw [getSlice, if_pos]
    · rfl
    · simp only [List.length_cons]
      omega
  rw [utf16Literal_digits, if_neg hlow, if_pos hhigh, hslice]
  dsimp only
  -- The second half has its own escape, and its digits are the last four of the six bytes.
  have hstarts : [0x5C, 0x75] <+: [b, c, e₁, e₂, e₃, e₄] ↔ b = 0x5C ∧ c = 0x75 := by
    simp [List.cons_prefix_cons, eq_comm]
  have hsecond : slice [b, c, e₁, e₂, e₃, e₄] 2 [b, c, e₁, e₂, e₃, e₄].length =
      .ok [e₁, e₂, e₃, e₄] := rfl
  by_cases hmark : b = 0x5C ∧ c = 0x75
  · rw [if_neg (fun h => h (hstarts.mpr hmark)), hsecond]
    simp only [Grammar.isLow, Bool.and_eq_true, decide_eq_true_eq]
    show (if ¬ (0xDC00 ≤ hex4 [e₁, e₂, e₃, e₄] ∧ hex4 [e₁, e₂, e₃, e₄] ≤ 0xDFFF) then _ else _) = _
    by_cases hrange : 0xDC00 ≤ hex4 [e₁, e₂, e₃, e₄] ∧ hex4 [e₁, e₂, e₃, e₄] ≤ 0xDFFF
    · rw [if_neg (fun h => h hrange), if_pos ⟨hmark.1, hmark.2, hrange⟩, encodeCodepoint_valid]
      · rfl
      · rw [joinSurrogates]
        omega
    · rw [if_pos hrange, if_neg (fun h => hrange h.2.2)]
  · rw [if_pos (fun h => hmark (hstarts.mp h)), if_neg (fun h => hmark ⟨h.1, h.2.1⟩)]

end Literal

/-! ### The grammar's escapes -/

theorem unescape_copy {b : UInt8} (hb : b ≠ 0x5C) (rest : Bytes) :
    Grammar.unescape (b :: rest) = (Grammar.unescape rest).map (b :: ·) := by
  delta Grammar.unescape
  exact if_pos hb

theorem unescape_simple {c b : UInt8} (h : simpleEscape c = some b) (rest : Bytes) :
    Grammar.unescape (0x5C :: c :: rest) = (Grammar.unescape rest).map (b :: ·) := by
  have hsome : (simpleEscape c).isSome = true := by rw [h]; rfl
  delta Grammar.unescape
  refine (if_pos hsome).trans ?_
  rw [h]
  rfl

theorem unescape_unknown {c : UInt8} (h : simpleEscape c = none) (hc : c ≠ 0x75) (rest : Bytes) :
    Grammar.unescape (0x5C :: c :: rest) = none := by
  have hnot : ¬ (simpleEscape c).isSome = true := by simp [h]
  delta Grammar.unescape
  exact (if_neg hnot).trans (if_pos hc)

/-- Digits that the quote cuts off. -/
theorem unescape_short {rest : Bytes} (h : rest.length < 4) :
    Grammar.unescape (0x5C :: 0x75 :: rest) = none := by
  rcases rest with _ | ⟨d₁, _ | ⟨d₂, _ | ⟨d₃, _ | ⟨d₄, rest⟩⟩⟩⟩
  case cons.cons.cons.cons =>
    simp only [List.length_cons] at h
    omega
  all_goals
    delta Grammar.unescape
    rfl

/-- Digits outside the surrogates are a character of their own. -/
theorem unescape_single {d₁ d₂ d₃ d₄ : UInt8}
    (hlow : Grammar.isLow (hex4 [d₁, d₂, d₃, d₄]) = false)
    (hhigh : Grammar.isHigh (hex4 [d₁, d₂, d₃, d₄]) = false) (rest : Bytes) :
    Grammar.unescape (0x5C :: 0x75 :: d₁ :: d₂ :: d₃ :: d₄ :: rest) =
      (Grammar.unescape rest).map
        (String.utf8EncodeChar (Char.ofNat (hex4 [d₁, d₂, d₃, d₄])) ++ ·) := by
  have hone : ¬ Grammar.isLow (hex4 [d₁, d₂, d₃, d₄]) = true := by simp [hlow]
  have hfirst : (!Grammar.isHigh (hex4 [d₁, d₂, d₃, d₄])) = true := by simp [hhigh]
  delta Grammar.unescape
  exact (if_neg hone).trans (if_pos hfirst)

/-- A low half may not come first. -/
theorem unescape_low {d₁ d₂ d₃ d₄ : UInt8} (hlow : Grammar.isLow (hex4 [d₁, d₂, d₃, d₄]) = true)
    (rest : Bytes) : Grammar.unescape (0x5C :: 0x75 :: d₁ :: d₂ :: d₃ :: d₄ :: rest) = none := by
  delta Grammar.unescape
  exact if_pos hlow

/-- A high half without six bytes behind it. -/
theorem unescape_alone {d₁ d₂ d₃ d₄ : UInt8}
    (hlow : ¬ Grammar.isLow (hex4 [d₁, d₂, d₃, d₄]) = true)
    (hhigh : Grammar.isHigh (hex4 [d₁, d₂, d₃, d₄]) = true) {rest : Bytes}
    (h : rest.length < 6) :
    Grammar.unescape (0x5C :: 0x75 :: d₁ :: d₂ :: d₃ :: d₄ :: rest) = none := by
  have hfirst : ¬ (!Grammar.isHigh (hex4 [d₁, d₂, d₃, d₄])) = true := by simp [hhigh]
  rcases rest with _ | ⟨b, _ | ⟨c, _ | ⟨e₁, _ | ⟨e₂, _ | ⟨e₃, _ | ⟨e₄, rest⟩⟩⟩⟩⟩⟩
  case cons.cons.cons.cons.cons.cons =>
    simp only [List.length_cons] at h
    omega
  all_goals
    delta Grammar.unescape
    exact (if_neg hlow).trans (if_neg hfirst)

/-- A high half with six bytes behind it: they have to be the low half. -/
theorem unescape_pair {d₁ d₂ d₃ d₄ : UInt8}
    (hlow : ¬ Grammar.isLow (hex4 [d₁, d₂, d₃, d₄]) = true)
    (hhigh : Grammar.isHigh (hex4 [d₁, d₂, d₃, d₄]) = true) (b c e₁ e₂ e₃ e₄ : UInt8)
    (rest : Bytes) :
    Grammar.unescape (0x5C :: 0x75 :: d₁ :: d₂ :: d₃ :: d₄ :: b :: c :: e₁ :: e₂ :: e₃ :: e₄ ::
      rest) = if b = 0x5C ∧ c = 0x75 ∧ Grammar.isLow (hex4 [e₁, e₂, e₃, e₄]) then
        (Grammar.unescape rest).map (String.utf8EncodeChar (Char.ofNat
          (joinSurrogates (hex4 [d₁, d₂, d₃, d₄]) (hex4 [e₁, e₂, e₃, e₄]))) ++ ·)
      else none := by
  have hfirst : ¬ (!Grammar.isHigh (hex4 [d₁, d₂, d₃, d₄])) = true := by simp [hhigh]
  delta Grammar.unescape
  exact (if_neg hlow).trans (if_neg hfirst)

/-- What an escape with digits is read as, at the start of `s`. -/
inductive Literal (s : Bytes) : Except Stop (Bytes × Nat) → Option Bytes → Prop where
  | rejected : Literal s (.error .rejected) none
  | read (bytes : Bytes) (used : Nat) (hpos : 2 ≤ used) (hle : used ≤ s.length) :
    Literal s (.ok (bytes, used)) ((Grammar.unescape (s.drop used)).map (bytes ++ ·))

/-- Escapes with digits. -/
theorem utf16Literal_reads (rest : Bytes) :
    Literal (0x5C :: 0x75 :: rest) (utf16Literal (0x5C :: 0x75 :: rest))
      (Grammar.unescape (0x5C :: 0x75 :: rest)) := by
  by_cases hlength : rest.length < 4
  · rw [utf16Literal_short rest hlength, unescape_short hlength]
    exact .rejected
  -- Four digits are there. A low half may not come first, and a high half needs one behind it.
  rcases rest with _ | ⟨d₁, _ | ⟨d₂, _ | ⟨d₃, _ | ⟨d₄, rest⟩⟩⟩⟩
  case cons.cons.cons.cons =>
    by_cases hlow : Grammar.isLow (hex4 [d₁, d₂, d₃, d₄]) = true
    · rw [utf16Literal_low rest hlow, unescape_low hlow]
      exact .rejected
    · by_cases hhigh : Grammar.isHigh (hex4 [d₁, d₂, d₃, d₄]) = true
      · by_cases hshort : rest.length < 6
        · rw [utf16Literal_alone hlow hhigh hshort, unescape_alone hlow hhigh hshort]
          exact .rejected
        · rcases rest with _ | ⟨b, _ | ⟨c, _ | ⟨e₁, _ | ⟨e₂, _ | ⟨e₃, _ | ⟨e₄, rest⟩⟩⟩⟩⟩⟩
          case cons.cons.cons.cons.cons.cons =>
            rw [utf16Literal_pair hlow hhigh, unescape_pair hlow hhigh]
            split
            · exact .read _ 12 (by omega) (by simp only [List.length_cons]; omega)
            · exact .rejected
          all_goals
            simp only [List.length_cons, List.length_nil] at hshort
            omega
      · rw [utf16Literal_single rest hlow hhigh,
          unescape_single (by simpa using hlow) (by simpa using hhigh)]
        exact .read _ 6 (by omega) (by simp only [List.length_cons]; omega)
  all_goals
    simp only [List.length_cons, List.length_nil] at hlength
    omega

/-! ### Strings -/

/-- How the second loop of `string` ends, where its contents are read so. -/
def ending (out : Bytes) : Option Bytes → Except Stop Bytes
  | none => .error .rejected
  | some value => .ok (out ++ value)

theorem ending_map (out front : Bytes) (value : Option Bytes) :
    ending out (value.map (front ++ ·)) = ending (out ++ front) value := by
  cases value with
  | none => rfl
  | some value =>
    show Except.ok (out ++ (front ++ value)) = Except.ok (out ++ front ++ value)
    rw [List.append_assoc]

theorem index_some {s : Bytes} {i : Nat} {b : UInt8} (h : s[i]? = some b) : index s i = .ok b := by
  rw [index, h]

/-- What stands at a place, and behind it. -/
theorem of_drop_eq_cons {s rest : Bytes} {i : Nat} {b : UInt8} (h : s.drop i = b :: rest) :
    s[i]? = some b ∧ s.drop (i + 1) = rest := by
  constructor
  · rw [getElem?_eq_head?, h, List.head?_cons]
  · rw [drop_add, h]
    rfl

/-- The contents before a quote are a slice. -/
theorem getSlice_of_drop {s content rest : Bytes} {place : Nat}
    (h : s.drop place = content ++ 0x22 :: rest) :
    getSlice s place (place + content.length) = some content := by
  have hlength := congrArg List.length h
  simp only [List.length_drop, List.length_append, List.length_cons] at hlength
  rw [getSlice, if_pos (by omega), h, Nat.add_sub_cancel_left, List.take_left]

/-- Every escape that has its second byte before the quote. -/
theorem escape_reads {s content rest : Bytes} {place : Nat} {c : UInt8}
    (h : s.drop place = 0x5C :: c :: content ++ 0x22 :: rest) :
    Literal (0x5C :: c :: content)
      (escape s (place + (0x5C :: c :: content : Bytes).length) place c)
      (Grammar.unescape (0x5C :: c :: content)) := by
  rw [escape, getSlice_of_drop h]
  -- The source has one arm for each simple escape, one for digits, and rejects the rest.
  cases hsimple : simpleEscape c with
  | some b =>
    rw [unescape_simple hsimple]
    exact .read [b] 2 (Nat.le_refl 2) (Nat.le_add_left 2 _)
  | none =>
    dsimp only
    by_cases hdigits : c = 0x75
    · rw [if_pos hdigits, hdigits]
      exact utf16Literal_reads content
    · rw [if_neg hdigits, unescape_unknown hsimple hdigits]
      exact .rejected

/-- The loop reads the contents as the grammar does. -/
theorem unescape_ending (s rest : Bytes) (turns place : Nat) (content out : Bytes)
    (h : s.drop place = content ++ 0x22 :: rest) (hturns : content.length < turns) :
    unescape s (place + content.length) turns place out =
      ending out (Grammar.unescape content) := by
  induction turns generalizing place content out with
  | zero => omega
  | succ turns ih =>
    -- Induction on the turns; every turn reads at least one byte of the contents.
    cases content with
    | nil =>
      rw [unescape, List.length_nil, Nat.add_zero, if_pos (Nat.le_refl place)]
      show Except.ok out = Except.ok (out ++ [])
      rw [List.append_nil]
    | cons b content =>
      obtain ⟨hb, hrest⟩ := of_drop_eq_cons h
      have hquote : place + (b :: content).length = place + 1 + content.length := by
        rw [List.length_cons]
        omega
      rw [List.length_cons] at hturns
      rw [unescape, if_neg (by omega), index_some hb]
      show (if b ≠ 0x5C then _ else _) = _
      by_cases hslash : b = 0x5C
      · rw [if_neg (fun h => h hslash)]
        subst hslash
        cases content with
        | nil =>
          -- A lone backslash takes the quote.
          rw [getOr_some (of_drop_eq_cons hrest).1]
          cases turns with
          | zero => omega
          | succ turns =>
            show unescape s (place + 1) (turns + 1) (place + 2) (out ++ [0x22]) =
              .ok (out ++ [0x22])
            rw [unescape, if_pos (Nat.le_succ _)]
        | cons c content =>
          -- An escape gives some bytes, and moves the place behind what it used.
          have hreads := escape_reads h
          rw [getOr_some (of_drop_eq_cons hrest).1]
          show (escape s _ place c >>= fun p => unescape s _ turns (place + p.2) (out ++ p.1)) = _
          generalize escape s _ place c = r at hreads ⊢
          generalize hvalue : Grammar.unescape (0x5C :: c :: content) = value at hreads ⊢
          cases hreads with
          | rejected => rfl
          | read bytes used hpos hle =>
            have hnext : s.drop (place + used) =
                (0x5C :: c :: content).drop used ++ 0x22 :: rest := by
              rw [drop_add, h, List.drop_append_of_le_length hle]
            have hlength : ((0x5C :: c :: content : Bytes).drop used).length =
                (0x5C :: c :: content : Bytes).length - used := List.length_drop
            have hplace : place + (0x5C :: c :: content : Bytes).length =
                place + used + ((0x5C :: c :: content).drop used).length := by omega
            show unescape s _ turns (place + used) (out ++ bytes) = _
            rw [hplace, ih _ _ _ hnext (by omega), ending_map]
      · rw [if_pos hslash, unescape_copy hslash, hquote, ih (place + 1) content _ hrest (by omega)]
        exact (ending_map out [b] _).symm

/-- Strings, at the opening quote. -/
theorem string_agrees (s : Bytes) {i : Nat} (hi : i < s.length) :
    Agrees s i (string s i) (Grammar.string (s.drop (i + 1))) := by
  have hquoted := closingQuote_quoted s (s.length + 1) (i + 1) (by omega)
  rw [string, Grammar.string]
  generalize closingQuote s (s.length + 1) (i + 1) = r at hquoted ⊢
  generalize Grammar.toQuote (s.drop (i + 1)) = o at hquoted ⊢
  cases hquoted with
  | rejected => exact .rejected
  | closed content rest h =>
    have hlength := congrArg List.length h
    simp only [List.length_drop, List.length_append, List.length_cons] at hlength
    -- The quote is found: the second loop reads what stands before it.
    have hcontent := unescape_ending s rest (s.length + 1) (i + 1) content [] h (by omega)
    show Agrees s i (do
      let out ← unescape s (i + 1 + content.length) (s.length + 1) (i + 1) []
      return (out, i + 1 + content.length + 1))
      ((Grammar.unescape content).map fun value => (value, rest))
    rw [hcontent]
    cases Grammar.unescape content with
    | none => exact .rejected
    | some value =>
      have hrest : s.drop (i + 1 + content.length + 1) = rest := by
        rw [Nat.add_assoc (i + 1), drop_add, h, ← List.drop_drop, List.drop_left]
        rfl
      show Agrees s i (.ok ([] ++ value, i + 1 + content.length + 1)) (some (value, rest))
      rw [← hrest]
      exact .read value _ (by omega) (by omega)

/-- A byte that the grammar expects, and the parser looks for. -/
theorem after_drop (b : UInt8) (s : Bytes) (i : Nat) :
    Grammar.after b (s.drop i) = if s[i]? = some b then some (s.drop (i + 1)) else none := by
  cases hc : s[i]? with
  | none =>
    rw [drop_of_getElem?_none hc, if_neg (by simp)]
    rfl
  | some c =>
    rw [drop_of_getElem? hc, Grammar.after]
    simp only [Option.some.injEq]

/-- Names, up to the value of the member. -/
theorem memberName_agrees (s : Bytes) (i : Nat) :
    Agrees s i (memberName s i) (Grammar.memberName (s.drop i)) := by
  rw [memberName, Grammar.memberName, after_drop]
  by_cases hquote : s[i]? = some 0x22
  · rw [if_neg (fun h => h hquote), if_pos hquote, Option.bind_some]
    have hstring := string_agrees s (lt_of_getElem? hquote)
    generalize string s i = r at hstring ⊢
    generalize Grammar.string (s.drop (i + 1)) = o at hstring ⊢
    cases hstring with
    | rejected => exact .rejected
    | read name j hij hj =>
      -- The name is read; a colon has to follow.
      have hplace := skipWhitespace_le hj
      have hmoved := le_skipWhitespace s j
      show Agrees s i (if s[skipWhitespace s j]? ≠ some 0x3A then .error .rejected
        else pure (name, skipWhitespace s (skipWhitespace s j + 1))) _
      rw [Option.bind_some]
      dsimp only
      rw [← drop_skipWhitespace, after_drop]
      by_cases hcolon : s[skipWhitespace s j]? = some 0x3A
      · have hlt : skipWhitespace s j + 1 ≤ s.length := lt_of_getElem? hcolon
        have hnext := le_skipWhitespace s (skipWhitespace s j + 1)
        rw [if_neg (fun h => h hcolon), if_pos hcolon, Option.map_some, ← drop_skipWhitespace]
        exact .read name _ (by omega) (skipWhitespace_le hlt)
      · rw [if_pos hcolon, if_neg hcolon]
        exact .rejected
  · rw [if_pos hquote, if_neg hquote]
    exact .rejected

end OpenUI.Euicc.Es9p
