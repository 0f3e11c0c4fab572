import OpenUI.Text

/-!
# `OpenUI.Proofs.Text`: lines, pieces and quotes

What the string operations make of a text that was put together in a known way: `lines` gives back
the lines, `split_once` the two sides of the first separator, `replace` the text whose quotes were
escaped, and `trim` a text that has no white space at its ends. A text of ASCII characters has as
many bytes as characters.
-/

set_option autoImplicit false

namespace OpenUI.Text

-- The equations are stated here once, before the proofs that rewrite with them.
section
attribute [local simp] replaceFrom
end

/-! ### Lines -/

theorem linesFrom_line {line : List Char} (h : '\n' ∉ line) (begun rest : List Char) :
    linesFrom begun (line ++ '\n' :: rest) = stripReturn (begun ++ line) :: linesFrom [] rest := by
  induction line generalizing begun with
  | nil =>
    show (if '\n' = '\n' then _ else _) = _
    rw [if_pos rfl, List.append_nil]
  | cons c cs ih =>
    rw [List.mem_cons, not_or] at h
    show (if c = '\n' then _ else _) = _
    rw [if_neg (Ne.symm h.1)]
    show linesFrom (begun ++ [c]) (cs ++ '\n' :: rest) = _
    rw [ih h.2, List.append_assoc]
    rfl

/-- A line that does not end in a carriage return. -/
theorem stripReturn_of_ne {line : List Char} (h : line.getLast? ≠ some '\r') :
    stripReturn line = line := if_neg h

/-! ### Pieces -/

theorem splitOnce_append {sep : Char} {before : List Char} (h : sep ∉ before) (after : List Char) :
    splitOnce sep (String.ofList (before ++ sep :: after)) =
      some (String.ofList before, String.ofList after) := by
  have hspan : (before ++ sep :: after).span (fun c => decide (c ≠ sep)) =
    (before, sep :: after) := by
    rw [List.span_eq_takeWhile_dropWhile]
    have hall : ∀ c ∈ before, decide (c ≠ sep) = true := by
      intro c hc
      simp only [decide_eq_true_eq]
      rintro rfl
      exact h hc
    rw [List.takeWhile_append_of_pos hall, List.dropWhile_append_of_pos hall]
    simp
  rw [splitOnce, String.toList_ofList, hspan]

/-- What `split_once` finds are the two sides of the separator. -/
theorem toList_of_splitOnce {sep : Char} {s before after : String}
    (h : splitOnce sep s = some (before, after)) :
    s.toList = before.toList ++ sep :: after.toList := by
  have happend := List.takeWhile_append_dropWhile (p := fun c => decide (c ≠ sep)) (l := s.toList)
  rw [splitOnce, List.span_eq_takeWhile_dropWhile] at h
  cases hdrop : s.toList.dropWhile (fun c => decide (c ≠ sep)) with
  | nil =>
    rw [hdrop] at h
    cases h
  | cons c rest =>
    rw [hdrop] at h happend
    have hne : s.toList.dropWhile (fun c => decide (c ≠ sep)) ≠ [] := by
      rw [hdrop]
      exact List.cons_ne_nil _ _
    have hc := List.head_dropWhile_not (fun c => decide (c ≠ sep)) hne
    simp only [hdrop, List.head_cons, decide_eq_false_iff_not, not_not] at hc
    subst hc
    cases h
    rw [String.toList_ofList, String.toList_ofList, happend]

theorem stripPrefix_append (pattern : String) (rest : List Char) :
    stripPrefix pattern (String.ofList (pattern.toList ++ rest)) = some (String.ofList rest) := by
  rw [stripPrefix, String.toList_ofList, if_pos (List.prefix_append _ _), ← String.length_toList,
    List.drop_left]

theorem stripSuffix_append (pattern : String) (rest : List Char) :
    stripSuffix pattern (String.ofList (rest ++ pattern.toList)) = some (String.ofList rest) := by
  rw [stripSuffix, String.toList_ofList, if_pos (List.suffix_append _ _), List.length_append,
    ← String.length_toList, Nat.add_sub_cancel, List.take_left]

/-! ### Quotes -/

/-- A text with its single quotes escaped, as a shell does it. -/
def escapeQuotes (cs : List Char) : List Char :=
  cs.flatMap fun c => if c = '\'' then ['\'', '\\', '\'', '\''] else [c]

/-- Replacing the escaped quotes gives the text back. -/
theorem replaceFrom_escapeQuotes (cs : List Char) :
    replaceFrom ['\'', '\\', '\'', '\''] ['\''] 0 (escapeQuotes cs) = cs := by
  induction cs with
  | nil => rfl
  | cons c cs ih =>
    rw [escapeQuotes, List.flatMap_cons, ← escapeQuotes]
    by_cases hc : c = '\''
    · subst hc
      simp [replaceFrom, ih]
    · have hne : ¬ ['\'', '\\', '\'', '\''] <+: c :: escapeQuotes cs := by
        intro h
        exact hc (List.cons_prefix_cons.mp h).1.symm
      rw [if_neg hc, List.singleton_append, replaceFrom, if_neg hne, ih]

/-! ### White space -/

/-- No white space at either end. -/
structure Trimmed (s : String) : Prop where
  front : ∀ c, s.toList.head? = some c → isWhitespace c = false
  back : ∀ c, s.toList.getLast? = some c → isWhitespace c = false

theorem trimChars_eq (cs : List Char) :
    trimChars cs = (cs.dropWhile isWhitespace).rdropWhile isWhitespace := rfl

/-- Trimming leaves a text alone exactly when it is trimmed. -/
theorem trim_eq_self_iff (s : String) : trim s = s ↔ Trimmed s := by
  have hchars : trim s = s ↔ trimChars s.toList = s.toList := by
    constructor
    · intro h
      have := congrArg String.toList h
      rwa [trim, String.toList_ofList] at this
    · intro h
      rw [trim, h, String.ofList_toList]
  rw [hchars, trimChars_eq]
  constructor
  · intro h
    -- Nothing is dropped on either side.
    have hlength := congrArg List.length h
    have hfront := (List.dropWhile_suffix isWhitespace (l := s.toList))
    have hback := List.rdropWhile_prefix isWhitespace (l := s.toList.dropWhile isWhitespace)
    have hdrop : s.toList.dropWhile isWhitespace = s.toList :=
      hfront.eq_of_length (by have := hfront.length_le; have := hback.length_le; omega)
    rw [hdrop] at h
    constructor
    · intro c hc
      cases hs : s.toList with
      | nil =>
        rw [hs] at hc
        cases hc
      | cons a as =>
        rw [hs] at hc hdrop
        obtain rfl := Option.some.inj hc
        rw [List.dropWhile_cons] at hdrop
        split at hdrop
        · have hle := (List.dropWhile_suffix isWhitespace (l := as)).length_le
          rw [hdrop, List.length_cons] at hle
          omega
        · simpa using ‹¬isWhitespace a = true›
    · intro c hc
      have hne : s.toList ≠ [] := by
        intro hnil
        rw [hnil] at hc
        cases hc
      have hlast := List.rdropWhile_eq_self_iff.mp h hne
      rw [List.getLast?_eq_some_getLast hne] at hc
      obtain rfl := Option.some.inj hc
      simpa using hlast
  · intro h
    have hdrop : s.toList.dropWhile isWhitespace = s.toList := by
      cases hs : s.toList with
      | nil => rfl
      | cons c cs =>
        rw [List.dropWhile_cons_of_neg]
        simp [h.front c (by rw [hs]; rfl)]
    rw [hdrop, List.rdropWhile_eq_self_iff]
    intro hne
    simp [h.back _ (List.getLast?_eq_some_getLast hne)]

/-- White space at the end is trimmed away. -/
theorem trimChars_append_whitespace (cs : List Char) {c : Char} (hc : isWhitespace c = true) :
    trimChars (cs ++ [c]) = trimChars cs := by
  rw [trimChars_eq, trimChars_eq, List.dropWhile_append]
  split
  · rename_i hnil
    have hnil : cs.dropWhile isWhitespace = [] := by simpa using hnil
    rw [hnil, List.dropWhile_cons_of_pos hc]
    rfl
  · exact List.rdropWhile_concat_pos _ _ _ hc

/-! ### Bytes -/

/-- The bytes of a text are those of its characters. -/
theorem utf8ByteSize_ofList (cs : List Char) :
    (String.ofList cs).utf8ByteSize = (cs.map Char.utf8Size).foldr (· + ·) 0 := by
  induction cs with
  | nil => rfl
  | cons c cs ih =>
    have hone : (String.ofList [c]).utf8ByteSize = c.utf8Size := by
      rw [← String.singleton_eq_ofList, String.utf8ByteSize_singleton]
    rw [← List.singleton_append, String.ofList_append, String.utf8ByteSize_append, ih, hone]
    rfl

theorem utf8ByteSize_ascii {s : String} (h : ∀ c ∈ s.toList, c.toNat < 128) :
    s.utf8ByteSize = s.toList.length := by
  have hone : s.toList.map Char.utf8Size = s.toList.map fun _ => 1 := by
    refine List.map_congr_left fun c hc => if_pos ?_
    exact UInt32.le_iff_toNat_le.mpr (Nat.le_of_lt_succ (h c hc))
  rw [← String.ofList_toList (s := s), utf8ByteSize_ofList, String.ofList_toList, hone,
    List.map_const']
  exact (List.sum_replicate_nat).trans (Nat.mul_one _)

/-! ### The characters of a literal -/

/-- The character of an ASCII byte is encoded as that byte. -/
theorem utf8EncodeChar_ofNat {b : UInt8} (h : b < 128) :
    String.utf8EncodeChar (Char.ofNat b.toNat) = [b] := by
  have hb : b.toNat < 128 := h
  have hval : (Char.ofNat b.toNat).toNat = b.toNat := by
    have hvalid : b.toNat.isValidChar := .inl (by omega)
    rw [Char.ofNat, dif_pos hvalid]
    rfl
  have hsmall : (Char.ofNat b.toNat).val.toNat ≤ 0x7F := by
    show (Char.ofNat b.toNat).toNat ≤ 0x7F
    omega
  simp only [String.utf8EncodeChar, hsmall, if_true]
  show [UInt8.ofNat (Char.ofNat b.toNat).toNat] = [b]
  rw [hval, UInt8.ofNat_toNat]

/-- The bytes of a text of ASCII bytes. -/
theorem toByteArray_ofList_ascii {bytes : List UInt8} (h : ∀ b ∈ bytes, b < 128) :
    (String.ofList (bytes.map fun b => Char.ofNat b.toNat)).toByteArray.data.toList = bytes := by
  have hflat : (String.ofList (bytes.map fun b => Char.ofNat b.toNat)).toByteArray.data.toList =
      (bytes.map fun b => Char.ofNat b.toNat).flatMap String.utf8EncodeChar := by
    simp [List.utf8Encode]
  rw [hflat, List.flatMap_map]
  clear hflat
  induction bytes with
  | nil => rfl
  | cons b bytes ih =>
    rw [List.flatMap_cons, utf8EncodeChar_ofNat (h b List.mem_cons_self),
      ih fun b' hb' => h b' (List.mem_cons_of_mem b hb')]
    rfl

/-- The characters of a string, read off its bytes if these are ASCII: a literal is evaluated
without decoding it. -/
def asciiChars (s : String) : List Char :=
  if s.toByteArray.data.toList.all (· < 128) then
    s.toByteArray.data.toList.map fun b => Char.ofNat b.toNat
  else s.toList

theorem toList_eq_asciiChars (s : String) : s.toList = asciiChars s := by
  unfold asciiChars
  split
  · rename_i hascii
    have hbytes := @toByteArray_ofList_ascii s.toByteArray.data.toList fun b hb =>
      of_decide_eq_true (List.all_eq_true.mp hascii b hb)
    have hsame : String.ofList (s.toByteArray.data.toList.map fun b => Char.ofNat b.toNat) = s := by
      rw [← String.toByteArray_inj]
      exact ByteArray.ext (Array.ext' hbytes)
    conv => lhs; rw [← hsame]
    exact String.toList_ofList
  · rfl

end OpenUI.Text
