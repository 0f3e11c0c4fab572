import Mathlib.Data.List.TakeWhile
import OpenUI.Proofs.Euicc.Es9p

/-!
# `OpenUI.Proofs.Euicc.Es9pRoundTrip`: what is printed is read back

A printed byte is an escape with a letter, an escape with digits, or the byte itself. The grammar
reads each of them back as that byte, so a printed string is read back, then a printed member, and
then the whole object. Texts with a NUL in them are left out: the printer would cut them there.

* `printByte_cases`: the three shapes of a printed byte.
* `string_printString`: strings.
* `parse_printObject`: objects.
-/

set_option autoImplicit false

namespace OpenUI.Euicc.Es9p

/-! ### Bytes -/

/-- What is printed for a byte. -/
theorem printByte_cases (b : UInt8) :
    (∃ c, printByte b = [0x5C, c] ∧ simpleEscape c = some b) ∨
    (b ≤ 0x1F ∧ printByte b =
      [0x5C, 0x75, 0x30, 0x30, hexDigitByte (b >>> 4), hexDigitByte (b &&& 15)]) ∨
    (b ≠ 0x22 ∧ b ≠ 0x5C ∧ printByte b = [b]) := by
  rw [printByte]
  split
  · rename_i h
    exact .inl ⟨0x22, rfl, by rw [h]; rfl⟩
  split
  · rename_i h
    exact .inl ⟨0x5C, rfl, by rw [h]; rfl⟩
  split
  · rename_i h
    exact .inl ⟨0x62, rfl, by rw [h]; rfl⟩
  split
  · rename_i h
    exact .inl ⟨0x66, rfl, by rw [h]; rfl⟩
  split
  · rename_i h
    exact .inl ⟨0x6E, rfl, by rw [h]; rfl⟩
  split
  · rename_i h
    exact .inl ⟨0x72, rfl, by rw [h]; rfl⟩
  split
  · rename_i h
    exact .inl ⟨0x74, rfl, by rw [h]; rfl⟩
  split
  · rename_i h
    exact .inr (.inl ⟨h, rfl⟩)
  · rename_i hquote hslash _ _ _ _ _ _
    exact .inr (.inr ⟨hquote, hslash, rfl⟩)

/-- The digits of a control character are neither quotes nor backslashes, and spell it. -/
theorem control_digits (b : UInt8) (h : b ≤ 0x1F) :
    (hexDigitByte (b >>> 4) ≠ 0x22 ∧ hexDigitByte (b >>> 4) ≠ 0x5C ∧
      hexDigitByte (b &&& 15) ≠ 0x22 ∧ hexDigitByte (b &&& 15) ≠ 0x5C) ∧
    hex4 [0x30, 0x30, hexDigitByte (b >>> 4), hexDigitByte (b &&& 15)] = b.toNat := by
  revert h
  refine forall_byte (p := fun b => b ≤ 0x1F → (hexDigitByte (b >>> 4) ≠ 0x22 ∧
    hexDigitByte (b >>> 4) ≠ 0x5C ∧ hexDigitByte (b &&& 15) ≠ 0x22 ∧
    hexDigitByte (b &&& 15) ≠ 0x5C) ∧
    hex4 [0x30, 0x30, hexDigitByte (b >>> 4), hexDigitByte (b &&& 15)] = b.toNat) ?_ b
  decide +kernel

/-- The closing quote is not in what is printed for a byte. -/
theorem toQuote_printByte (b : UInt8) (rest : Bytes) :
    Grammar.toQuote (printByte b ++ rest) =
      (Grammar.toQuote rest).map fun p => (printByte b ++ p.1, p.2) := by
  rcases printByte_cases b with ⟨c, hprint, -⟩ | ⟨hb, hprint⟩ | ⟨hquote, hslash, hprint⟩
  · -- A simple escape is a backslash and one byte, which is stepped over.
    rw [hprint]
    exact toQuote_slash c rest
  · obtain ⟨⟨hhigh, hhigh', hlow, hlow'⟩, -⟩ := control_digits b hb
    rw [hprint]
    simp only [List.cons_append, List.nil_append]
    rw [toQuote_slash, toQuote_other (by decide) (by decide),
      toQuote_other (by decide) (by decide), toQuote_other hhigh hhigh',
      toQuote_other hlow hlow']
    simp only [Option.map_map, Function.comp_def]
  · rw [hprint]
    exact toQuote_other hquote hslash rest

/-- What is printed for a byte is read back as that byte. -/
theorem unescape_printByte (b : UInt8) (rest : Bytes) :
    Grammar.unescape (printByte b ++ rest) = (Grammar.unescape rest).map (b :: ·) := by
  rcases printByte_cases b with ⟨c, hprint, hsimple⟩ | ⟨hb, hprint⟩ | ⟨hquote, hslash, hprint⟩
  · rw [hprint]
    exact unescape_simple hsimple rest
  · obtain ⟨-, hdigits⟩ := control_digits b hb
    -- A control character is read back from its digits as one byte.
    have hsmall : b.toNat < 0x20 := Nat.lt_succ_of_le hb
    have hchar : String.utf8EncodeChar (Char.ofNat b.toNat) = [b] := by
      have hnat := toNat_charOfNat (n := b.toNat) (.inl (by omega))
      rw [utf8EncodeChar_ascii (by omega), asciiByte, hnat, UInt8.ofNat_toNat]
    rw [hprint]
    simp only [List.cons_append, List.nil_append]
    rw [unescape_single, hdigits, hchar]
    · rfl
    · rw [hdigits, Grammar.isLow, decide_eq_false (by omega)]
      rfl
    · rw [hdigits, Grammar.isHigh, decide_eq_false (by omega)]
      rfl
  · rw [hprint]
    exact unescape_copy hslash rest

/-! ### Strings -/

theorem toQuote_printed (body rest : Bytes) :
    Grammar.toQuote (body.flatMap printByte ++ 0x22 :: rest) =
      some (body.flatMap printByte, rest) := by
  induction body with
  | nil => exact toQuote_quote rest
  | cons b body ih =>
    rw [List.flatMap_cons, List.append_assoc, toQuote_printByte, ih]
    rfl

theorem unescape_printed (body : Bytes) :
    Grammar.unescape (body.flatMap printByte) = some body := by
  induction body with
  | nil => rfl
  | cons b body ih =>
    rw [List.flatMap_cons, unescape_printByte, ih]
    rfl

/-- A printed string, and what follows it. -/
theorem printString_append (body rest : Bytes) :
    printString body ++ rest = 0x22 :: (body.flatMap printByte ++ 0x22 :: rest) := by
  show 0x22 :: ((body.flatMap printByte ++ [0x22]) ++ rest) = _
  rw [List.append_assoc, List.singleton_append]

/-- Strings are read back behind their opening quote. -/
theorem string_printString (body rest : Bytes) :
    Grammar.string (body.flatMap printByte ++ 0x22 :: rest) = some (body, rest) := by
  rw [Grammar.string, toQuote_printed, Option.bind_some, unescape_printed]
  rfl

theorem skipWhitespace_cons {b : UInt8} (h : ¬ b ≤ 32) (rest : Bytes) :
    Grammar.skipWhitespace (b :: rest) = b :: rest :=
  List.dropWhile_cons_of_neg (by simpa using h)

theorem after_cons (b : UInt8) (rest : Bytes) : Grammar.after b (b :: rest) = some rest :=
  if_pos rfl

theorem skipWhitespace_printString (body rest : Bytes) :
    Grammar.skipWhitespace (printString body ++ rest) = printString body ++ rest := by
  rw [printString_append, skipWhitespace_cons (by decide)]

/-- Names are read back, with the colon behind them. -/
theorem memberName_printString (name value rest : Bytes) :
    Grammar.memberName (printString name ++ 0x3A :: (printString value ++ rest)) =
      some (name, printString value ++ rest) := by
  rw [printString_append, Grammar.memberName, after_cons, Option.bind_some, string_printString,
    Option.bind_some, skipWhitespace_cons (by decide), after_cons, Option.map_some,
    skipWhitespace_printString]

/-- String values are read back. -/
theorem value_printString (f depth : Nat) (body rest : Bytes) :
    Grammar.value (f + 1) depth (printString body ++ rest) = some (.str body, rest) := by
  have hkeyword : ∀ c word, c ≠ 0x22 →
      ¬ c :: word <+: 0x22 :: (body.flatMap printByte ++ 0x22 :: rest) := by
    intro c word hc h
    exact hc (List.cons_prefix_cons.mp h).1
  -- None of the keywords starts with a quote.
  rw [printString_append, Grammar.value, if_neg (hkeyword _ _ (by decide)),
    if_neg (hkeyword _ _ (by decide)), if_neg (hkeyword _ _ (by decide)), if_pos rfl,
    string_printString]
  rfl

/-! ### Objects -/

/-- A printed member, of bytes that have no NUL. -/
def printed (member : Bytes × Bytes) : Bytes :=
  printString member.1 ++ 0x3A :: printString member.2

/-- A printed object is its first member, and a comma before each of the others. -/
theorem intercalate_printed (member : Bytes × Bytes) (more : List (Bytes × Bytes)) :
    [0x2C].intercalate ((member :: more).map printed) =
      printed member ++ more.flatMap fun member => 0x2C :: printed member := by
  induction more generalizing member with
  | nil => simp
  | cons next more ih =>
    rw [List.map_cons, List.map_cons, List.intercalate_cons_cons, ← List.map_cons, ih,
      List.flatMap_cons, List.append_assoc]
    rfl

/-- Members are read back one by one, up to the end of their object. -/
theorem members_printed (f depth : Nat) (name value rest : Bytes) (more : List (Bytes × Bytes))
    (hf : more.length + 1 < f) :
    Grammar.members f depth name (printString value ++
        ((more.flatMap fun member => 0x2C :: printed member) ++ 0x7D :: rest)) =
      some ((name, .str value) :: more.map fun member => (member.1, .str member.2), rest) := by
  induction more generalizing f name value with
  | nil =>
    -- Induction on the members that are left. The last one is followed by the closing brace.
    obtain ⟨f, rfl⟩ : ∃ n, f = n + 2 := ⟨f - 2, by simp only [List.length_nil] at hf; omega⟩
    rw [Grammar.members, value_printString, Option.bind_some]
    rfl
  | cons next more ih =>
    obtain ⟨f, rfl⟩ : ∃ n, f = n + 2 := ⟨f - 2, by simp only [List.length_cons] at hf; omega⟩
    have hnext : ((next :: more).flatMap fun member => 0x2C :: printed member) ++ 0x7D :: rest =
        0x2C :: (printString next.1 ++ 0x3A :: (printString next.2 ++
          ((more.flatMap fun member => 0x2C :: printed member) ++ 0x7D :: rest))) := by
      rw [List.flatMap_cons, printed]
      simp only [List.cons_append, List.append_assoc]
    -- The comma leads to the next name, and its value is where the induction goes on.
    have hmore := ih (f + 1) next.1 next.2 (by simp only [List.length_cons] at hf; omega)
    rw [Grammar.members, value_printString, Option.bind_some, hnext,
      skipWhitespace_cons (by decide), after_cons, Option.elim_some, skipWhitespace_printString,
      memberName_printString, Option.bind_some, hmore]
    rfl

/-- Objects are read back, with nothing left behind them. -/
theorem value_printed (f : Nat) (members : List (Bytes × Bytes)) (hf : members.length + 1 < f) :
    Grammar.value (f + 1) 0 (0x7B :: ([0x2C].intercalate (members.map printed) ++ [0x7D])) =
      some (.obj (members.map fun member => (member.1, .str member.2)), []) := by
  have hkeyword : ∀ c word text, c ≠ 0x7B → ¬ c :: word <+: (0x7B :: text : Bytes) := by
    intro c word text hc h
    exact hc (List.cons_prefix_cons.mp h).1
  rw [Grammar.value, if_neg (hkeyword _ _ _ (by decide)), if_neg (hkeyword _ _ _ (by decide)),
    if_neg (hkeyword _ _ _ (by decide)), if_neg (by decide), if_neg (by decide),
    if_neg (by decide), if_neg (by decide), if_pos rfl]
  cases members with
  | nil => rfl
  | cons member more =>
    have hfirst : [0x2C].intercalate ((member :: more).map printed) ++ [0x7D] =
        printString member.1 ++ 0x3A :: (printString member.2 ++
          ((more.flatMap fun member => 0x2C :: printed member) ++ [0x7D])) := by
      rw [intercalate_printed, printed]
      simp only [List.cons_append, List.append_assoc]
    have hclose : Grammar.after 0x7D (printString member.1 ++ 0x3A :: (printString member.2 ++
        ((more.flatMap fun member => 0x2C :: printed member) ++ [0x7D]))) = none := by
      rw [printString_append]
      rfl
    have hmembers := members_printed f 1 member.1 member.2 [] more
      (by simp only [List.length_cons] at hf; omega)
    rw [hfirst, skipWhitespace_printString, hclose, memberName_printString, Option.bind_some,
      Option.map_none, Option.none_or, hmembers]
    rfl

/-! ### Texts without a NUL -/

/-- A text without a NUL has no zero byte. -/
theorem zero_notMem_utf8 {s : String} (h : Char.ofNat 0 ∉ s.toList) : 0 ∉ utf8 s := by
  intro hzero
  obtain ⟨before, after, hsplit⟩ := List.append_of_mem hzero
  -- A zero byte stands for the character of its own number, wherever it is in the text.
  have hchars := lossyChars_utf8 s
  rw [hsplit, lossyChars_ascii (by decide)] at hchars
  exact h (hchars ▸ List.mem_append_right _ List.mem_cons_self)

theorem cBytes_eq {bytes : Bytes} (h : 0 ∉ bytes) : cBytes bytes = bytes := by
  rw [cBytes, List.takeWhile_eq_self_iff]
  intro b hb
  have hne : b ≠ 0 := by
    intro hzero
    exact h (hzero ▸ hb)
  simpa using hne

theorem zero_notMem_printByte (b : UInt8) (hb : b ≠ 0) : 0 ∉ printByte b := by
  revert hb
  exact forall_byte (p := fun b => b ≠ 0 → 0 ∉ printByte b) (by decide +kernel) b

theorem zero_notMem_printString {body : Bytes} (h : 0 ∉ body) : 0 ∉ printString body := by
  intro hzero
  -- It would be one of the quotes, or in what is printed for a byte.
  rcases List.mem_cons.mp hzero with hzero | hzero
  · exact absurd hzero (by decide)
  rcases List.mem_append.mp hzero with hzero | hzero
  · obtain ⟨b, hb, hprinted⟩ := List.mem_flatMap.mp hzero
    have hne : b ≠ 0 := by
      intro hb0
      exact h (hb0 ▸ hb)
    exact zero_notMem_printByte b hne hprinted
  · exact absurd (List.mem_singleton.mp hzero) (by decide)

/-- The text of a printed object, whose members have no NUL. -/
theorem printObject_eq {members : List (String × String)}
    (hnul : ∀ member ∈ members,
      Char.ofNat 0 ∉ member.1.toList ∧ Char.ofNat 0 ∉ member.2.toList) :
    printObject (members.map fun member => (member.1, some member.2)) =
      0x7B :: ([0x2C].intercalate ((members.map fun member =>
        (utf8 member.1, utf8 member.2)).map printed) ++ [0x7D]) := by
  have hmembers : (members.map fun member => (member.1, some member.2)).map printMember =
      (members.map fun member => (utf8 member.1, utf8 member.2)).map printed := by
    rw [List.map_map, List.map_map]
    apply List.map_congr_left
    intro member hmember
    obtain ⟨hname, hvalue⟩ := hnul member hmember
    show printString (cBytes (utf8 member.1)) ++ 0x3A :: printString (cBytes (utf8 member.2)) =
      printString (utf8 member.1) ++ 0x3A :: printString (utf8 member.2)
    -- The printer takes C strings, which a NUL would cut short.
    rw [cBytes_eq (zero_notMem_utf8 hname), cBytes_eq (zero_notMem_utf8 hvalue)]
  rw [printObject, hmembers]
  rfl

/-- Nothing that is printed for an object ends it early. -/
theorem zero_notMem_printed {members : List (Bytes × Bytes)}
    (hzero : ∀ member ∈ members, 0 ∉ member.1 ∧ 0 ∉ member.2) :
    0 ∉ (0x7B :: ([0x2C].intercalate (members.map printed) ++ [0x7D]) : Bytes) := by
  have hmember : ∀ member ∈ members, 0 ∉ printed member := by
    intro member hmember h
    obtain ⟨hname, hvalue⟩ := hzero member hmember
    rcases List.mem_append.mp h with h | h
    · exact zero_notMem_printString hname h
    rcases List.mem_cons.mp h with h | h
    · exact absurd h (by decide)
    · exact zero_notMem_printString hvalue h
  have hbody : 0 ∉ [0x2C].intercalate (members.map printed) := by
    cases members with
    | nil => simp
    | cons member more =>
      rw [intercalate_printed]
      intro h
      rcases List.mem_append.mp h with h | h
      · exact hmember member List.mem_cons_self h
      · obtain ⟨next, hnext, h⟩ := List.mem_flatMap.mp h
        rcases List.mem_cons.mp h with h | h
        · exact absurd h (by decide)
        · exact hmember next (List.mem_cons_of_mem member hnext) h
  intro h
  rcases List.mem_cons.mp h with h | h
  · exact absurd h (by decide)
  rcases List.mem_append.mp h with h | h
  · exact hbody h
  · exact absurd (List.mem_singleton.mp h) (by decide)

/-- What is printed for an object of strings is read back as those strings, in order. -/
theorem parse_printObject (members : List (String × String))
    (hnul : ∀ member ∈ members,
      Char.ofNat 0 ∉ member.1.toList ∧ Char.ofNat 0 ∉ member.2.toList) :
    parse (printObject (members.map fun member => (member.1, some member.2))) =
      .ok (.obj (members.map fun member => (utf8 member.1, .str (utf8 member.2)))) := by
  have hbytes : ∀ member ∈ members.map fun member => (utf8 member.1, utf8 member.2),
      0 ∉ member.1 ∧ 0 ∉ member.2 := by
    intro member hmember
    obtain ⟨text, htext, rfl⟩ := List.mem_map.mp hmember
    obtain ⟨hname, hvalue⟩ := hnul text htext
    exact ⟨zero_notMem_utf8 hname, zero_notMem_utf8 hvalue⟩
  rw [printObject_eq hnul]
  generalize hpairs : members.map (fun member => (utf8 member.1, utf8 member.2)) = pairs at hbytes ⊢
  -- The parser takes a C string too.
  have htext := cBytes_eq (zero_notMem_printed hbytes)
  generalize hprint : (0x7B :: ([0x2C].intercalate (pairs.map printed) ++ [0x7D]) : Bytes) = text
    at htext ⊢
  have hvalue := value_printed (2 * text.length + pairs.length + 2) pairs (by omega)
  rw [hprint] at hvalue
  rw [parse_eq_value text (f := 2 * text.length + pairs.length + 2 + 1) (by rw [htext]; omega),
    htext]
  -- What is printed starts with a brace: no mark and no blank stand before it.
  have hmark : Grammar.dropMark text = text := by
    rw [← hprint]
    rfl
  have hskip : Grammar.skipWhitespace text = text := by
    rw [← hprint]
    exact skipWhitespace_cons (by decide) _
  rw [hmark, hskip, hvalue, ← hpairs, List.map_map]
  rfl

theorem parse_printObject_sample :
    parse (printObject ([("a", "\"\\\n\u0001é")].map fun member => (member.1, some member.2))) =
      .ok (.obj [(utf8 "a", .str (utf8 "\"\\\n\u0001é"))]) :=
  parse_printObject [("a", "\"\\\n\u0001é")] (by simp)

end OpenUI.Euicc.Es9p
