import OpenUI.Helper.Https
import OpenUI.Proofs.Euicc.Coding
import OpenUI.Proofs.Text
import Mathlib.Data.List.Induction

/-!
# `OpenUI.Proofs.Helper.Chunks`: chunked bodies

One turn of `decode_chunked` looks at a line, and takes the chunk that the line announces. A size
that is too close to the end of a machine word makes the next position wrap around, which is the one
way in which decoding fails; otherwise it ends with the body, or with nothing when it is cut.

* `decodeChunkedFrom_eq`: the loop, turn by turn.
* `decodeChunked_total`: what decoding ends with, for any bytes.
* `decodeChunked_encoded`, `decodeChunked_cut`: an encoding, and what came of it so far.
-/

set_option autoImplicit false

namespace OpenUI.Helper.Https

open OpenUI.Euicc OpenUI.Text

-- The equations are stated here once, before the proofs that rewrite with them.
section
attribute [local simp] decodeChunkedFrom position
end

/-! ### Positions -/

theorem position_le {pattern bytes : Bytes} {i : Nat} (h : position pattern bytes = some i) :
    i + pattern.length ≤ bytes.length := by
  induction bytes generalizing i with
  | nil => cases h
  | cons b bytes ih =>
    rw [position] at h
    split at h
    · rename_i hstarts
      cases h
      have := hstarts.length_le
      omega
    · obtain ⟨j, hj, rfl⟩ := Option.map_eq_some_iff.mp h
      have := ih hj
      simp only [List.length_cons]
      omega

/-- What is found stays where it is, whatever follows. -/
theorem position_append {pattern bytes : Bytes} {i : Nat} (h : position pattern bytes = some i)
    (more : Bytes) : position pattern (bytes ++ more) = some i := by
  induction bytes generalizing i with
  | nil => cases h
  | cons b bytes ih =>
    rw [position] at h
    rw [List.cons_append, position]
    split at h
    · rename_i hstarts
      cases h
      exact if_pos (hstarts.trans (List.prefix_append (b :: bytes) more))
    · rename_i hno
      obtain ⟨j, hj, rfl⟩ := Option.map_eq_some_iff.mp h
      have hle := position_le hj
      -- What begins here would end before the place that was found.
      have hstill : ¬ pattern <+: b :: (bytes ++ more) := by
        intro hbad
        apply hno
        have hshort : pattern.length ≤ (b :: bytes).length := by
          simp only [List.length_cons]
          omega
        exact List.prefix_of_prefix_length_le hbad (List.prefix_append (b :: bytes) more) hshort
      rw [if_neg hstill, ih hj]
      rfl

/-- A line ends where it ends, if the end of a line is not in it. -/
theorem position_line {line : Bytes} (h : ¬ crlf <:+: line) (rest : Bytes) :
    position crlf (line ++ (crlf ++ rest)) = some line.length := by
  induction line with
  | nil => rfl
  | cons b line ih =>
    have hrest : ¬ crlf <:+: line := fun hbad => h (hbad.trans (List.suffix_cons b line).isInfix)
    rw [List.cons_append, position, ih hrest]
    have hno : ¬ crlf <+: b :: (line ++ (crlf ++ rest)) := by
      intro hbad
      -- The pattern could begin in the line only at its last byte, where a carriage return would
      -- have to be followed by another byte of the line.
      cases line with
      | nil =>
        simp [crlf] at hbad
      | cons c line =>
        have hfront : crlf <+: b :: c :: line := by
          simpa [crlf] using hbad
        exact h hfront.isInfix
    rw [if_neg hno]
    rfl

/-- A place that is found is the end of a line. -/
theorem split_at_position {bytes : Bytes} {i : Nat} (h : position crlf bytes = some i) :
    bytes = bytes.take i ++ (crlf ++ bytes.drop (i + 2)) := by
  induction bytes generalizing i with
  | nil => cases h
  | cons b bytes ih =>
    rw [position] at h
    split at h
    · rename_i hstarts
      cases h
      obtain ⟨rest, hrest⟩ := hstarts
      rw [← hrest]
      rfl
    · obtain ⟨j, hj, rfl⟩ := Option.map_eq_some_iff.mp h
      show b :: bytes = b :: (bytes.take j ++ (crlf ++ bytes.drop (j + 2)))
      rw [← ih hj]

/-! ### One turn -/

/-- What one turn of the loop finds. -/
inductive Turn where
  /-- Something is missing, or a line is no chunk's. -/
  | cut
  | finished
  /-- The size leaves no room for the position after the chunk. -/
  | overlong (size : Nat) (rest : Bytes)
  | next (chunk rest : Bytes)

/-- One turn behind a line, from the size that it announces. -/
def sizedTurn (rest : Bytes) : Option Nat → Turn
  | none => .cut
  | some size =>
    if size = 0 then if (position crlf rest).isSome then .finished else .cut
    else if UInt64.size ≤ size + 2 then .overlong size rest
    else if rest.length < size + 2 then .cut
    else .next (rest.take size) (rest.drop (size + 2))

section
attribute [local simp] sizedTurn
end

/-- One turn, without the sums. -/
def turn (body : Bytes) : Turn :=
  match position crlf body with
  | none => .cut
  | some lineEnd => sizedTurn (body.drop (lineEnd + 2)) (chunkSize (body.take lineEnd))

/-- What follows an overlong size, in a build that does not check. -/
def wrapped (checks : Bool) (size : Nat) (rest : Bytes) : Except Fault (Option Bytes) :=
  if checks then .error .overflow
  else if rest.length < (size + 2) % UInt64.size then .ok none
  else .error .outOfRange

/-- What the loop comes to after a turn. -/
def afterTurn (checks : Bool) (turns : Nat) (out : Bytes) : Turn → Except Fault (Option Bytes)
  | .cut => .ok none
  | .finished => .ok (some out)
  | .overlong size rest => wrapped checks size rest
  | .next chunk rest => decodeChunkedFrom checks turns (out ++ chunk) rest

section
attribute [local simp] afterTurn
end

theorem ok_bind {α β : Type} (a : α) (f : α → Except Fault β) :
    (Except.ok a >>= f) = f a := rfl

/-- The loop, turn by turn. -/
theorem decodeChunkedFrom_eq (checks : Bool) (turns : Nat) (out : Bytes) {body : Bytes}
    (hbody : body.length < 0x8000000000000000) :
    decodeChunkedFrom checks (turns + 1) out body = afterTurn checks turns out (turn body) := by
  rw [decodeChunkedFrom, turn]
  cases hpos : position crlf body with
  | none => rfl
  | some lineEnd =>
    have hle := position_le hpos
    have hcrlf : crlf.length = 2 := rfl
    have hto : sliceTo body lineEnd = .ok (body.take lineEnd) := if_pos (by omega)
    have hfrom : sliceFrom body (lineEnd + 2) = .ok (body.drop (lineEnd + 2)) :=
      if_pos (by omega)
    have hword : UInt64.size = 0x10000000000000000 := rfl
    dsimp only
    rw [hto, ok_bind]
    cases hsize : chunkSize (body.take lineEnd) with
    | none => rfl
    | some size =>
      have hdrop : (body.drop (lineEnd + 2)).length = body.length - (lineEnd + 2) :=
        List.length_drop
      dsimp only
      rw [hfrom, ok_bind]
      generalize body.drop (lineEnd + 2) = rest at hdrop ⊢
      rw [sizedTurn]
      by_cases hzero : size = 0
      · rw [if_pos hzero, if_pos hzero]
        cases position crlf rest <;> rfl
      · rw [if_neg hzero, if_neg hzero]
        -- The sum is the only place where a build that checks stops with a fault.
        by_cases hlong : UInt64.size ≤ size + 2
        · rw [if_pos hlong, add, if_neg (by omega)]
          cases checks with
          | true => rfl
          | false =>
            rw [if_neg (by decide), ok_bind]
            -- A build that does not check goes on with the sum that wrapped around, and cuts a
            -- slice whose end is too far.
            show _ = if rest.length < (size + 2) % UInt64.size then Except.ok none
              else .error Fault.outOfRange
            split
            · rfl
            · rw [sliceTo, if_neg (by omega)]
              rfl
        · rw [if_neg hlong, add, if_pos (by omega), ok_bind]
          split
          · rfl
          · rename_i henough
            rw [sliceTo, if_pos (by omega), ok_bind, sliceFrom, if_pos (by omega), ok_bind,
              afterTurn]

/-- A turn that goes on uses up some of the body. -/
theorem turn_next_length {body chunk rest : Bytes} (h : turn body = .next chunk rest) :
    rest.length < body.length := by
  unfold turn at h
  split at h
  · cases h
  · rename_i lineEnd hpos
    have hle := position_le hpos
    have hcrlf : crlf.length = 2 := rfl
    cases hsize : chunkSize (body.take lineEnd) with
    | none =>
      rw [hsize] at h
      cases h
    | some size =>
      rw [hsize, sizedTurn] at h
      split_ifs at h
      cases h
      rw [List.length_drop, List.length_drop]
      omega

/-! ### How decoding ends -/

/-- Behind whole chunks stands a line whose size leaves no room for the position after its chunk. -/
inductive Overlong : Bytes → Prop where
  | here {line rest : Bytes} {size : Nat} (hline : ¬ crlf <:+: line)
    (hsize : chunkSize line = some size) (hlong : UInt64.size ≤ size + 2) :
    Overlong (line ++ (crlf ++ rest))
  | later {line chunk stop rest : Bytes} (hline : ¬ crlf <:+: line)
    (hsize : chunkSize line = some chunk.length) (hchunk : chunk ≠ []) (hstop : stop.length = 2)
    (hrest : Overlong rest) : Overlong (line ++ (crlf ++ (chunk ++ (stop ++ rest))))

/-- Before the place that is found there is no end of a line. -/
theorem not_infix_take {bytes : Bytes} {i : Nat} (h : position crlf bytes = some i) :
    ¬ crlf <:+: bytes.take i := by
  induction bytes generalizing i with
  | nil => cases h
  | cons b bytes ih =>
    rw [position] at h
    split at h
    · cases h
      rw [List.take_zero]
      decide
    · rename_i hno
      obtain ⟨j, hj, rfl⟩ := Option.map_eq_some_iff.mp h
      rw [List.take_succ_cons, List.infix_cons_iff]
      -- The end of a line would start at the first byte, or behind it.
      rintro (hhere | hlater)
      · exact hno (hhere.trans (List.take_prefix (j + 1) (b :: bytes)))
      · exact ih hj hlater

/-- A turn at a line. -/
theorem turn_line {line : Bytes} (hline : ¬ crlf <:+: line) (rest : Bytes) :
    turn (line ++ (crlf ++ rest)) = sizedTurn rest (chunkSize line) := by
  have hdrop : (line ++ (crlf ++ rest)).drop (line.length + 2) = rest := by
    rw [← List.append_assoc]
    exact List.drop_left' (by simp [crlf])
  rw [turn, position_line hline]
  dsimp only
  rw [List.take_left, hdrop]

/-- The line that a turn looks at. -/
theorem exists_line {body : Bytes} {t : Turn} (h : turn body = t) (hwhole : t ≠ .cut) :
    ∃ line rest, body = line ++ (crlf ++ rest) ∧ ¬ crlf <:+: line := by
  cases hpos : position crlf body with
  | none =>
    rw [turn, hpos] at h
    exact absurd h.symm hwhole
  | some i => exact ⟨_, _, split_at_position hpos, not_infix_take hpos⟩

/-- A turn that finds a whole chunk. -/
theorem turn_next {body chunk rest : Bytes} (h : turn body = .next chunk rest) :
    ∃ line stop, body = line ++ (crlf ++ (chunk ++ (stop ++ rest))) ∧ ¬ crlf <:+: line ∧
      chunkSize line = some chunk.length ∧ chunk ≠ [] ∧ stop.length = 2 ∧
      chunk.length + 2 < UInt64.size := by
  obtain ⟨line, after, rfl, hline⟩ := exists_line h Turn.noConfusion
  rw [turn_line hline] at h
  cases hsize : chunkSize line with
  | none =>
    rw [hsize] at h
    cases h
  | some size =>
    rw [hsize, sizedTurn] at h
    split_ifs at h with hzero _ hlong hshort
    cases h
    have htake : (after.take size).length = size := by
      rw [List.length_take]
      omega
    -- The two bytes behind a chunk are passed over unread, whatever they are.
    refine ⟨line, (after.drop size).take 2, ?_, hline, ?_, ?_, ?_, ?_⟩
    · rw [← List.drop_drop, List.take_append_drop, List.take_append_drop]
    · rw [htake]
      exact hsize
    · intro hnil
      rw [hnil] at htake
      exact hzero htake.symm
    · rw [List.length_take, List.length_drop]
      omega
    · rw [htake]
      omega

/-- A turn at a line with its chunk. -/
theorem turn_chunk {line chunk stop rest : Bytes} (hline : ¬ crlf <:+: line)
    (hsize : chunkSize line = some chunk.length) (hchunk : chunk ≠ []) (hstop : stop.length = 2)
    (hfits : chunk.length + 2 < UInt64.size) :
    turn (line ++ (crlf ++ (chunk ++ (stop ++ rest)))) = .next chunk rest := by
  have hne : chunk.length ≠ 0 := mt List.eq_nil_of_length_eq_zero hchunk
  rw [turn_line hline, hsize, sizedTurn]
  rw [if_neg hne, if_neg (by omega), if_neg (by simp only [List.length_append]; omega),
    List.take_left]
  have hrest : (chunk ++ (stop ++ rest)).drop (chunk.length + 2) = rest := by
    rw [← List.append_assoc]
    exact List.drop_left' (by rw [List.length_append, hstop])
  rw [hrest]

theorem overlong_iff (body : Bytes) :
    Overlong body ↔ (∃ size rest, turn body = .overlong size rest) ∨
      ∃ chunk rest, turn body = .next chunk rest ∧ Overlong rest := by
  constructor
  · intro h
    cases h with
    | @here line rest size hline hsize hlong =>
      have hword : UInt64.size = 0x10000000000000000 := rfl
      refine .inl ⟨size, rest, ?_⟩
      rw [turn_line hline, hsize, sizedTurn, if_neg (by omega), if_pos hlong]
    | @later line chunk stop rest hline hsize hchunk hstop hrest =>
      -- A chunk that is in memory fits, unless it is as long as a machine word counts.
      by_cases hfits : chunk.length + 2 < UInt64.size
      · exact .inr ⟨chunk, rest, turn_chunk hline hsize hchunk hstop hfits, hrest⟩
      · refine .inl ⟨chunk.length, chunk ++ (stop ++ rest), ?_⟩
        rw [turn_line hline, hsize, sizedTurn]
        rw [if_neg (mt List.eq_nil_of_length_eq_zero hchunk), if_pos (by omega)]
  · rintro (⟨size, rest, h⟩ | ⟨chunk, rest, h, hrest⟩)
    · obtain ⟨line, after, rfl, hline⟩ := exists_line h Turn.noConfusion
      rw [turn_line hline] at h
      cases hsize : chunkSize line with
      | none =>
        rw [hsize] at h
        cases h
      | some size' =>
        rw [hsize, sizedTurn] at h
        split_ifs at h with hzero _ hlong
        exact .here hline hsize hlong
    · obtain ⟨line, stop, rfl, hline, hsize, hchunk, hstop, -⟩ := turn_next h
      exact .later hline hsize hchunk hstop hrest

/-- The loop of a build that checks ends with a result, or at an overlong size. -/
theorem decodeChunkedFrom_total (turns : Nat) (out : Bytes) {body : Bytes}
    (hbody : body.length < 0x8000000000000000) (hturns : body.length < turns) :
    (Overlong body ∧ decodeChunkedFrom true turns out body = .error .overflow) ∨
      ¬ Overlong body ∧ ∃ r, decodeChunkedFrom true turns out body = .ok r := by
  induction turns generalizing out body with
  | zero => omega
  | succ turns ih =>
    -- Induction on the turns: a turn that goes on leaves a shorter body.
    rw [decodeChunkedFrom_eq true turns out hbody, overlong_iff]
    cases hturn : turn body with
    | cut =>
      right
      exact ⟨by simp, _, rfl⟩
    | finished =>
      right
      exact ⟨by simp, _, rfl⟩
    | overlong size rest =>
      left
      exact ⟨.inl ⟨size, rest, rfl⟩, rfl⟩
    | next chunk rest =>
      have hless := turn_next_length hturn
      have hsmall : rest.length < 0x8000000000000000 := by omega
      rcases ih (out ++ chunk) hsmall (by omega) with ⟨hover, hend⟩ | ⟨hover, r, hend⟩
      · left
        exact ⟨.inr ⟨chunk, rest, rfl, hover⟩, hend⟩
      · right
        refine ⟨?_, r, hend⟩
        rintro (⟨_, _, h⟩ | ⟨_, _, h, hrest⟩)
        · cases h
        · cases h
          exact hover hrest

/-! ### Lines of an encoding -/

/-- The character of an ASCII byte. -/
def asciiChar (b : UInt8) : Char := Char.ofNat b.toNat

/-- The first line of a chunk: the size in hexadecimal digits, white space, and extensions. -/
def SizeLine (size : Nat) (line : Bytes) : Prop :=
  ∃ digits blanks extensions : Bytes, line = digits ++ (blanks ++ extensions) ∧ digits ≠ [] ∧
    digitsFrom hexValue 16 0 (digits.map asciiChar) = some size ∧
    (∀ b ∈ blanks, b = 0x20 ∨ b = 0x09) ∧ (extensions = [] ∨ extensions.head? = some 0x3B) ∧
    ¬ crlf <:+: line

theorem fromUtf8_eq_some {bytes : Bytes} {s : String} (h : fromUtf8 bytes = some s) :
    utf8 s = bytes ∧ s.toList = lossyChars bytes := by
  rw [fromUtf8] at h
  split at h
  · rename_i heq
    cases h
    exact ⟨heq, String.toList_ofList⟩
  · cases h

/-- ASCII bytes in front are characters in front. -/
theorem lossyChars_ascii_append {front : Bytes} (h : ∀ b ∈ front, b < 0x80) (rest : Bytes) :
    lossyChars (front ++ rest) = front.map asciiChar ++ lossyChars rest := by
  induction front with
  | nil => rfl
  | cons b front ih =>
    rw [List.cons_append, lossyChars_cons_ascii (h b List.mem_cons_self),
      ih fun b' hb' => h b' (List.mem_cons_of_mem b hb')]
    rfl

/-- What a hexadecimal digit is, and what it is not. -/
theorem hexValue_byte (b : UInt8) : (hexValue (asciiChar b)).isSome = true →
    b < 0x80 ∧ asciiChar b ≠ ';' ∧ asciiChar b ≠ '+' ∧ isWhitespace (asciiChar b) = false := by
  revert b
  exact forall_byte (by decide +kernel)

theorem digitsFrom_isSome {value : Char → Option Nat} {radix n m : Nat} {cs : List Char}
    (h : digitsFrom value radix n cs = some m) : ∀ c ∈ cs, (value c).isSome = true := by
  induction cs generalizing n with
  | nil => simp
  | cons c cs ih =>
    obtain ⟨d, hd, hrest⟩ := Option.bind_eq_some_iff.mp h
    intro c' hc'
    rcases List.mem_cons.mp hc' with rfl | hc'
    · rw [hd]
      rfl
    · exact ih hrest c' hc'

/-- White space at the end goes away, all of it. -/
theorem trimChars_append_blanks {cs : List Char} (blanks : List Char)
    (h : ∀ c ∈ blanks, isWhitespace c = true) : trimChars (cs ++ blanks) = trimChars cs := by
  induction blanks using List.reverseRecOn with
  | nil => rw [List.append_nil]
  | append_singleton blanks c ih =>
    rw [← List.append_assoc, trimChars_append_whitespace _ (h c (by simp)),
      ih fun c' hc' => h c' (List.mem_append_left _ hc')]

theorem trimChars_eq_self {cs : List Char} (h : ∀ c ∈ cs, isWhitespace c = false) :
    trimChars cs = cs := by
  have htrim : trim (String.ofList cs) = String.ofList cs := trim_eq_self (by
    rw [String.toList_ofList]
    exact h)
  have hchars := congrArg String.toList htrim
  rwa [trim, String.toList_ofList, String.toList_ofList] at hchars

/-- Digits without a sign. -/
theorem parseNumber_digits {value : Char → Option Nat} {radix bound n : Nat} {cs : List Char}
    (hne : cs ≠ []) (hsign : ∀ c ∈ cs, c ≠ '+') (hvalue : digitsFrom value radix 0 cs = some n)
    (hfits : n < bound) : parseNumber value radix bound cs = some n := by
  have hsame : withoutPlus cs = cs := by
    unfold withoutPlus
    split
    · exact absurd rfl (hsign '+' List.mem_cons_self)
    · rfl
  rw [parseNumber, hsame, if_neg hne, hvalue, Option.filter_some, if_pos (by simpa using hfits)]

/-- The size of a line that is text. -/
theorem chunkSize_line {size : Nat} {line : Bytes} (h : SizeLine size line)
    (hfits : size < UInt64.size) (htext : (fromUtf8 line).isSome) : chunkSize line = some size := by
  obtain ⟨digits, blanks, extensions, rfl, hne, hvalue, hblanks, hext, -⟩ := h
  obtain ⟨s, hs⟩ := Option.isSome_iff_exists.mp htext
  have hdigit : ∀ b ∈ digits, (hexValue (asciiChar b)).isSome = true := fun b hb =>
    digitsFrom_isSome hvalue _ (List.mem_map_of_mem hb)
  have hblank : ∀ b ∈ blanks, b < 0x80 ∧ asciiChar b ≠ ';' ∧ isWhitespace (asciiChar b) = true := by
    intro b hb
    rcases hblanks b hb with rfl | rfl <;> decide
  -- The text: the digits, the white space, and then nothing or a semicolon.
  have hchars : s.toList = digits.map asciiChar ++
      (blanks.map asciiChar ++ lossyChars extensions) := by
    rw [(fromUtf8_eq_some hs).2, lossyChars_ascii_append fun b hb =>
      (hexValue_byte b (hdigit b hb)).1,
      lossyChars_ascii_append fun b hb => (hblank b hb).1]
  -- Extensions start with the semicolon that ends the size.
  have hrest : (lossyChars extensions).takeWhile (· ≠ ';') = [] := by
    rcases hext with rfl | hext
    · rfl
    · obtain ⟨rest, rfl⟩ := List.head?_eq_some_iff.mp hext
      rw [lossyChars_cons_ascii (by decide)]
      rfl
  have hsemicolon : ∀ c ∈ digits.map asciiChar ++ blanks.map asciiChar,
      decide (c ≠ ';') = true := by
    intro c hc
    rw [decide_eq_true_eq]
    rcases List.mem_append.mp hc with hc | hc
    · obtain ⟨b, hb, rfl⟩ := List.mem_map.mp hc
      exact (hexValue_byte b (hdigit b hb)).2.1
    · obtain ⟨b, hb, rfl⟩ := List.mem_map.mp hc
      exact (hblank b hb).2.1
  rw [chunkSize, hs, Option.bind_some, hchars, ← List.append_assoc,
    List.takeWhile_append_of_pos hsemicolon, hrest, List.append_nil, trimChars_append_blanks,
    trimChars_eq_self]
  · apply parseNumber_digits _ _ hvalue hfits
    · intro hnil
      exact hne (List.map_eq_nil_iff.mp hnil)
    · intro c hc
      obtain ⟨b, hb, rfl⟩ := List.mem_map.mp hc
      exact (hexValue_byte b (hdigit b hb)).2.2.1
  · intro c hc
    obtain ⟨b, hb, rfl⟩ := List.mem_map.mp hc
    exact (hexValue_byte b (hdigit b hb)).2.2.2
  · intro c hc
    obtain ⟨b, hb, rfl⟩ := List.mem_map.mp hc
    exact (hblank b hb).2.2

theorem chunkSize_not_text {line : Bytes} (h : fromUtf8 line = none) : chunkSize line = none := by
  rw [chunkSize, h]
  rfl

/-! ### Encodings -/

/-- A chunk with its first line. -/
structure Chunk where
  line : Bytes
  data : Bytes

/-- A chunk of an encoding: some data that fits in memory, and a line with its size. -/
structure Chunk.Valid (c : Chunk) : Prop where
  some : c.data ≠ []
  fits : c.data.length < 0x8000000000000000
  size : SizeLine c.data.length c.line

/-- The chunks of an encoding, before the last one. -/
def encodedChunks (chunks : List Chunk) : Bytes :=
  chunks.flatMap fun c => c.line ++ (crlf ++ (c.data ++ crlf))

/-- A whole encoding: its chunks, the line of the last chunk, and a trailer that ends with the end
of a line. -/
def encoded (chunks : List Chunk) (last trailer : Bytes) : Bytes :=
  encodedChunks chunks ++ (last ++ (crlf ++ (trailer ++ crlf)))

/-- The body that was encoded. -/
def bodyOf (chunks : List Chunk) : Bytes := chunks.flatMap Chunk.data

theorem encodedChunks_cons (c : Chunk) (chunks : List Chunk) (rest : Bytes) :
    encodedChunks (c :: chunks) ++ rest =
      c.line ++ (crlf ++ (c.data ++ (crlf ++ (encodedChunks chunks ++ rest)))) := by
  rw [encodedChunks, List.flatMap_cons]
  simp only [List.append_assoc]
  rfl

/-- Whether the lines of an encoding are text. -/
def areText (chunks : List Chunk) (last : Bytes) : Bool :=
  chunks.all (fun c => (fromUtf8 c.line).isSome) && (fromUtf8 last).isSome

theorem position_isSome (bytes rest : Bytes) :
    (position crlf (bytes ++ (crlf ++ rest))).isSome := by
  induction bytes with
  | nil => rfl
  | cons b bytes ih =>
    rw [List.cons_append, position]
    split
    · rfl
    · rw [Option.isSome_map]
      exact ih

theorem SizeLine.not_infix {size : Nat} {line : Bytes} (h : SizeLine size line) :
    ¬ crlf <:+: line := by
  obtain ⟨_, _, _, _, _, _, _, _, hline⟩ := h
  exact hline

/-- A line that is no text ends decoding. -/
theorem turn_not_text {line : Bytes} (hline : ¬ crlf <:+: line) (h : fromUtf8 line = none)
    (rest : Bytes) : turn (line ++ (crlf ++ rest)) = .cut := by
  rw [turn_line hline, chunkSize_not_text h]
  rfl

/-- The last chunk of an encoding. -/
theorem turn_last {last : Bytes} (hlast : SizeLine 0 last) (htext : (fromUtf8 last).isSome)
    (trailer : Bytes) : turn (last ++ (crlf ++ (trailer ++ crlf))) = .finished := by
  have hend := position_isSome trailer []
  rw [List.append_nil] at hend
  rw [turn_line hlast.not_infix, chunkSize_line hlast (by decide) htext, sizedTurn, if_pos rfl,
    if_pos hend]

/-- A chunk that fits in memory leaves room for the position after it. -/
theorem turn_encoded {c : Chunk} (hc : c.Valid) (htext : (fromUtf8 c.line).isSome) (rest : Bytes) :
    turn (c.line ++ (crlf ++ (c.data ++ (crlf ++ rest)))) = .next c.data rest := by
  have hword : UInt64.size = 0x10000000000000000 := rfl
  have hfits := hc.fits
  exact turn_chunk hc.size.not_infix (chunkSize_line hc.size (by omega) htext) hc.some rfl
    (by omega)

/-- An encoding, chunk by chunk. -/
theorem decodeChunkedFrom_encoded (checks : Bool) (turns : Nat) (out : Bytes) {chunks : List Chunk}
    {last trailer : Bytes} (hchunks : ∀ c ∈ chunks, c.Valid) (hlast : SizeLine 0 last)
    (hbody : (encoded chunks last trailer).length < 0x8000000000000000)
    (hturns : (encoded chunks last trailer).length < turns) :
    decodeChunkedFrom checks turns out (encoded chunks last trailer) =
      .ok (if areText chunks last then some (out ++ bodyOf chunks) else none) := by
  induction chunks generalizing turns out with
  | nil =>
    cases turns with
    | zero => omega
    | succ turns =>
      rw [decodeChunkedFrom_eq checks turns out hbody]
      have hshape : encoded [] last trailer = last ++ (crlf ++ (trailer ++ crlf)) := rfl
      have htext : areText [] last = (fromUtf8 last).isSome := rfl
      -- The last line has to be text; where it is, its size is zero.
      rw [hshape, htext]
      cases hutf8 : fromUtf8 last with
      | none =>
        rw [turn_not_text hlast.not_infix hutf8]
        rfl
      | some s =>
        rw [turn_last hlast (by rw [hutf8]; rfl), bodyOf, List.flatMap_nil, List.append_nil]
        rfl
  | cons c chunks ih =>
    cases turns with
    | zero => omega
    | succ turns =>
      have hc := hchunks c List.mem_cons_self
      rw [decodeChunkedFrom_eq checks turns out hbody]
      have hshape : encoded (c :: chunks) last trailer = c.line ++ (crlf ++ (c.data ++ (crlf ++
          encoded chunks last trailer))) := encodedChunks_cons c chunks _
      have hlength := congrArg List.length hshape
      simp only [List.length_append] at hlength
      rw [hshape]
      cases hutf8 : fromUtf8 c.line with
      | none =>
        rw [turn_not_text hc.size.not_infix hutf8]
        simp [afterTurn, areText, hutf8]
      | some s =>
        have hcrlf : crlf.length = 2 := rfl
        -- One turn is one chunk, and its data goes to the end of what is decoded.
        rw [turn_encoded hc (by rw [hutf8]; rfl), afterTurn]
        rw [ih turns (out ++ c.data) (fun c' hc' => hchunks c' (List.mem_cons_of_mem c hc'))
          (by omega) (by omega)]
        simp [areText, hutf8, bodyOf]

/-- What came of a line and what follows it: the line is not whole yet, or it is. -/
theorem cut_at_line {body line after : Bytes} (hline : ¬ crlf <:+: line)
    (h : body <+: line ++ (crlf ++ after)) :
    turn body = .cut ∨ ∃ after', body = line ++ (crlf ++ after') ∧ after' <+: after := by
  obtain ⟨more, hmore⟩ := h
  by_cases hlength : body.length < line.length + 2
  · left
    -- The end of a line that is found in it would be the end of this line.
    have hnone : position crlf body = none := by
      cases hpos : position crlf body with
      | none => rfl
      | some i =>
        have hle := position_le hpos
        have hcrlf : crlf.length = 2 := rfl
        have hwhole := position_append hpos more
        rw [hmore, position_line hline] at hwhole
        cases hwhole
        omega
    rw [turn, hnone]
  · right
    have hfront : (line ++ crlf).length ≤ body.length := by
      rw [List.length_append]
      show line.length + 2 ≤ _
      omega
    rw [← List.append_assoc] at hmore
    obtain ⟨after', rfl⟩ : line ++ crlf <+: body :=
      List.prefix_of_prefix_length_le (List.prefix_append (line ++ crlf) after)
        ⟨more, hmore⟩ hfront
    refine ⟨after', List.append_assoc _ _ _, more, ?_⟩
    rw [List.append_assoc] at hmore
    exact List.append_cancel_left hmore

/-- What came of an encoding before its last line was followed by anything: nothing is decoded. -/
theorem decodeChunkedFrom_cut (checks : Bool) (turns : Nat) (out : Bytes) {chunks : List Chunk}
    {last body : Bytes} (hchunks : ∀ c ∈ chunks, c.Valid) (hlast : SizeLine 0 last)
    (hcut : body <+: encodedChunks chunks ++ (last ++ crlf))
    (hbody : body.length < 0x8000000000000000) (hturns : body.length < turns) :
    decodeChunkedFrom checks turns out body = .ok none := by
  have hword : UInt64.size = 0x10000000000000000 := rfl
  induction chunks generalizing turns out body with
  | nil =>
    cases turns with
    | zero => omega
    | succ turns =>
      rw [decodeChunkedFrom_eq checks turns out hbody]
      have hcut' : body <+: last ++ (crlf ++ []) := hcut
      rcases cut_at_line hlast.not_infix hcut' with hturn | ⟨after, rfl, hafter⟩
      · rw [hturn, afterTurn]
      · -- The last line is whole, but the end of its trailer is missing.
        rw [List.prefix_nil.mp hafter, turn_line hlast.not_infix]
        cases hutf8 : fromUtf8 last with
        | none =>
          rw [chunkSize_not_text hutf8]
          rfl
        | some s =>
          rw [chunkSize_line hlast (by decide) (by rw [hutf8]; rfl)]
          rfl
  | cons c chunks ih =>
    cases turns with
    | zero => omega
    | succ turns =>
      have hc := hchunks c List.mem_cons_self
      have hsmall := hc.fits
      rw [decodeChunkedFrom_eq checks turns out hbody]
      rw [encodedChunks_cons] at hcut
      rcases cut_at_line hc.size.not_infix hcut with hturn | ⟨after, rfl, hafter⟩
      · rw [hturn, afterTurn]
      · cases hutf8 : fromUtf8 c.line with
        | none => rw [turn_not_text hc.size.not_infix hutf8, afterTurn]
        | some s =>
          have hne : c.data.length ≠ 0 := mt List.eq_nil_of_length_eq_zero hc.some
          rw [turn_line hc.size.not_infix,
            chunkSize_line hc.size (by omega) (by rw [hutf8]; rfl), sizedTurn, if_neg hne,
            if_neg (by omega)]
          by_cases hshort : after.length < c.data.length + 2
          · -- The chunk or what ends it has not arrived.
            rw [if_pos hshort, afterTurn]
          · rw [if_neg hshort, afterTurn]
            -- The chunk is whole, so what is left is of the rest of the encoding.
            have hrest : after.drop (c.data.length + 2) <+:
                encodedChunks chunks ++ (last ++ crlf) := by
              have hdrop := hafter.drop (c.data.length + 2)
              rwa [← List.append_assoc, List.drop_left' (by
                rw [List.length_append]
                rfl)] at hdrop
            simp only [List.length_append] at hbody hturns
            apply ih turns _ (fun c' hc' => hchunks c' (List.mem_cons_of_mem c hc')) hrest
            · rw [List.length_drop]
              omega
            · rw [List.length_drop]
              omega

/-! ### More bytes -/

/-- A whole chunk is found again, whatever follows. -/
theorem turn_next_append {body chunk rest : Bytes} (h : turn body = .next chunk rest)
    (more : Bytes) : turn (body ++ more) = .next chunk (rest ++ more) := by
  obtain ⟨line, stop, rfl, hline, hsize, hchunk, hstop, hfits⟩ := turn_next h
  simp only [List.append_assoc]
  exact turn_chunk hline hsize hchunk hstop hfits

/-- So is the end. -/
theorem turn_finished_append {body : Bytes} (h : turn body = .finished) (more : Bytes) :
    turn (body ++ more) = .finished := by
  obtain ⟨line, rest, rfl, hline⟩ := exists_line h Turn.noConfusion
  simp only [List.append_assoc]
  rw [turn_line hline] at h ⊢
  cases hsize : chunkSize line with
  | none =>
    rw [hsize] at h
    cases h
  | some size =>
    rw [hsize, sizedTurn] at h
    rw [sizedTurn]
    by_cases hzero : size = 0
    · rw [if_pos hzero] at h ⊢
      cases hpos : position crlf rest with
      | none =>
        rw [hpos] at h
        cases h
      | some i =>
        rw [position_append hpos more]
        rfl
    · rw [if_neg hzero] at h
      split_ifs at h

/-- A decoded body is decoded again, whatever follows. -/
theorem decodeChunkedFrom_append {checks : Bool} {turns turns' : Nat} {out body decoded : Bytes}
    (h : decodeChunkedFrom checks turns out body = .ok (some decoded)) (more : Bytes)
    (hbody : (body ++ more).length < 0x8000000000000000) (hturns : body.length < turns)
    (hturns' : (body ++ more).length < turns') :
    decodeChunkedFrom checks turns' out (body ++ more) = .ok (some decoded) := by
  rw [List.length_append] at hbody hturns'
  induction turns generalizing turns' out body with
  | zero => omega
  | succ turns ih =>
    cases turns' with
    | zero => omega
    | succ turns' =>
      -- Turn by turn, both bodies are decoded the same.
      rw [decodeChunkedFrom_eq checks turns out (by omega)] at h
      rw [decodeChunkedFrom_eq checks turns' out (by rw [List.length_append]; omega)]
      cases hturn : turn body with
      | cut =>
        rw [hturn] at h
        cases h
      | finished =>
        rw [hturn] at h
        rw [turn_finished_append hturn]
        exact h
      | overlong size rest =>
        rw [hturn, afterTurn, wrapped] at h
        split_ifs at h
        cases h
      | next chunk rest =>
        have hless := turn_next_length hturn
        rw [hturn] at h
        rw [turn_next_append hturn]
        exact ih h (by omega) (by omega) (by omega)

end OpenUI.Helper.Https
