import OpenUI.Proofs.Euicc.Coding
import Mathlib.Data.List.TakeWhile

/-!
# `OpenUI.Proofs.Euicc.Base64`: base64, bit by bit

A base64 text is a stream of bits, six for each character, and the bytes are the same stream cut
into eights. `b64::decode` reads the stream of the leading run of characters, up to the last whole
byte.

* `decodeGroups_eq`: a group of characters at a time is the same as the stream.
* `decodeGroups_encode`: the groups that were encoded.
* `base64_decoding`: a whole text.
-/

set_option autoImplicit false

namespace OpenUI.Euicc

-- The equations are stated here once, before the proofs that rewrite with them.
section
attribute [local simp] decodeGroups sextets
end

/-! ### The stream of bits -/

/-- The lowest bits of a number, so many of them, the highest first. -/
def bits : Nat → Nat → List Bool
  | 0, _ => []
  | width + 1, n => bits width (n / 2) ++ [n % 2 == 1]

section
attribute [local simp] bits
end

/-- The number of some bits. -/
def ofBits (bs : List Bool) : Nat := bs.foldl (fun n b => 2 * n + b.toNat) 0

/-- The whole bytes of a stream of bits. -/
def wholeBytes : List Bool → Bytes
  | b7 :: b6 :: b5 :: b4 :: b3 :: b2 :: b1 :: b0 :: rest =>
    UInt8.ofNat (ofBits [b7, b6, b5, b4, b3, b2, b1, b0]) :: wholeBytes rest
  | _ => []

section
attribute [local simp] wholeBytes
end

/-- The leading run of characters of the standard alphabet. -/
def leadingRun (text : String) : Bytes := (utf8 text).takeWhile fun c => (sextet c).isSome

/-- The stream of a run of characters: six bits of each. -/
def stream (run : Bytes) : List Bool := run.flatMap fun c => bits 6 ((sextet c).getD 0).toNat

/-- A number below 64 is its six bits. -/
theorem bits_six (n : Nat) : bits 6 n = [n / 32 % 2 == 1, n / 16 % 2 == 1, n / 8 % 2 == 1,
    n / 4 % 2 == 1, n / 2 % 2 == 1, n % 2 == 1] := by
  simp [bits, Nat.div_div_eq_div_mul]

theorem bit_toNat (n : Nat) : (n % 2 == 1).toNat = n % 2 := by
  rcases Nat.mod_two_eq_zero_or_one n with h | h <;> rw [h] <;> rfl

/-! ### Groups of characters -/

theorem shiftLeft_eq {a shift : UInt8} {k n : Nat} (hshift : shift.toNat = k) (hk : k < 8)
    (hn : a.toNat <<< k % 256 = n <<< k) : (a <<< shift).toNat = n <<< k := by
  rw [UInt8.toNat_shiftLeft, hshift, Nat.mod_eq_of_lt hk]
  exact hn

theorem shiftRight_eq {a shift : UInt8} {k m : Nat} (hshift : shift.toNat = k) (hk : k < 8)
    (hm : 1 <<< k = m) : (a >>> shift).toNat = a.toNat / m := by
  rw [UInt8.toNat_shiftRight, hshift, Nat.mod_eq_of_lt hk, Nat.shiftRight_eq_div_pow, ← hm,
    Nat.one_shiftLeft]

/-- High bits and low bits that do not overlap. -/
theorem joined {x y : UInt8} {n k : Nat} (hx : x.toNat = n <<< k) (hy : y.toNat < 1 <<< k) :
    (x ||| y).toNat = n <<< k + y.toNat := by
  rw [UInt8.toNat_or, hx, Nat.shiftLeft_add_eq_or_of_lt (by rwa [Nat.one_shiftLeft] at hy)]

theorem first_byte {a b : UInt8} (ha : a.toNat < 64) (hb : b.toNat < 64) :
    (a <<< 2 ||| b >>> 4).toNat = a.toNat * 4 + b.toNat / 16 := by
  have hleft : (a <<< 2).toNat = a.toNat <<< 2 :=
    shiftLeft_eq rfl (by decide) (by rw [Nat.shiftLeft_eq]; omega)
  have hright : (b >>> 4).toNat = b.toNat / 16 := shiftRight_eq rfl (by decide) rfl
  rw [joined hleft (by rw [hright]; omega), hright, Nat.shiftLeft_eq]

theorem second_byte {b c : UInt8} (hc : c.toNat < 64) :
    (b <<< 4 ||| c >>> 2).toNat = b.toNat % 16 * 16 + c.toNat / 4 := by
  have hleft : (b <<< 4).toNat = (b.toNat % 16) <<< 4 :=
    shiftLeft_eq rfl (by decide) (by rw [Nat.shiftLeft_eq, Nat.shiftLeft_eq]; omega)
  have hright : (c >>> 2).toNat = c.toNat / 4 := shiftRight_eq rfl (by decide) rfl
  rw [joined hleft (by rw [hright]; omega), hright, Nat.shiftLeft_eq]

theorem third_byte {c d : UInt8} (hd : d.toNat < 64) :
    (c <<< 6 ||| d).toNat = c.toNat % 4 * 64 + d.toNat := by
  have hleft : (c <<< 6).toNat = (c.toNat % 4) <<< 6 :=
    shiftLeft_eq rfl (by decide) (by rw [Nat.shiftLeft_eq, Nat.shiftLeft_eq]; omega)
  rw [joined hleft hd, Nat.shiftLeft_eq]

/-- A byte is the number of its bits. -/
theorem ofNat_ofBits {b : UInt8} {bs : List Bool} (h : b.toNat = ofBits bs) :
    UInt8.ofNat (ofBits bs) = b := by
  rw [← h, UInt8.ofNat_toNat]

/-- Two, four or six bits of a number below 64, high or low, put together. -/
theorem high_two {n : Nat} (h : n < 64) : n / 32 % 2 * 2 + n / 16 % 2 = n / 16 := by omega

theorem high_four {n : Nat} (h : n < 64) :
    ((n / 32 % 2 * 2 + n / 16 % 2) * 2 + n / 8 % 2) * 2 + n / 4 % 2 = n / 4 := by
  rw [high_two h]
  omega

theorem all_six {n : Nat} (h : n < 64) :
    ((((n / 32 % 2 * 2 + n / 16 % 2) * 2 + n / 8 % 2) * 2 + n / 4 % 2) * 2 + n / 2 % 2) * 2 +
      n % 2 = n := by
  rw [high_four h]
  omega

theorem low_two (n : Nat) : n / 2 % 2 * 2 + n % 2 = n % 4 := by omega

theorem low_four (n : Nat) :
    ((n / 8 % 2 * 2 + n / 4 % 2) * 2 + n / 2 % 2) * 2 + n % 2 = n % 16 := by omega

/-- A group of characters at a time is the same as the stream, cut into bytes. -/
theorem decodeGroups_eq (ss : Bytes) (h : ∀ s ∈ ss, s.toNat < 64) :
    decodeGroups ss = wholeBytes (ss.flatMap fun s => bits 6 s.toNat) := by
  -- The three kinds of bytes in a group: six bits and two, four and four, two and six.
  have hfirst : ∀ a ∈ ss, ∀ b ∈ ss, UInt8.ofNat (ofBits [a.toNat / 32 % 2 == 1,
      a.toNat / 16 % 2 == 1, a.toNat / 8 % 2 == 1, a.toNat / 4 % 2 == 1, a.toNat / 2 % 2 == 1,
      a.toNat % 2 == 1, b.toNat / 32 % 2 == 1, b.toNat / 16 % 2 == 1]) = a <<< 2 ||| b >>> 4 := by
    intro a ha b hb
    have ha' := h a ha
    have hb' := h b hb
    apply ofNat_ofBits
    have hsix := all_six ha'
    have htwo := high_two hb'
    rw [first_byte ha' hb']
    simp only [ofBits, List.foldl_cons, List.foldl_nil, bit_toNat]
    generalize a.toNat / 32 % 2 = a₅, a.toNat / 16 % 2 = a₄, a.toNat / 8 % 2 = a₃,
      a.toNat / 4 % 2 = a₂, a.toNat / 2 % 2 = a₁, a.toNat % 2 = a₀ at hsix ⊢
    generalize b.toNat / 32 % 2 = b₅, b.toNat / 16 % 2 = b₄, b.toNat / 16 = high at htwo ⊢
    omega
  have hsecond : ∀ b ∈ ss, ∀ c ∈ ss, UInt8.ofNat (ofBits [b.toNat / 8 % 2 == 1,
      b.toNat / 4 % 2 == 1, b.toNat / 2 % 2 == 1, b.toNat % 2 == 1, c.toNat / 32 % 2 == 1,
      c.toNat / 16 % 2 == 1, c.toNat / 8 % 2 == 1, c.toNat / 4 % 2 == 1]) =
        b <<< 4 ||| c >>> 2 := by
    intro b hb c hc
    have hc' := h c hc
    apply ofNat_ofBits
    have hlow := low_four b.toNat
    have hhigh := high_four hc'
    rw [second_byte hc']
    simp only [ofBits, List.foldl_cons, List.foldl_nil, bit_toNat]
    generalize b.toNat / 8 % 2 = b₃, b.toNat / 4 % 2 = b₂, b.toNat / 2 % 2 = b₁,
      b.toNat % 2 = b₀, b.toNat % 16 = low at hlow ⊢
    generalize c.toNat / 32 % 2 = c₅, c.toNat / 16 % 2 = c₄, c.toNat / 8 % 2 = c₃,
      c.toNat / 4 % 2 = c₂, c.toNat / 4 = high at hhigh ⊢
    omega
  have hthird : ∀ c ∈ ss, ∀ d ∈ ss, UInt8.ofNat (ofBits [c.toNat / 2 % 2 == 1, c.toNat % 2 == 1,
      d.toNat / 32 % 2 == 1, d.toNat / 16 % 2 == 1, d.toNat / 8 % 2 == 1, d.toNat / 4 % 2 == 1,
      d.toNat / 2 % 2 == 1, d.toNat % 2 == 1]) = c <<< 6 ||| d := by
    intro c hc d hd
    have hd' := h d hd
    apply ofNat_ofBits
    have htwo := low_two c.toNat
    have hsix := all_six hd'
    rw [third_byte hd']
    simp only [ofBits, List.foldl_cons, List.foldl_nil, bit_toNat]
    generalize c.toNat / 2 % 2 = c₁, c.toNat % 2 = c₀, c.toNat % 4 = low at htwo ⊢
    generalize d.toNat / 32 % 2 = d₅, d.toNat / 16 % 2 = d₄, d.toNat / 8 % 2 = d₃,
      d.toNat / 4 % 2 = d₂, d.toNat / 2 % 2 = d₁, d.toNat % 2 = d₀ at hsix ⊢
    omega
  simp only [bits_six]
  fun_induction decodeGroups ss with
  | case1 a b c d rest ih =>
    -- Four characters are three bytes, and the rest of the run starts a byte of its own.
    have hrest := ih (by grind) (by grind) (by grind) (by grind)
    simp only [List.flatMap_cons, List.cons_append, List.nil_append]
    rw [wholeBytes, wholeBytes, wholeBytes, ← hrest, hfirst a (by simp) b (by simp),
      hsecond b (by simp) c (by simp), hthird c (by simp) d (by simp)]
  | case2 a b c =>
    simp only [List.flatMap_cons, List.flatMap_nil, List.cons_append, List.nil_append]
    -- The last two bits are no byte.
    rw [wholeBytes, wholeBytes, hfirst a (by simp) b (by simp), hsecond b (by simp) c (by simp)]
    rfl
  | case3 a b =>
    simp only [List.flatMap_cons, List.flatMap_nil, List.cons_append, List.nil_append]
    rw [wholeBytes, hfirst a (by simp) b (by simp)]
    rfl
  | case4 ss hfour hthree htwo =>
    -- At most one character is left, which is no whole byte.
    cases ss with
    | nil => rfl
    | cons a ss =>
      cases ss with
      | nil => rfl
      | cons b ss =>
        cases ss with
        | nil => exact absurd rfl (htwo a b)
        | cons c ss =>
          cases ss with
          | nil => exact absurd rfl (hthree a b c)
          | cons d ss => exact absurd rfl (hfour a b c d ss)

theorem sextet_lt {c s : UInt8} (h : sextet c = some s) : s.toNat < 64 := by
  have hall : ∀ c : UInt8, (sextet c).all (fun s => decide (s.toNat < 64)) = true :=
    forall_byte (by decide +kernel)
  have hc := hall c
  rw [h, Option.all_some] at hc
  exact of_decide_eq_true hc

/-- The values that are read are those of the leading run. -/
theorem sextets_eq (cs : Bytes) :
    sextets cs = (cs.takeWhile fun c => (sextet c).isSome).map fun c => (sextet c).getD 0 := by
  induction cs with
  | nil => rfl
  | cons c cs ih =>
    rw [sextets]
    cases hc : sextet c with
    | none => simp [hc]
    | some s => simp [hc, ih]

/-- A text decodes to the whole bytes of the stream of its leading run. -/
theorem decodeBase64_eq (text : String) :
    decodeBase64 text = wholeBytes (stream (leadingRun text)) := by
  rw [decodeBase64, sextets_eq, decodeGroups_eq, List.flatMap_map, stream, leadingRun]
  -- Every value of the run has six bits.
  intro s hs
  obtain ⟨c, hc, rfl⟩ := List.mem_map.mp hs
  have hsome := List.mem_takeWhile_imp hc
  obtain ⟨s, hs⟩ := Option.isSome_iff_exists.mp hsome
  rw [hs]
  exact sextet_lt hs

/-! ### What was encoded -/

theorem alphabetChar_ascii (s : UInt8) : (alphabetChar s).toNat < 0x80 := by
  revert s
  exact forall_byte (by decide +kernel)

/-- Each value is read back from its character. -/
theorem sextet_alphabetChar {s : UInt8} (h : s.toNat < 64) :
    sextet (asciiByte (alphabetChar s)) = some s := by
  have hall : ∀ s : UInt8, s.toNat < 64 → sextet (asciiByte (alphabetChar s)) = some s :=
    forall_byte (by decide +kernel)
  exact hall s h

theorem sextets_alphabetChar {s : UInt8} (h : s.toNat < 64) (cs : Bytes) :
    sextets (asciiByte (alphabetChar s) :: cs) = s :: sextets cs := by
  rw [sextets, sextet_alphabetChar h]

/-- Padding ends the run. -/
theorem sextets_padding (cs : Bytes) : sextets (asciiByte '=' :: cs) = [] := rfl

theorem encodeGroups_ascii (bin : Bytes) : ∀ c ∈ encodeGroups bin, c.toNat < 0x80 := by
  have hpadding : ('=' : Char).toNat < 0x80 := by decide
  fun_induction encodeGroups bin with
  | case1 a b c rest ih =>
    intro x hx
    simp only [List.mem_cons] at hx
    rcases hx with rfl | rfl | rfl | rfl | hx
    · exact alphabetChar_ascii _
    · exact alphabetChar_ascii _
    · exact alphabetChar_ascii _
    · exact alphabetChar_ascii _
    · exact ih x hx
  | case2 a b =>
    intro x hx
    simp only [List.mem_cons, List.not_mem_nil, or_false] at hx
    rcases hx with rfl | rfl | rfl | rfl
    · exact alphabetChar_ascii _
    · exact alphabetChar_ascii _
    · exact alphabetChar_ascii _
    · exact hpadding
  | case3 a =>
    intro x hx
    simp only [List.mem_cons, List.not_mem_nil, or_false] at hx
    rcases hx with rfl | rfl | rfl | rfl
    · exact alphabetChar_ascii _
    · exact alphabetChar_ascii _
    · exact hpadding
    · exact hpadding
  | case4 =>
    intro x hx
    cases hx

theorem and_0x3F_lt (b : UInt8) : (b &&& 0x3F).toNat < 64 := by
  have h : (b &&& 0x3F).toNat = b.toNat % 64 := carried_eq b
  omega

section Values

variable (a b : UInt8)

/-- The first value of three bytes. -/
theorem toNat_first : (a >>> 2).toNat = a.toNat / 4 := shiftRight_eq rfl (by decide) rfl

/-- The second value: what is left of the first byte, and the front of the second. -/
theorem toNat_second : ((a <<< 4 ||| b >>> 4) &&& 0x3F).toNat =
    a.toNat % 4 * 16 + b.toNat / 16 := by
  have hb := b.toNat_lt
  have hleft : (a <<< 4).toNat = (a.toNat % 16) <<< 4 :=
    shiftLeft_eq rfl (by decide) (by rw [Nat.shiftLeft_eq, Nat.shiftLeft_eq]; omega)
  have hright : (b >>> 4).toNat = b.toNat / 16 := shiftRight_eq rfl (by decide) rfl
  have hmask : ((a <<< 4 ||| b >>> 4) &&& 0x3F).toNat = (a <<< 4 ||| b >>> 4).toNat % 64 :=
    carried_eq _
  rw [hmask, joined hleft (by rw [hright]; omega), hright, Nat.shiftLeft_eq]
  omega

/-- The third value: what is left of the second byte, and the front of the third. -/
theorem toNat_third : ((a <<< 2 ||| b >>> 6) &&& 0x3F).toNat = a.toNat % 16 * 4 + b.toNat / 64 := by
  have hb := b.toNat_lt
  have hleft : (a <<< 2).toNat = (a.toNat % 64) <<< 2 :=
    shiftLeft_eq rfl (by decide) (by rw [Nat.shiftLeft_eq, Nat.shiftLeft_eq]; omega)
  have hright : (b >>> 6).toNat = b.toNat / 64 := shiftRight_eq rfl (by decide) rfl
  have hmask : ((a <<< 2 ||| b >>> 6) &&& 0x3F).toNat = (a <<< 2 ||| b >>> 6).toNat % 64 :=
    carried_eq _
  rw [hmask, joined hleft (by rw [hright]; omega), hright, Nat.shiftLeft_eq]
  omega

/-- The fourth value. -/
theorem toNat_fourth : (a &&& 0x3F).toNat = a.toNat % 64 := carried_eq a

end Values

/-- The groups that were encoded. -/
theorem decodeGroups_encode (bin : Bytes) :
    decodeGroups (sextets ((encodeGroups bin).map asciiByte)) = bin := by
  -- The front of a byte has six bits without a mask; the other values are masked.
  have hfront : ∀ a : UInt8, (a >>> 2).toNat < 64 := by
    intro a
    have ha := a.toNat_lt
    rw [toNat_first]
    omega
  -- Each byte is put together again of the values it was cut into.
  have hbyte₁ : ∀ a b : UInt8,
      (a >>> 2) <<< 2 ||| ((a <<< 4 ||| b >>> 4) &&& 0x3F) >>> 4 = a := by
    intro a b
    have hb := b.toNat_lt
    apply UInt8.toNat_inj.mp
    rw [first_byte (hfront a) (and_0x3F_lt _), toNat_first, toNat_second]
    omega
  have hbyte₂ : ∀ a b c : UInt8, ((a <<< 4 ||| b >>> 4) &&& 0x3F) <<< 4 |||
      ((b <<< 2 ||| c >>> 6) &&& 0x3F) >>> 2 = b := by
    intro a b c
    have hb := b.toNat_lt
    have hc := c.toNat_lt
    apply UInt8.toNat_inj.mp
    rw [second_byte (and_0x3F_lt _), toNat_second, toNat_third]
    omega
  have hbyte₃ : ∀ b c : UInt8, ((b <<< 2 ||| c >>> 6) &&& 0x3F) <<< 6 ||| (c &&& 0x3F) = c := by
    intro b c
    have hc := c.toNat_lt
    apply UInt8.toNat_inj.mp
    rw [third_byte (and_0x3F_lt _), toNat_third, toNat_fourth]
    omega
  fun_induction encodeGroups bin with
  | case1 a b c rest ih =>
    simp only [List.map_cons, sextets_alphabetChar (hfront a), sextets_alphabetChar (and_0x3F_lt _)]
    rw [decodeGroups, ih, hbyte₁, hbyte₂, hbyte₃]
  | case2 a b =>
    simp only [List.map_cons, sextets_alphabetChar (hfront a),
      sextets_alphabetChar (and_0x3F_lt _), sextets_padding]
    rw [decodeGroups, hbyte₁]
    -- Two bytes are encoded as three would be, with zeros for the last.
    have hlast := hbyte₂ a b 0
    simp only [UInt8.zero_shiftRight, UInt8.or_zero] at hlast
    rw [hlast]
  | case3 a =>
    simp only [List.map_cons, sextets_alphabetChar (hfront a),
      sextets_alphabetChar (and_0x3F_lt _), sextets_padding]
    rw [decodeGroups]
    have hlast := hbyte₁ a 0
    simp only [UInt8.zero_shiftRight, UInt8.or_zero] at hlast
    rw [hlast]
  | case4 => rfl

/-- Decoding undoes encoding. Of any text, the leading run of alphabet characters is decoded, up to
its last whole byte, and nothing else is looked at. -/
theorem base64_decoding :
    (∀ bin : Bytes, decodeBase64 (encodeBase64 bin) = bin) ∧
    (∀ text : String, decodeBase64 text = wholeBytes (stream (leadingRun text))) ∧
    ∀ text text' : String, leadingRun text = leadingRun text' →
      decodeBase64 text = decodeBase64 text' := by
  refine ⟨?_, decodeBase64_eq, ?_⟩
  · intro bin
    rw [decodeBase64, encodeBase64, utf8_ofList_ascii (encodeGroups_ascii bin),
      decodeGroups_encode]
  · intro text text' h
    rw [decodeBase64_eq, decodeBase64_eq, h]

/-- Padding, and characters of another alphabet. -/
theorem base64_decoding_sample : decodeBase64 "TWE=" = decodeBase64 "TWE-x" :=
  base64_decoding.2.2 "TWE=" "TWE-x" (by decide +kernel)

end OpenUI.Euicc
