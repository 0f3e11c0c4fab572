import OpenUI.Euicc.Coding

/-!
# `OpenUI.Proofs.Euicc.Coding`: lossy decoding undoes encoding

`String::from_utf8_lossy` reads what `str::as_bytes` writes, and an ASCII byte is never part of a
longer character, so a text may be decoded piece by piece around the ASCII bytes in it.

* `lossyChars_ascii`: around an ASCII byte.
* `lossyChars_encodeChar`: one character; the cases are the four lengths of an encoding.
* `fromUtf8Lossy_utf8`: a whole text.
-/

set_option autoImplicit false

namespace OpenUI.Euicc

-- The equations are stated here once, before the proofs that rewrite with them.
section
attribute [local simp] lossyChars
end

/-! ### Around ASCII -/

/-- A byte that follows a first byte is not ASCII. -/
theorem isFollowed_ascii (a : UInt8) {c : UInt8} (hc : c < 0x80) : isFollowed a c = false := by
  have hc' : c.toNat < 128 := UInt8.lt_iff_toNat_lt.mp hc
  have hnot : ∀ n : UInt8, 128 ≤ n.toNat → (n ≤ c) = False := by
    intro n hn
    simp only [UInt8.le_iff_toNat_le, eq_iff_iff, iff_false]
    omega
  unfold isFollowed isContinuation
  simp [hnot 0xA0 (by decide), hnot 0x80 (by decide), hnot 0x90 (by decide)]

theorem isContinuation_ascii {c : UInt8} (hc : c < 0x80) : isContinuation c = false := by
  have hc' : c.toNat < 128 := UInt8.lt_iff_toNat_lt.mp hc
  simp only [isContinuation, Bool.and_eq_false_iff, decide_eq_false_iff_not, UInt8.not_le]
  exact .inl hc

/-! ### The branches of the decoder -/

section Branches

/-- What two, three or four bytes in front come to, for every branch of the decoder. -/
theorem lossyChars_branches (a b c d : UInt8) (rest : Bytes) (ha : ¬a < 0x80) :
    (isFollowed a b = false → lossyChars (a :: b :: rest) = replacement :: lossyChars (b :: rest)) ∧
    (isFollowed a b = true → a < 0xE0 → lossyChars (a :: b :: rest) =
      Char.ofNat ((a &&& 0x1F).toNat * 0x40 + carried b) :: lossyChars rest) ∧
    (isFollowed a b = true → ¬a < 0xE0 →
      (isContinuation c = false →
        lossyChars (a :: b :: c :: rest) = replacement :: lossyChars (c :: rest)) ∧
      (isContinuation c = true → a < 0xF0 → lossyChars (a :: b :: c :: rest) =
        Char.ofNat (((a &&& 0x0F).toNat * 0x40 + carried b) * 0x40 + carried c) ::
          lossyChars rest) ∧
      (isContinuation c = true → ¬a < 0xF0 →
        (isContinuation d = false →
          lossyChars (a :: b :: c :: d :: rest) = replacement :: lossyChars (d :: rest)) ∧
        (isContinuation d = true → lossyChars (a :: b :: c :: d :: rest) =
          Char.ofNat ((((a &&& 0x07).toNat * 0x40 + carried b) * 0x40 + carried c) * 0x40 +
            carried d) :: lossyChars rest))) := by
  refine ⟨fun hb => ?_, fun hb h2 => ?_, fun hb h2 => ⟨fun hc => ?_, fun hc h3 => ?_,
    fun hc h3 => ⟨fun hd => ?_, fun hd => ?_⟩⟩⟩
  · rw [lossyChars.eq_def]
    simp only [ha, hb, if_false, Bool.not_false, if_true]
  · rw [lossyChars.eq_def]
    simp only [ha, hb, h2, if_false, Bool.not_true, Bool.false_eq_true, if_true]
  · rw [lossyChars.eq_def]
    simp only [ha, hb, h2, hc, if_false, Bool.not_true, Bool.not_false, Bool.false_eq_true, if_true]
  · rw [lossyChars.eq_def]
    simp only [ha, hb, h2, hc, h3, if_false, Bool.not_true, Bool.false_eq_true, if_true]
  · rw [lossyChars.eq_def]
    simp only [ha, hb, h2, hc, h3, hd, if_false, Bool.not_true, Bool.not_false, Bool.false_eq_true,
      if_true]
  · rw [lossyChars.eq_def]
    simp only [ha, hb, h2, hc, h3, hd, if_false, Bool.not_true, Bool.false_eq_true]

variable {a b c d : UInt8}

/-- An ASCII byte in front. -/
theorem lossyChars_cons_ascii (ha : a < 0x80) (rest : Bytes) :
    lossyChars (a :: rest) = Char.ofNat a.toNat :: lossyChars rest := by
  cases rest with
  | nil => simp [lossyChars, ha]
  | cons b rest =>
    rw [lossyChars.eq_def]
    simp only [ha, if_true]

/-- A first byte that is not followed by what it needs. -/
theorem lossyChars_broken (ha : ¬a < 0x80) (hb : isFollowed a b = false) (rest : Bytes) :
    lossyChars (a :: b :: rest) = replacement :: lossyChars (b :: rest) :=
  (lossyChars_branches a b 0 0 rest ha).1 hb

/-- Two bytes. -/
theorem lossyChars_two (ha : ¬a < 0x80) (hb : isFollowed a b = true) (h2 : a < 0xE0)
    (rest : Bytes) :
    lossyChars (a :: b :: rest) =
      Char.ofNat ((a &&& 0x1F).toNat * 0x40 + carried b) :: lossyChars rest :=
  (lossyChars_branches a b 0 0 rest ha).2.1 hb h2

/-- The third byte is missing. -/
theorem lossyChars_broken_third (ha : ¬a < 0x80) (hb : isFollowed a b = true) (h2 : ¬a < 0xE0)
    (hc : isContinuation c = false) (rest : Bytes) :
    lossyChars (a :: b :: c :: rest) = replacement :: lossyChars (c :: rest) :=
  ((lossyChars_branches a b c 0 rest ha).2.2 hb h2).1 hc

/-- Three bytes. -/
theorem lossyChars_three (ha : ¬a < 0x80) (hb : isFollowed a b = true) (h2 : ¬a < 0xE0)
    (hc : isContinuation c = true) (h3 : a < 0xF0) (rest : Bytes) :
    lossyChars (a :: b :: c :: rest) =
      Char.ofNat (((a &&& 0x0F).toNat * 0x40 + carried b) * 0x40 + carried c) ::
        lossyChars rest :=
  ((lossyChars_branches a b c 0 rest ha).2.2 hb h2).2.1 hc h3

/-- The fourth byte is missing. -/
theorem lossyChars_broken_fourth (ha : ¬a < 0x80) (hb : isFollowed a b = true) (h2 : ¬a < 0xE0)
    (hc : isContinuation c = true) (h3 : ¬a < 0xF0) (hd : isContinuation d = false)
    (rest : Bytes) :
    lossyChars (a :: b :: c :: d :: rest) = replacement :: lossyChars (d :: rest) :=
  (((lossyChars_branches a b c d rest ha).2.2 hb h2).2.2 hc h3).1 hd

/-- Four bytes. -/
theorem lossyChars_four (ha : ¬a < 0x80) (hb : isFollowed a b = true) (h2 : ¬a < 0xE0)
    (hc : isContinuation c = true) (h3 : ¬a < 0xF0) (hd : isContinuation d = true)
    (rest : Bytes) :
    lossyChars (a :: b :: c :: d :: rest) =
      Char.ofNat ((((a &&& 0x07).toNat * 0x40 + carried b) * 0x40 + carried c) * 0x40 +
        carried d) :: lossyChars rest :=
  (((lossyChars_branches a b c d rest ha).2.2 hb h2).2.2 hc h3).2 hd

end Branches

/-- The pieces on both sides of an ASCII byte are decoded on their own. -/
theorem lossyChars_ascii {c : UInt8} (hc : c < 0x80) (before after : Bytes) :
    lossyChars (before ++ c :: after) =
      lossyChars before ++ Char.ofNat c.toNat :: lossyChars after := by
  have hcont := isContinuation_ascii hc
  fun_induction lossyChars before with
  | case1 => exact lossyChars_cons_ascii hc after
  | case2 a =>
    show lossyChars (a :: c :: after) = _
    by_cases ha : a < 0x80
    · rw [lossyChars_cons_ascii ha, lossyChars_cons_ascii hc, if_pos ha]
      rfl
    · rw [lossyChars_broken ha (isFollowed_ascii a hc), lossyChars_cons_ascii hc, if_neg ha]
      rfl
  | case3 a b rest ha ih =>
    show lossyChars (a :: (b :: rest ++ c :: after)) = _
    rw [lossyChars_cons_ascii ha, ih]
    rfl
  | case4 a b rest ha hb ih =>
    show lossyChars (a :: b :: (rest ++ c :: after)) = _
    have hbroken : isFollowed a b = false := by simpa using hb
    rw [lossyChars_broken ha hbroken]
    exact congrArg _ ih
  | case5 a b rest ha hb h2 ih =>
    show lossyChars (a :: b :: (rest ++ c :: after)) = _
    rw [lossyChars_two ha (by simpa using hb) h2, ih]
    rfl
  | case6 a b ha hb h2 =>
    show lossyChars (a :: b :: c :: after) = _
    rw [lossyChars_broken_third ha (by simpa using hb) h2 hcont, lossyChars_cons_ascii hc]
    rfl
  | case7 a b ha hb h2 d rest hd ih =>
    show lossyChars (a :: b :: d :: (rest ++ c :: after)) = _
    have hbroken : isContinuation d = false := by simpa using hd
    rw [lossyChars_broken_third ha (by simpa using hb) h2 hbroken]
    exact congrArg _ ih
  | case8 a b ha hb h2 d rest hd h3 ih =>
    show lossyChars (a :: b :: d :: (rest ++ c :: after)) = _
    rw [lossyChars_three ha (by simpa using hb) h2 (by simpa using hd) h3, ih]
    rfl
  | case9 a b ha hb h2 d hd h3 =>
    show lossyChars (a :: b :: d :: c :: after) = _
    rw [lossyChars_broken_fourth ha (by simpa using hb) h2 (by simpa using hd) h3 hcont,
      lossyChars_cons_ascii hc]
    rfl
  | case10 a b ha hb h2 d hd h3 e rest he ih =>
    show lossyChars (a :: b :: d :: e :: (rest ++ c :: after)) = _
    have hbroken : isContinuation e = false := by simpa using he
    rw [lossyChars_broken_fourth ha (by simpa using hb) h2 (by simpa using hd) h3 hbroken]
    exact congrArg _ ih
  | case11 a b ha hb h2 d hd h3 e rest he ih =>
    show lossyChars (a :: b :: d :: e :: (rest ++ c :: after)) = _
    rw [lossyChars_four ha (by simpa using hb) h2 (by simpa using hd) h3 (by simpa using he), ih]
    rfl

/-! ### Encoded characters -/

/-- The bits a byte keeps under a mask of ones are a remainder. -/
theorem carried_eq (b : UInt8) : carried b = b.toNat % 64 := by
  rw [carried, UInt8.toNat_and]
  exact Nat.and_two_pow_sub_one_eq_mod b.toNat 6

theorem and_0x1F (b : UInt8) : (b &&& 0x1F).toNat = b.toNat % 32 := by
  rw [UInt8.toNat_and]
  exact Nat.and_two_pow_sub_one_eq_mod b.toNat 5

theorem and_0x0F (b : UInt8) : (b &&& 0x0F).toNat = b.toNat % 16 := by
  rw [UInt8.toNat_and]
  exact Nat.and_two_pow_sub_one_eq_mod b.toNat 4

theorem and_0x07 (b : UInt8) : (b &&& 0x07).toNat = b.toNat % 8 := by
  rw [UInt8.toNat_and]
  exact Nat.and_two_pow_sub_one_eq_mod b.toNat 3

/-- A byte that is written as a small number. -/
theorem toNat_ofNat_small {n : Nat} (h : n < 256) : (UInt8.ofNat n).toNat = n := by
  rw [UInt8.toNat_ofNat']
  exact Nat.mod_eq_of_lt h

theorem isContinuation_iff (b : UInt8) :
    isContinuation b = true ↔ 0x80 ≤ b.toNat ∧ b.toNat ≤ 0xBF := by
  simp only [isContinuation, Bool.and_eq_true, decide_eq_true_eq, UInt8.le_iff_toNat_le]
  exact Iff.rfl

/-- What `isFollowed` asks for, in numbers. -/
theorem isFollowed_iff (a b : UInt8) :
    isFollowed a b = true ↔ 0xC2 ≤ a.toNat ∧ a.toNat ≤ 0xF4 ∧ 0x80 ≤ b.toNat ∧ b.toNat ≤ 0xBF ∧
      (a.toNat = 0xE0 → 0xA0 ≤ b.toNat) ∧ (a.toNat = 0xED → b.toNat ≤ 0x9F) ∧
      (a.toNat = 0xF0 → 0x90 ≤ b.toNat) ∧ (a.toNat = 0xF4 → b.toNat ≤ 0x8F) := by
  have hE0 : a = 0xE0 ↔ a.toNat = 0xE0 := UInt8.toNat_inj.symm
  have hED : a = 0xED ↔ a.toNat = 0xED := UInt8.toNat_inj.symm
  have hF0 : a = 0xF0 ↔ a.toNat = 0xF0 := UInt8.toNat_inj.symm
  have hF4 : a = 0xF4 ↔ a.toNat = 0xF4 := UInt8.toNat_inj.symm
  have hC2 : a < 0xC2 ↔ a.toNat < 0xC2 := UInt8.lt_iff_toNat_lt
  have hlt : a < 0xF4 ↔ a.toNat < 0xF4 := UInt8.lt_iff_toNat_lt
  have hge : ∀ n : UInt8, n ≤ b ↔ n.toNat ≤ b.toNat := fun _ => UInt8.le_iff_toNat_le
  have hle : ∀ n : UInt8, b ≤ n ↔ b.toNat ≤ n.toNat := fun _ => UInt8.le_iff_toNat_le
  have hA0 : (0xA0 : UInt8).toNat = 0xA0 := rfl
  have h80 : (0x80 : UInt8).toNat = 0x80 := rfl
  have h90 : (0x90 : UInt8).toNat = 0x90 := rfl
  have hBF : (0xBF : UInt8).toNat = 0xBF := rfl
  have h9F : (0x9F : UInt8).toNat = 0x9F := rfl
  have h8F : (0x8F : UInt8).toNat = 0x8F := rfl
  unfold isFollowed
  simp only [hC2, hE0, hED, hF0, hF4, hlt, isContinuation, hge, hle, hA0, h80, h90, hBF, h9F, h8F]
  split
  · simp only [Bool.false_eq_true, false_iff]
    omega
  · split
    · simp only [Bool.and_eq_true, decide_eq_true_eq]
      omega
    · split
      · simp only [Bool.and_eq_true, decide_eq_true_eq]
        omega
      · split
        · simp only [Bool.and_eq_true, decide_eq_true_eq]
          omega
        · split
          · simp only [Bool.and_eq_true, decide_eq_true_eq]
            omega
          · simp only [Bool.and_eq_true, decide_eq_true_eq]
            omega

theorem toNat_charOfNat {n : Nat} (h : n < 0xD800 ∨ 0xDFFF < n ∧ n < 0x110000) :
    (Char.ofNat n).toNat = n := by
  have hvalid : n.isValidChar := h
  rw [Char.ofNat, dif_pos hvalid]
  rfl

/-- An ASCII character that is read was an ASCII byte. -/
theorem mem_of_mem_lossyChars {c : Char} (hc : c.toNat < 0x80) {bytes : Bytes}
    (h : c ∈ lossyChars bytes) : ∃ b ∈ bytes, b.toNat = c.toNat := by
  have hbroken : c ≠ replacement := by
    rintro rfl
    revert hc
    decide
  -- A longer character is not ASCII.
  have hlong : ∀ n : Nat, 0x80 ≤ n → (n < 0xD800 ∨ 0xDFFF < n ∧ n < 0x110000) →
      c ≠ Char.ofNat n := by
    rintro n hn hvalid rfl
    rw [toNat_charOfNat hvalid] at hc
    omega
  have hascii : ∀ a : UInt8, a < 0x80 → c = Char.ofNat a.toNat → a.toNat = c.toNat := by
    rintro a ha rfl
    have ha' : a.toNat < 128 := UInt8.lt_iff_toNat_lt.mp ha
    exact (toNat_charOfNat (by omega)).symm
  have hE0 : ∀ a : UInt8, a < 0xE0 ↔ a.toNat < 0xE0 := fun _ => UInt8.lt_iff_toNat_lt
  have hF0 : ∀ a : UInt8, a < 0xF0 ↔ a.toNat < 0xF0 := fun _ => UInt8.lt_iff_toNat_lt
  fun_induction lossyChars bytes with
  | case1 => cases h
  | case2 a =>
    rw [List.mem_singleton] at h
    by_cases ha : a < 0x80
    · rw [if_pos ha] at h
      exact ⟨a, List.mem_singleton_self a, hascii a ha h⟩
    · rw [if_neg ha] at h
      exact absurd h hbroken
  | case3 a b rest ha ih =>
    rcases List.mem_cons.mp h with h | h
    · exact ⟨a, List.mem_cons_self, hascii a ha h⟩
    · obtain ⟨x, hx, hxc⟩ := ih h
      exact ⟨x, List.mem_cons_of_mem _ hx, hxc⟩
  | case4 a b rest ha hb ih =>
    obtain ⟨x, hx, hxc⟩ := ih ((List.mem_cons.mp h).resolve_left hbroken)
    exact ⟨x, List.mem_cons_of_mem _ hx, hxc⟩
  | case5 a b rest ha hb h2 ih =>
    have hf := (isFollowed_iff a b).mp (by simpa using hb)
    rw [hE0] at h2
    rw [and_0x1F, carried_eq] at h
    obtain ⟨x, hx, hxc⟩ := ih ((List.mem_cons.mp h).resolve_left (hlong _ (by omega) (by omega)))
    exact ⟨x, List.mem_cons_of_mem _ (List.mem_cons_of_mem _ hx), hxc⟩
  | case6 a b ha hb h2 => exact absurd (List.mem_singleton.mp h) hbroken
  | case7 a b ha hb h2 d rest hd ih =>
    obtain ⟨x, hx, hxc⟩ := ih ((List.mem_cons.mp h).resolve_left hbroken)
    exact ⟨x, List.mem_cons_of_mem _ (List.mem_cons_of_mem _ hx), hxc⟩
  | case8 a b ha hb h2 d rest hd h3 ih =>
    have hf := (isFollowed_iff a b).mp (by simpa using hb)
    have hd' := (isContinuation_iff d).mp (by simpa using hd)
    rw [hE0] at h2
    rw [hF0] at h3
    rw [and_0x0F, carried_eq, carried_eq] at h
    obtain ⟨x, hx, hxc⟩ := ih ((List.mem_cons.mp h).resolve_left (hlong _ (by omega) (by omega)))
    exact ⟨x, by simp [hx], hxc⟩
  | case9 a b ha hb h2 d hd h3 => exact absurd (List.mem_singleton.mp h) hbroken
  | case10 a b ha hb h2 d hd h3 e rest he ih =>
    obtain ⟨x, hx, hxc⟩ := ih ((List.mem_cons.mp h).resolve_left hbroken)
    have hx' : x ∈ a :: b :: d :: e :: rest := by
      rcases List.mem_cons.mp hx with rfl | hx
      · simp
      · simp [hx]
    exact ⟨x, hx', hxc⟩
  | case11 a b ha hb h2 d hd h3 e rest he ih =>
    have hf := (isFollowed_iff a b).mp (by simpa using hb)
    have hd' := (isContinuation_iff d).mp (by simpa using hd)
    have he' := (isContinuation_iff e).mp (by simpa using he)
    rw [hF0] at h3
    rw [and_0x07, carried_eq, carried_eq, carried_eq] at h
    obtain ⟨x, hx, hxc⟩ := ih ((List.mem_cons.mp h).resolve_left (hlong _ (by omega) (by omega)))
    exact ⟨x, by simp [hx], hxc⟩

/-- A character is read back from its encoding. The cases are the lengths of an encoding. -/
theorem lossyChars_encodeChar (c : Char) (rest : Bytes) :
    lossyChars (String.utf8EncodeChar c ++ rest) = c :: lossyChars rest := by
  have hvalid : c.val.toNat < 0xD800 ∨ 0xDFFF < c.val.toNat ∧ c.val.toNat < 0x110000 := c.valid
  have hback : ∀ n : Nat, n = c.val.toNat → Char.ofNat n = c := by
    intro n hn
    rw [hn]
    exact Char.ofNat_toNat c
  unfold String.utf8EncodeChar
  generalize c.val.toNat = v at hvalid hback
  have hlt : ∀ (a : UInt8) (n : Nat), n < 256 → (a < UInt8.ofNat n ↔ a.toNat < n) := by
    intro a n hn
    rw [UInt8.lt_iff_toNat_lt, toNat_ofNat_small hn]
  have h80 : ∀ a : UInt8, a < 0x80 ↔ a.toNat < 0x80 := fun a => hlt a 0x80 (by omega)
  have hE0 : ∀ a : UInt8, a < 0xE0 ↔ a.toNat < 0xE0 := fun a => hlt a 0xE0 (by omega)
  have hF0 : ∀ a : UInt8, a < 0xF0 ↔ a.toNat < 0xF0 := fun a => hlt a 0xF0 (by omega)
  by_cases h1 : v ≤ 0x7F
  · have ha : (UInt8.ofNat v).toNat = v := toNat_ofNat_small (by omega)
    simp only [h1, if_true, List.cons_append, List.nil_append]
    rw [lossyChars_cons_ascii ((h80 _).mpr (by omega)), hback _ ha]
  · by_cases h2 : v ≤ 0x7FF
    · have ha : (UInt8.ofNat (v / 64 % 0x20 + 0xC0)).toNat = v / 64 % 0x20 + 0xC0 :=
        toNat_ofNat_small (by omega)
      have hb : (UInt8.ofNat (v % 0x40 + 0x80)).toNat = v % 0x40 + 0x80 :=
        toNat_ofNat_small (by omega)
      simp only [h1, h2, if_true, if_false, List.cons_append, List.nil_append]
      rw [lossyChars_two (mt (h80 _).mp (by omega)) ((isFollowed_iff _ _).mpr (by omega))
        ((hE0 _).mpr (by omega)), and_0x1F, carried_eq, ha, hb, hback _ (by omega)]
    · by_cases h3 : v ≤ 0xFFFF
      · have ha : (UInt8.ofNat (v / 4096 % 0x10 + 0xE0)).toNat = v / 4096 % 0x10 + 0xE0 :=
          toNat_ofNat_small (by omega)
        have hb : (UInt8.ofNat (v / 64 % 0x40 + 0x80)).toNat = v / 64 % 0x40 + 0x80 :=
          toNat_ofNat_small (by omega)
        have hc : (UInt8.ofNat (v % 0x40 + 0x80)).toNat = v % 0x40 + 0x80 :=
          toNat_ofNat_small (by omega)
        simp only [h1, h2, h3, if_true, if_false, List.cons_append, List.nil_append]
        rw [lossyChars_three (mt (h80 _).mp (by omega)) ((isFollowed_iff _ _).mpr (by omega))
          (mt (hE0 _).mp (by omega)) ((isContinuation_iff _).mpr (by omega))
          ((hF0 _).mpr (by omega)), and_0x0F, carried_eq, carried_eq, ha, hb, hc,
          hback _ (by omega)]
      · have ha : (UInt8.ofNat (v / 262144 % 0x08 + 0xF0)).toNat = v / 262144 % 0x08 + 0xF0 :=
          toNat_ofNat_small (by omega)
        have hb : (UInt8.ofNat (v / 4096 % 0x40 + 0x80)).toNat = v / 4096 % 0x40 + 0x80 :=
          toNat_ofNat_small (by omega)
        have hc : (UInt8.ofNat (v / 64 % 0x40 + 0x80)).toNat = v / 64 % 0x40 + 0x80 :=
          toNat_ofNat_small (by omega)
        have hd : (UInt8.ofNat (v % 0x40 + 0x80)).toNat = v % 0x40 + 0x80 :=
          toNat_ofNat_small (by omega)
        simp only [h1, h2, h3, if_false, List.cons_append, List.nil_append]
        rw [lossyChars_four (mt (h80 _).mp (by omega)) ((isFollowed_iff _ _).mpr (by omega))
          (mt (hE0 _).mp (by omega)) ((isContinuation_iff _).mpr (by omega))
          (mt (hF0 _).mp (by omega)) ((isContinuation_iff _).mpr (by omega)), and_0x07, carried_eq,
          carried_eq, carried_eq, ha, hb, hc, hd, hback _ (by omega)]

/-- The bytes of a text, character by character. -/
theorem utf8_ofList (cs : List Char) :
    utf8 (String.ofList cs) = cs.flatMap String.utf8EncodeChar := by
  simp [utf8, List.utf8Encode]

/-- What holds of all 256 of them holds of a byte. -/
theorem forall_byte {p : UInt8 → Prop} (h : ∀ n < 256, p (UInt8.ofNat n)) (b : UInt8) : p b := by
  have hb := h b.toNat b.toNat_lt
  rwa [UInt8.ofNat_toNat] at hb

/-- The byte of an ASCII character. -/
def asciiByte (c : Char) : UInt8 := UInt8.ofNat c.toNat

/-- An ASCII character is one byte. -/
theorem utf8EncodeChar_ascii {c : Char} (h : c.toNat < 0x80) :
    String.utf8EncodeChar c = [asciiByte c] := by
  have hval : c.val.toNat ≤ 0x7F := by
    show c.toNat ≤ 0x7F
    omega
  simp only [String.utf8EncodeChar, hval, if_true]
  rfl

/-- The bytes of an ASCII text. -/
theorem utf8_ofList_ascii {cs : List Char} (h : ∀ c ∈ cs, c.toNat < 0x80) :
    utf8 (String.ofList cs) = cs.map asciiByte := by
  rw [utf8_ofList]
  induction cs with
  | nil => rfl
  | cons c cs ih =>
    rw [List.flatMap_cons, utf8EncodeChar_ascii (h c List.mem_cons_self),
      ih fun c' hc' => h c' (List.mem_cons_of_mem c hc')]
    rfl

/-- Decoding undoes encoding. -/
theorem lossyChars_utf8 (s : String) : lossyChars (utf8 s) = s.toList := by
  obtain ⟨cs, rfl⟩ : ∃ cs, s = String.ofList cs := ⟨s.toList, s.ofList_toList.symm⟩
  rw [utf8_ofList, String.toList_ofList]
  induction cs with
  | nil => simp [lossyChars]
  | cons c cs ih => rw [List.flatMap_cons, lossyChars_encodeChar, ih]

theorem fromUtf8Lossy_utf8 (s : String) : fromUtf8Lossy (utf8 s) = s := by
  rw [fromUtf8Lossy, lossyChars_utf8, String.ofList_toList]

end OpenUI.Euicc
