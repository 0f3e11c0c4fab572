import OpenUI.Installer.Identity
import OpenUI.Proofs.Text

/-!
# `OpenUI.Proofs.Installer.Identity`: when the installers see the same modem

The native installer trims what it returns, but tests the IMEI and the build identifier as they
stand. The terminal installer strips every field first, also of `U+001C` to `U+001F`.

* `infix_blurred`: a pattern is not found in characters that it does not have.
* `namesProduct_lower`: both ways to lower the case find the same product.
* `identities_agree_iff`: when both refuse, or return the same identity.
* `padded_imei`: a modem that only the terminal installer accepts.
-/

set_option autoImplicit false

namespace OpenUI.Installer.Identity

open OpenUI.Text OpenUI.Json
open OpenUI.Unlock.Terminal (strip isSpace)

-- The equations are stated here once, before the proofs that rewrite with them.
section
attribute [local simp] Terminal.Lowercase.lower
end

/-! ### Texts that differ outside a pattern's characters -/

/-- Two texts that are alike but for stretches without a character of the pattern. -/
inductive Blurred (p : List Char) : List Char → List Char → Prop where
  | nil : Blurred p [] []
  | keep {as bs : List Char} (c : Char) (h : Blurred p as bs) : Blurred p (c :: as) (c :: bs)
  | blot {as bs xs ys : List Char} (hxs : xs ≠ []) (hys : ys ≠ []) (hx : ∀ c ∈ xs, c ∉ p)
      (hy : ∀ c ∈ ys, c ∉ p) (h : Blurred p as bs) : Blurred p (xs ++ as) (ys ++ bs)

/-- A part of the pattern does not begin where such a stretch does. -/
theorem not_prefix_blot {p q xs : List Char} (hq : q ≠ []) (hqp : ∀ c ∈ q, c ∈ p) (hxs : xs ≠ [])
    (hx : ∀ c ∈ xs, c ∉ p) (as : List Char) : ¬q <+: xs ++ as := by
  intro h
  cases q with
  | nil => exact hq rfl
  | cons d q =>
    cases xs with
    | nil => exact hxs rfl
    | cons x xs =>
      obtain ⟨rfl, -⟩ := List.cons_prefix_cons.mp h
      exact hx d List.mem_cons_self (hqp d List.mem_cons_self)

theorem prefix_blurred {p as bs : List Char} (h : Blurred p as bs) {q : List Char}
    (hqp : ∀ c ∈ q, c ∈ p) : q <+: as ↔ q <+: bs := by
  induction h generalizing q with
  | nil => rfl
  | keep c h ih =>
    cases q with
    | nil => simp
    | cons d q =>
      rw [List.cons_prefix_cons, List.cons_prefix_cons]
      exact and_congr_right fun _ => ih fun c hc => hqp c (List.mem_cons_of_mem _ hc)
  | blot hxs hys hx hy h ih =>
    cases q with
    | nil => simp
    | cons d q =>
      have hne : d :: q ≠ [] := List.cons_ne_nil d q
      exact iff_of_false (not_prefix_blot hne hqp hxs hx _) (not_prefix_blot hne hqp hys hy _)

/-- A pattern is found behind a stretch without its characters, or not at all. -/
theorem infix_append_left {p xs : List Char} (hp : p ≠ []) (hx : ∀ c ∈ xs, c ∉ p)
    (as : List Char) : p <:+: xs ++ as ↔ p <:+: as := by
  induction xs with
  | nil => rfl
  | cons x xs ih =>
    rw [List.cons_append, List.infix_cons_iff]
    have hhead : ¬p <+: x :: (xs ++ as) :=
      not_prefix_blot hp (fun _ h => h) (List.cons_ne_nil x xs) hx as
    refine (or_iff_right hhead).trans (ih fun c hc => hx c (List.mem_cons_of_mem x hc))

/-- And before one. -/
theorem infix_append_right {p xs : List Char} (hp : p ≠ []) (hx : ∀ c ∈ xs, c ∉ p)
    (as : List Char) : p <:+: as ++ xs ↔ p <:+: as := by
  rw [← List.reverse_infix, List.reverse_append, ← @List.reverse_infix _ p as]
  refine infix_append_left ?_ ?_ _
  · simpa using hp
  · simpa using hx

theorem infix_blurred {p as bs : List Char} (hp : p ≠ []) (h : Blurred p as bs) :
    p <:+: as ↔ p <:+: bs := by
  induction h with
  | nil => rfl
  | keep c h ih =>
    rw [List.infix_cons_iff, List.infix_cons_iff]
    exact or_congr (prefix_blurred (.keep c h) fun _ hc => hc) ih
  | blot hxs hys hx hy h ih =>
    exact (infix_append_left hp hx _).trans (ih.trans (infix_append_left hp hy _).symm)

/-! ### White space around a text -/

theorem trimMatches_eq_nil_iff (p : Char → Bool) (cs : List Char) :
    trimMatches p cs = [] ↔ ∀ c ∈ cs, p c = true := by
  show (cs.dropWhile p).rdropWhile p = [] ↔ _
  rw [List.rdropWhile_eq_nil_iff]
  constructor
  · intro h c hc
    rw [← List.takeWhile_append_dropWhile (p := p) (l := cs)] at hc
    rcases List.mem_append.mp hc with hc | hc
    · exact List.mem_takeWhile_imp hc
    · exact h c hc
  · intro h c hc
    exact h c ((List.dropWhile_suffix p).subset hc)

/-- What is stripped at both ends is white space. -/
theorem exists_strip (cs : List Char) : ∃ before after, cs = before ++ (strip cs ++ after) ∧
    (∀ c ∈ before, isSpace c = true) ∧ ∀ c ∈ after, isSpace c = true := by
  refine ⟨cs.takeWhile isSpace, (cs.dropWhile isSpace).rtakeWhile isSpace, ?_, ?_, ?_⟩
  · show cs = _ ++ ((cs.dropWhile isSpace).rdropWhile isSpace ++ _)
    rw [List.rdropWhile_append_rtakeWhile, List.takeWhile_append_dropWhile]
  · exact fun c hc => List.mem_takeWhile_imp hc
  · exact fun c hc => List.mem_rtakeWhile_imp hc

theorem strip_eq_nil_iff (cs : List Char) : strip cs = [] ↔ ∀ c ∈ cs, isSpace c = true :=
  trimMatches_eq_nil_iff isSpace cs

theorem isSpace_of_isWhitespace {c : Char} (h : isWhitespace c = true) : isSpace c = true :=
  Bool.or_eq_true_iff.mpr (.inl h)

/-- What is blank for the native installer is so for the other. -/
theorem strip_eq_nil_of_trim {s : String} (h : trim s = "") : strip s.toList = [] := by
  have htrimmed : trimMatches isWhitespace s.toList = [] := by
    simpa [trim, trimChars, trimMatches] using h
  refine (strip_eq_nil_iff _).mpr fun c hc => isSpace_of_isWhitespace ?_
  exact (trimMatches_eq_nil_iff _ _).mp htrimmed c hc

/-- Something that the terminal installer does not strip is left by it. -/
theorem exists_mem_strip {cs : List Char} (h : strip cs ≠ []) : ∃ c ∈ strip cs, isSpace c = false := by
  by_contra hall
  obtain ⟨before, after, hcs, hbefore, hafter⟩ := exists_strip cs
  refine h ((strip_eq_nil_iff cs).mpr fun c hc => ?_)
  rw [hcs] at hc
  rcases List.mem_append.mp hc with hc | hc
  · exact hbefore c hc
  · rcases List.mem_append.mp hc with hc | hc
    · by_contra hspace
      exact hall ⟨c, hc, by simpa using hspace⟩
    · exact hafter c hc

/-- A text that begins and ends with something else is not changed. -/
theorem strip_eq_self {cs : List Char} (h : ∀ c ∈ cs, isSpace c = false) : strip cs = cs := by
  have hdrop : ∀ {l : List Char}, (∀ c ∈ l, isSpace c = false) → l.dropWhile isSpace = l := by
    intro l hl
    cases l with
    | nil => rfl
    | cons c l => exact List.dropWhile_cons_of_neg (by simp [hl c List.mem_cons_self])
  show ((cs.dropWhile isSpace).reverse.dropWhile isSpace).reverse = cs
  rw [hdrop h, hdrop fun c hc => h c (List.mem_reverse.mp hc), List.reverse_reverse]

/-! ### The name of the model -/

/-- `normalized`, on characters. -/
def normalizedChars (cs : List Char) : List Char := (cs.map lowerChar).filter (!separates ·)

theorem normalized_eq (s : String) : normalized s = normalizedChars s.toList := by
  unfold normalized toAsciiLowercase normalizedChars
  rw [String.toList_ofList]

theorem lowerChar_of_not_upper {c : Char} (h : ¬(0x41 ≤ c.toNat ∧ c.toNat ≤ 0x5A)) :
    lowerChar c = c := by
  refine if_neg ?_
  simpa using h

/-- The product's names, whose characters are lower-case ASCII ones. -/
theorem product_chars {p : List Char} (hp : p = "mu5250".toList ∨ p = "u60pro".toList) :
    p ≠ [] ∧ ∀ c ∈ p, c.toNat < 128 ∧ c ≠ 'i' ∧ c ≠ 'k' ∧ isSpace c = false := by
  have hall : p ≠ [] ∧ p.all (fun c => decide (c.toNat < 128 ∧ c ≠ 'i' ∧ c ≠ 'k' ∧
      isSpace c = false)) = true := by
    rcases hp with rfl | rfl
    · decide +kernel
    · decide +kernel
  exact ⟨hall.1, fun c hc => of_decide_eq_true (List.all_eq_true.mp hall.2 c hc)⟩

theorem namesProduct_congr {as bs : List Char}
    (h : ∀ p, p = "mu5250".toList ∨ p = "u60pro".toList → (p <:+: as ↔ p <:+: bs)) :
    namesProduct as = namesProduct bs := by
  unfold namesProduct
  rw [decide_eq_decide.mpr (h _ (.inl rfl)), decide_eq_decide.mpr (h _ (.inr rfl))]

/-- The lower case of the one differs from that of the other in characters of other texts. -/
theorem blurred_lower (l : Terminal.Lowercase) {p : List Char}
    (hp : ∀ c ∈ p, c.toNat < 128 ∧ c ≠ 'i' ∧ c ≠ 'k' ∧ isSpace c = false) (before cs : List Char) :
    Blurred p (normalizedChars cs) ((l.lower before cs).filter (!separates ·)) := by
  induction cs generalizing before with
  | nil => exact .nil
  | cons c cs ih =>
    unfold normalizedChars at ih ⊢
    rw [List.map_cons, Terminal.Lowercase.lower, List.filter_append]
    by_cases hc : c.toNat < 128
    · rw [l.ascii before c cs hc, List.filter_cons, List.filter_cons]
      split
      · exact .keep _ (ih _)
      · exact ih _
    · obtain ⟨hne, hmapped⟩ := l.beyond before c cs (Nat.le_of_not_lt hc)
      have hother : ∀ {d : Char}, 128 ≤ d.toNat → separates d = false := by
        intro d hd
        have hne : ∀ e : Char, e.toNat < 128 → d ≠ e := by
          rintro e he rfl
          omega
        simp [separates, hne ' ' (by decide), hne '_' (by decide), hne '-' (by decide)]
      have hkept : (l.mapping before c cs).filter (!separates ·) = l.mapping before c cs := by
        refine List.filter_eq_self.mpr fun d hd => ?_
        by_cases hlow : d.toNat < 128
        · rcases hmapped d hd hlow with rfl | rfl
          · decide
          · decide
        · rw [hother (Nat.le_of_not_lt hlow)]
          rfl
      rw [lowerChar_of_not_upper (by omega), hkept, List.filter_cons,
        if_pos (by rw [hother (Nat.le_of_not_lt hc)]; rfl)]
      refine @Blurred.blot p _ _ [c] _ (List.cons_ne_nil c []) hne ?_ ?_ (ih _)
      · intro d hd hdp
        obtain rfl := List.mem_singleton.mp hd
        exact hc (hp d hdp).1
      · intro d hd hdp
        obtain ⟨hlow, hi, hk, -⟩ := hp d hdp
        rcases hmapped d hd hlow with rfl | rfl
        · exact hi rfl
        · exact hk rfl

/-- Both ways to lower the case find the same product. -/
theorem namesProduct_lower (l : Terminal.Lowercase) (cs : List Char) :
    namesProduct ((l.lower [] cs).filter (!separates ·)) = namesProduct (normalizedChars cs) := by
  refine namesProduct_congr fun p hp => ?_
  obtain ⟨hne, hchars⟩ := product_chars hp
  exact (infix_blurred hne (blurred_lower l hchars [] cs)).symm

/-- White space does not become part of a product's name. -/
theorem not_mem_normalizedChars {p cs : List Char} (hp : ∀ c ∈ p, isSpace c = false)
    (hcs : ∀ c ∈ cs, isSpace c = true) : ∀ c ∈ normalizedChars cs, c ∉ p := by
  intro c hc hcp
  obtain ⟨d, hd, rfl⟩ := List.mem_map.mp (List.mem_of_mem_filter hc)
  have hspace := hcs d hd
  have hupper : ¬(0x41 ≤ d.toNat ∧ d.toNat ≤ 0x5A) := by
    unfold isSpace isWhitespace at hspace
    simp only [Bool.or_eq_true, Bool.and_eq_true, decide_eq_true_eq, beq_iff_eq] at hspace
    omega
  rw [lowerChar_of_not_upper hupper] at hcp
  rw [hp d hcp] at hspace
  cases hspace

/-- Nor does what is stripped. -/
theorem namesProduct_strip (cs : List Char) :
    namesProduct (normalizedChars (strip cs)) = namesProduct (normalizedChars cs) := by
  refine namesProduct_congr fun p hp => ?_
  obtain ⟨hne, hchars⟩ := product_chars hp
  have hspace : ∀ c ∈ p, isSpace c = false := fun c hc => (hchars c hc).2.2.2
  obtain ⟨before, after, hcs, hbefore, hafter⟩ := exists_strip cs
  have hparts : normalizedChars cs =
      normalizedChars before ++ (normalizedChars (strip cs) ++ normalizedChars after) := by
    conv_lhs => rw [hcs]
    unfold normalizedChars
    simp only [List.map_append, List.filter_append]
  rw [hparts]
  refine Iff.symm ((infix_append_left hne (not_mem_normalizedChars hspace hbefore) _).trans ?_)
  exact infix_append_right hne (not_mem_normalizedChars hspace hafter) _

/-- A name of the product is not blank. -/
theorem strip_ne_nil_of_namesProduct {cs : List Char} (h : namesProduct (normalizedChars cs) = true) :
    strip cs ≠ [] := by
  intro hnil
  rw [← namesProduct_strip, hnil] at h
  revert h
  decide

/-! ### The fields -/

section Fields

variable {info : List (String × Value)} {names : List String}

/-- The terminal installer finds the field that the native one finds, unless it strips all of it. -/
theorem field_of_native {s : String} (h : field (.obj info) names = some s)
    (hs : strip s.toList ≠ []) : Terminal.field info names = strip s.toList := by
  unfold field at h
  unfold Terminal.field
  induction names with
  | nil => cases h
  | cons name names ih =>
    rw [List.findSome?_cons] at h ⊢
    cases hvalue : ((Value.obj info).get name).asStr with
    | none =>
      rw [hvalue] at h
      exact ih h
    | some value =>
      rw [hvalue] at h
      rw [Option.bind_some]
      by_cases hblank : trim value = ""
      · -- Blank for the native installer, so nothing is left of it for the other.
        have hstripped := strip_eq_nil_of_trim hblank
        have hskip : (some value).filter (fun s => trim s != "") = none := by simp [hblank]
        rw [hskip] at h
        rw [if_neg fun hne => hne hstripped]
        exact ih h
      · have hfound : (some value).filter (fun s => trim s != "") = some value := by simp [hblank]
        rw [hfound] at h
        obtain rfl := Option.some.inj h
        rw [if_pos hs]
        rfl

/-- What it finds, it does not find empty. -/
theorem exists_native_of_field (h : Terminal.field info names ≠ []) :
    ∃ s, field (.obj info) names = some s := by
  unfold Terminal.field at h
  unfold field
  rw [← Option.isSome_iff_exists, List.findSome?_isSome_iff]
  cases hfound : names.findSome? (fun name => ((Value.obj info).get name).asStr.bind fun s =>
      if strip s.toList ≠ [] then some (strip s.toList) else none) with
  | none =>
    rw [hfound] at h
    exact absurd rfl h
  | some stripped =>
    obtain ⟨name, hname, hvalue⟩ := List.exists_of_findSome?_eq_some hfound
    obtain ⟨value, hstr, hstripped⟩ := Option.bind_eq_some_iff.mp hvalue
    refine ⟨name, hname, ?_⟩
    have hne : strip value.toList ≠ [] := by
      intro hnil
      rw [if_neg fun h => h hnil] at hstripped
      cases hstripped
    have hblank : trim value ≠ "" := fun hblank => hne (strip_eq_nil_of_trim hblank)
    rw [hstr]
    simp [hblank]

/-- What it finds was stripped. -/
theorem exists_strip_field (h : Terminal.field info names ≠ []) :
    ∃ cs, Terminal.field info names = strip cs := by
  unfold Terminal.field at h ⊢
  cases hfound : names.findSome? (fun name => ((Value.obj info).get name).asStr.bind fun s =>
      if strip s.toList ≠ [] then some (strip s.toList) else none) with
  | none =>
    rw [hfound] at h
    exact absurd rfl h
  | some stripped =>
    obtain ⟨name, -, hvalue⟩ := List.exists_of_findSome?_eq_some hfound
    obtain ⟨value, -, hstripped⟩ := Option.bind_eq_some_iff.mp hvalue
    split at hstripped
    · exact ⟨value.toList, (Option.some.inj hstripped).symm⟩
    · cases hstripped

/-- The native installer finds no blank field. -/
theorem trim_ne_of_native {s : String} (h : field (.obj info) names = some s) : trim s ≠ "" := by
  obtain ⟨name, -, hvalue⟩ := List.exists_of_findSome?_eq_some h
  obtain ⟨-, htrim⟩ := Option.filter_eq_some_iff.mp hvalue
  simpa using htrim

/-- A build identifier of stock firmware is still one when it is stripped. -/
theorem stockMarked_strip {cs : List Char} (h : stockMarked cs = true) :
    stockMarked (strip cs) = true := by
  unfold stockMarked at *
  rw [Bool.and_eq_true, decide_eq_true_eq, decide_eq_true_eq] at h ⊢
  obtain ⟨hstart, hversion⟩ := h
  obtain ⟨before, after, hcs, hbefore, hafter⟩ := exists_strip cs
  have hspace : "MU5250V".toList.all (!isSpace ·) = true := by decide +kernel
  have hout : ∀ {xs : List Char}, (∀ c ∈ xs, isSpace c = true) → ∀ c ∈ xs, c ∉ "MU5250V".toList := by
    intro xs hxs c hc hcp
    have hother := List.all_eq_true.mp hspace c hcp
    rw [hxs c hc] at hother
    cases hother
  have hkept : "MU5250V".toList <:+: strip cs := by
    rw [hcs, infix_append_left (by decide) (hout hbefore),
      infix_append_right (by decide) (hout hafter)] at hversion
    exact hversion
  refine ⟨?_, hkept⟩
  -- It begins with no white space, and what is left of it is long enough.
  have hnone : before = [] := by
    cases before with
    | nil => rfl
    | cons c before =>
      rw [hcs, List.cons_append] at hstart
      obtain ⟨rfl, -⟩ := List.cons_prefix_cons.mp hstart
      cases hbefore 'B' List.mem_cons_self
  rw [hnone, List.nil_append] at hcs
  have hleft : strip cs <+: cs := ⟨after, hcs.symm⟩
  refine List.prefix_of_prefix_length_le hstart hleft ?_
  have hlength := hkept.length_le
  have hseven : "MU5250V".toList.length = 7 := by decide
  have hthree : "BD_".toList.length = 3 := by decide
  omega

/-- Both read the same model, if the native installer finds a product's name in its own. -/
theorem modelField_strip {m : String} (h : modelField (.obj info) = some m)
    (hname : namesProduct (normalized m) = true) :
    Terminal.modelField info = strip m.toList := by
  rw [normalized_eq] at hname
  have hm := strip_ne_nil_of_namesProduct hname
  unfold modelField at h
  unfold Terminal.modelField
  cases hmodel : field (.obj info) modelNames with
  | some m' =>
    rw [hmodel] at h
    obtain rfl : m' = m := Option.some.inj h
    rw [field_of_native hmodel hm, if_pos hm]
  | none =>
    rw [hmodel, Option.none_or] at h
    have hempty : Terminal.field info modelNames = [] := by
      by_contra hne
      obtain ⟨s, hs⟩ := exists_native_of_field hne
      cases hmodel.symm.trans hs
    obtain ⟨version, hversion, rfl⟩ := Option.map_eq_some_iff.mp h
    obtain ⟨hfield, hmarked⟩ := Option.filter_eq_some_iff.mp hversion
    have hstripped := stockMarked_strip hmarked
    have hne : strip version.toList ≠ [] := by
      intro hnil
      rw [hnil] at hstripped
      revert hstripped
      decide
    rw [hempty, if_neg fun hne => hne rfl, field_of_native hfield hne, if_pos hstripped]
    decide

theorem isImei_iff (s : String) : isImei s = true ↔ Terminal.isImei s.toList = true := by
  unfold isImei Terminal.isImei
  rw [Bool.and_eq_true, Bool.and_eq_true]
  refine and_congr_left fun hdigits => ?_
  have hascii : ∀ c ∈ s.toList, c.toNat < 128 := by
    intro c hc
    have hdigit := List.all_eq_true.mp hdigits c hc
    unfold isAsciiDigit at hdigit
    simp only [Bool.and_eq_true, decide_eq_true_eq] at hdigit
    omega
  rw [utf8ByteSize_ascii hascii]

/-- Both read the same IMEI, if it is one as it stands. -/
theorem imei_strip {e : String} (h : field (.obj info) ["imei"] = some e) (he : isImei e = true) :
    Terminal.field info ["imei"] = e.toList := by
  have hdigits : ∀ c ∈ e.toList, isSpace c = false := by
    intro c hc
    have hdigit := List.all_eq_true.mp (Bool.and_eq_true_iff.mp he).2 c hc
    unfold isAsciiDigit at hdigit
    unfold isSpace isWhitespace
    simp only [Bool.and_eq_true, decide_eq_true_eq] at hdigit
    simp only [Bool.or_eq_false_iff, Bool.and_eq_false_iff, decide_eq_false_iff_not,
      beq_eq_false_iff_ne]
    omega
  have hself := strip_eq_self hdigits
  rw [field_of_native h, hself]
  rw [hself]
  intro hnil
  rw [isImei_iff, hnil] at he
  cases he

end Fields

/-! ### The two identities -/

section Identities

variable {sha256Hex : String → String} {info : List (String × Value)}

/-- What the native installer accepts. -/
theorem fromInfo_ok_iff {i : Identity} :
    (fromInfo sha256Hex (.obj info)).toOption = some i ↔
      ∃ m s e, modelField (.obj info) = some m ∧ namesProduct (normalized m) = true ∧
        field (.obj info) firmwareNames = some s ∧ field (.obj info) ["imei"] = some e ∧
        isImei e = true ∧ i = ⟨trim m, trim s, sha256Hex e⟩ := by
  unfold fromInfo
  cases hmodel : modelField (.obj info) with
  | none => simp [Except.toOption]
  | some m =>
    cases hname : namesProduct (normalized m) with
    | false => simp [hname, Except.toOption]
    | true =>
      cases hfirmware : field (.obj info) firmwareNames with
      | none => simp [hname, Except.toOption]
      | some s =>
        cases himei : field (.obj info) ["imei"] with
        | none => simp [hname, Except.toOption]
        | some e =>
          cases hdigits : isImei e with
          | false =>
            have hnone : (some e).filter isImei = none := by simp [hdigits]
            rw [hnone]
            simp [hname, hdigits, Except.toOption]
          | true =>
            have hsome : (some e).filter isImei = some e := by simp [hdigits]
            dsimp only
            rw [hsome, hname]
            constructor
            · intro h
              obtain rfl := Option.some.inj h
              exact ⟨m, s, e, rfl, hname, rfl, rfl, hdigits, rfl⟩
            · rintro ⟨m', s', e', hm, -, hs, he, -, rfl⟩
              cases hm
              cases hs
              cases he
              rfl

/-- What is stripped of the fields identifies a modem. -/
structure StrippedFit (info : List (String × Value)) : Prop where
  model : namesProduct (normalizedChars (Terminal.modelField info)) = true
  firmware : Terminal.field info firmwareNames ≠ []
  imei : Terminal.isImei (Terminal.field info ["imei"]) = true

/-- What the terminal installer accepts. -/
theorem deviceIdentity_ok_iff (l : Terminal.Lowercase) {i : Identity} :
    (Terminal.deviceIdentity l sha256Hex info).toOption = some i ↔
      StrippedFit info ∧ i = ⟨String.ofList (Terminal.modelField info),
        String.ofList (Terminal.field info firmwareNames),
        sha256Hex (String.ofList (Terminal.field info ["imei"]))⟩ := by
  have hfit : StrippedFit info ↔ (!namesProduct ((l.lower [] (Terminal.modelField info)).filter
      (!separates ·)) || Terminal.field info firmwareNames == [] ||
      !Terminal.isImei (Terminal.field info ["imei"])) = false := by
    rw [namesProduct_lower]
    simp only [Bool.or_eq_false_iff, Bool.not_eq_false', beq_eq_false_iff_ne]
    constructor
    · intro h
      exact ⟨⟨h.model, h.firmware⟩, h.imei⟩
    · rintro ⟨⟨hmodel, hfirmware⟩, himei⟩
      exact ⟨hmodel, hfirmware, himei⟩
  rw [hfit]
  unfold Terminal.deviceIdentity
  dsimp only
  split
  · rename_i hrefused
    rw [hrefused]
    simp [Except.toOption]
  · rename_i haccepted
    rw [Bool.not_eq_true] at haccepted
    rw [haccepted]
    simp [Except.toOption, eq_comm]

/-- The fields as they stand name the product, and have an IMEI. -/
structure PlainFit (info : List (String × Value)) : Prop where
  model : ∃ m, modelField (.obj info) = some m ∧ namesProduct (normalized m) = true
  imei : ∃ e, field (.obj info) ["imei"] = some e ∧ isImei e = true

/-- Both installers trim the text alike: no `U+001C` to `U+001F` stands at its ends. -/
def Even (s : String) : Prop := trimChars s.toList = strip s.toList

/-- Where the stripped fields identify a modem, the fields name the product and have an IMEI as they
stand. And where they do, the model and the firmware version are trimmed alike. -/
structure Unpadded (info : List (String × Value)) : Prop where
  plain : StrippedFit info → PlainFit info
  even : PlainFit info → ∀ s, field (.obj info) firmwareNames = some s →
    Even s ∧ ∀ m, field (.obj info) modelNames = some m → Even m

/-- A text in which something is left is not trimmed to white space. -/
theorem strip_ne_nil_of_trim_eq {s : String} {cs : List Char} (h : trimChars s.toList = strip cs)
    (hne : strip cs ≠ []) : strip s.toList ≠ [] := by
  intro hnil
  obtain ⟨c, hc, hspace⟩ := exists_mem_strip hne
  rw [← h] at hc
  have hin : c ∈ s.toList := by
    have hback := List.mem_reverse.mp hc
    have hmid := (List.dropWhile_suffix isWhitespace).subset hback
    exact (List.dropWhile_suffix isWhitespace).subset (List.mem_reverse.mp hmid)
  rw [(strip_eq_nil_iff _).mp hnil c hin] at hspace
  cases hspace

/-- The model that the native installer returns, as the other one returns it. -/
theorem trim_model_iff {m : String} (h : modelField (.obj info) = some m)
    (hname : namesProduct (normalized m) = true) :
    trim m = String.ofList (Terminal.modelField info) ↔
      ∀ m', field (.obj info) modelNames = some m' → Even m' := by
  rw [modelField_strip h hname]
  have hinj : trim m = String.ofList (strip m.toList) ↔ Even m := by
    rw [trim, String.ofList_inj]
    rfl
  rw [hinj]
  unfold modelField at h
  cases hmodel : field (.obj info) modelNames with
  | some m' =>
    rw [hmodel] at h
    obtain rfl : m' = m := Option.some.inj h
    simp
  | none =>
    rw [hmodel, Option.none_or] at h
    obtain ⟨version, -, rfl⟩ := Option.map_eq_some_iff.mp h
    refine iff_of_true ?_ fun m' hm' => by cases hm'
    show trimChars "ZTE MU5250".toList = strip "ZTE MU5250".toList
    decide

/-- Where the terminal installer sees a modem, it sees the fields' own model, firmware and IMEI. -/
theorem stripped_of_plain (h : PlainFit info) {s : String}
    (hs : field (.obj info) firmwareNames = some s) (hne : strip s.toList ≠ []) :
    StrippedFit info := by
  obtain ⟨m, hm, hname⟩ := h.model
  obtain ⟨e, he, hdigits⟩ := h.imei
  constructor
  · rw [modelField_strip hm hname, namesProduct_strip, ← normalized_eq]
    exact hname
  · rw [field_of_native hs hne]
    exact hne
  · rw [imei_strip he hdigits]
    exact (isImei_iff e).mp hdigits

end Identities

/-- **The two installers.** For every `device_info` object, both refuse it or return the same model,
firmware and fingerprint, exactly if the object is not padded where it matters. -/
theorem identities_agree_iff (l : Terminal.Lowercase) (sha256Hex : String → String)
    (info : List (String × Value)) :
    (fromInfo sha256Hex (.obj info)).toOption =
        (Terminal.deviceIdentity l sha256Hex info).toOption ↔ Unpadded info := by
  constructor
  · intro hagree
    constructor
    · intro hstripped
      -- The terminal installer accepts it, and so the native one does.
      have haccepted := (@deviceIdentity_ok_iff sha256Hex info l _).mpr ⟨hstripped, rfl⟩
      rw [← hagree] at haccepted
      obtain ⟨m, s, e, hm, hname, -, he, hdigits, -⟩ := fromInfo_ok_iff.mp haccepted
      exact ⟨⟨m, hm, hname⟩, e, he, hdigits⟩
    · intro hplain s hs
      obtain ⟨m, hm, hname⟩ := hplain.model
      obtain ⟨e, he, hdigits⟩ := hplain.imei
      have haccepted := (@fromInfo_ok_iff sha256Hex info _).mpr
        ⟨m, s, e, hm, hname, hs, he, hdigits, rfl⟩
      rw [hagree] at haccepted
      obtain ⟨hstripped, hsame⟩ := (deviceIdentity_ok_iff l).mp haccepted
      injection hsame with hmodel hfirmware hfingerprint
      have htrimmed : trimChars s.toList = Terminal.field info firmwareNames := by
        rw [trim, String.ofList_inj] at hfirmware
        exact hfirmware
      obtain ⟨cs, hcs⟩ := exists_strip_field hstripped.firmware
      have hne : strip s.toList ≠ [] := by
        refine strip_ne_nil_of_trim_eq (htrimmed.trans hcs) ?_
        rw [← hcs]
        exact hstripped.firmware
      refine ⟨?_, (trim_model_iff hm hname).mp hmodel⟩
      show trimChars s.toList = strip s.toList
      rw [htrimmed, field_of_native hs hne]
  · intro h
    cases hnative : (fromInfo sha256Hex (.obj info)).toOption with
    | some i =>
      obtain ⟨m, s, e, hm, hname, hs, he, hdigits, rfl⟩ := fromInfo_ok_iff.mp hnative
      have hplain : PlainFit info := ⟨⟨m, hm, hname⟩, e, he, hdigits⟩
      obtain ⟨hfirmware, hmodel⟩ := h.even hplain s hs
      have hblank := trim_ne_of_native hs
      have hne : strip s.toList ≠ [] := by
        intro hnil
        refine hblank ?_
        rw [trim, hfirmware, hnil]
      refine Eq.symm ((deviceIdentity_ok_iff l).mpr ⟨stripped_of_plain hplain hs hne, ?_⟩)
      rw [(trim_model_iff hm hname).mpr hmodel, field_of_native hs hne, imei_strip he hdigits,
        String.ofList_toList, trim, hfirmware]
    | none =>
      cases hterminal : (Terminal.deviceIdentity l sha256Hex info).toOption with
      | none => rfl
      | some i =>
        obtain ⟨hstripped, -⟩ := (deviceIdentity_ok_iff l).mp hterminal
        obtain ⟨⟨m, hm, hname⟩, e, he, hdigits⟩ := h.plain hstripped
        obtain ⟨s, hs⟩ := exists_native_of_field hstripped.firmware
        have haccepted := (@fromInfo_ok_iff sha256Hex info _).mpr
          ⟨m, s, e, hm, hname, hs, he, hdigits, rfl⟩
        cases hnative.symm.trans haccepted

namespace Sample

/-- Lower case of ASCII characters, and of the two others that have an ASCII one. -/
def lowercase : Terminal.Lowercase where
  mapping _ c _ :=
    if c.toNat < 128 then [lowerChar c]
    else if c = '\u0130' then ['i', '\u0307']
    else if c = '\u212A' then ['k']
    else [c]
  ascii _ c _ hc := if_pos hc
  beyond _ c _ hc := by
    rw [if_neg (Nat.not_lt.mpr hc)]
    split
    · exact ⟨List.cons_ne_nil _ _, by simp⟩
    · split
      · exact ⟨List.cons_ne_nil _ _, by simp⟩
      · refine ⟨List.cons_ne_nil c [], fun d hd hlow => ?_⟩
        obtain rfl := List.mem_singleton.mp hd
        omega

/-- The fingerprint of fifteen ones. -/
def digest : String := "d3447652bb8a5fbb29c85423666d645a50c12d47b9b037d2e0e326ef0922abea"

/-- A modem whose IMEI is written so. -/
def modem (imei : String) : List (String × Value) :=
  [("model", .str "ZTE MU5250"), ("software_version", .str "B03"), ("imei", .str imei)]

end Sample

open Sample in
/-- A space before the IMEI: only the terminal installer accepts the modem. -/
theorem padded_imei :
    (fromInfo (fun _ => digest) (.obj (modem " 111111111111111"))).toOption = none ∧
    (Terminal.deviceIdentity lowercase (fun _ => digest) (modem " 111111111111111")).toOption =
      some ⟨"ZTE MU5250", "B03", digest⟩ := by
  decide +kernel

end OpenUI.Installer.Identity
