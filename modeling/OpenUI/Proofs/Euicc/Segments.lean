import OpenUI.Euicc.Download
import OpenUI.Proofs.Euicc.Der

/-!
# `OpenUI.Proofs.Euicc.Segments`: the segments of a profile package

`bpp_segments` cuts a BoundProfilePackage into what goes to the card piece by piece. A package whose
parts stand in their order is cut without loss or repetition. A part is looked up by its tag from
the start of the package, so the order is not checked: a missing part ends the plan with an error,
and a part that stands elsewhere does not.

* `header_append`: an element is its tag and length, and then its contents.
* `planOf_eq`: the plan of any package, part by part.
* `planOf_inOrder`: the pieces of a package in order, put together again.
-/

set_option autoImplicit false

namespace OpenUI.Euicc

/-! ### Elements -/

theorem parseTag_suffix {buf rest : Bytes} {tag : Nat} (h : parseTag buf = some (tag, rest)) :
    rest <:+ buf := by
  unfold parseTag at h
  split at h
  · cases h
  · split at h
    · split at h
      · cases h
      · cases h
        exact ⟨[_, _], rfl⟩
    · cases h
      exact ⟨[_], rfl⟩

theorem parseLength_suffix {buf rest : Bytes} {length : Nat}
    (h : parseLength buf = some (length, rest)) : rest <:+ buf := by
  unfold parseLength at h
  split at h
  · cases h
  · rename_i first rest'
    dsimp only at h
    split at h
    · split at h
      · cases h
      · cases h
        exact (List.drop_suffix _ _).trans (List.suffix_cons _ _)
    · cases h
      exact List.suffix_cons _ _

/-- An element is its tag and length, and then its contents. -/
theorem header_append {buf : Bytes} {t : Tlv} (h : parse buf = some t) :
    t.header ++ t.value = t.raw := by
  unfold parse at h
  split at h
  · cases h
  · rename_i tag rest htag
    split at h
    · cases h
    · rename_i length rest' hlength
      split at h
      · cases h
      · rename_i henough
        -- Tag and length are a front part of the buffer, and the contents follow it.
        obtain ⟨front, rfl⟩ := (parseLength_suffix hlength).trans (parseTag_suffix htag)
        have hcount : (front ++ rest').length - rest'.length = front.length := by
          rw [List.length_append]
          omega
        rw [hcount, List.take_length_add_append] at h
        cases h
        show (front ++ rest'.take length).take
          ((front ++ rest'.take length).length - (rest'.take length).length) ++ rest'.take length =
            _
        rw [List.length_append, Nat.add_sub_cancel, List.take_left]

/-- Every element of a buffer was parsed somewhere in it. -/
theorem parse_of_mem {buf : Bytes} {t : Tlv} (h : t ∈ elements buf) : ∃ b, parse b = some t := by
  -- Induction on the turns of the loop, for every buffer.
  have hkey : ∀ (turns : Nat) (buf : Bytes), t ∈ elementsFrom turns buf →
    ∃ b, parse b = some t := by
    intro turns
    induction turns with
    | zero =>
      intro buf h
      cases h
    | succ turns ih =>
      intro buf h
      rw [elementsFrom] at h
      split at h
      · cases h
      · rename_i t' hp
        rcases List.mem_cons.mp h with rfl | h
        · exact ⟨buf, hp⟩
        · exact ih _ h
  exact hkey _ _ h

theorem find_mem {buf : Bytes} {tag : Nat} {t : Tlv} (h : find buf tag = some t) :
    t ∈ elements buf ∧ t.tag = tag :=
  ⟨List.mem_of_find?_eq_some h, by simpa using List.find?_some h⟩

theorem header_append_of_mem {buf : Bytes} {t : Tlv} (h : t ∈ elements buf) :
    t.header ++ t.value = t.raw := by
  obtain ⟨b, hb⟩ := parse_of_mem h
  exact header_append hb

/-! ### The plan of any package -/

/-- The elements of a sequence, after its tag and length. -/
def Tlv.split (t : Tlv) : List Bytes := t.header :: (elements t.value).map Tlv.raw

/-- The first segment: all of the package up to the end of its session setup. -/
def firstSegment (package : Tlv) : Option Bytes :=
  (findWithOffset 0xBF23 0 (elements package.value)).map fun (offset, init) =>
    package.raw.take (package.header.length + offset + init.raw.length)

/-- The mandatory parts in the order they are sent, each with the error that its absence is and the
segments it comes to. Second keys go after the metadata. -/
def stages (bpp : Bytes) : List (String × Option (List Bytes)) :=
  let package := find bpp 0xBF36
  let parts := (package.map Tlv.value).getD []
  let second87 := ((find parts 0xA2).map Tlv.raw).toList
  [("no BoundProfilePackage", package.map fun _ => []),
    ("no InitialiseSecureChannelRequest", (package.bind firstSegment).map fun first => [first]),
    ("no firstSequenceOf87", (find parts 0xA0).map fun first87 => [first87.raw]),
    ("no sequenceOf88", (find parts 0xA1).map fun seq88 => seq88.split ++ second87),
    ("no sequenceOf86", (find parts 0xA3).map Tlv.split)]

/-- What is sent of a package and how sending ends: the plan, or the error in place of one. -/
def planOf (bpp : Bytes) : List (Except Error Bytes) :=
  match bppSegments bpp with
  | .error e => [.error e]
  | .ok plan => plan

/-- The segments of the parts before the first missing one. -/
def segmentsBefore (stages : List (String × Option (List Bytes))) : List Bytes :=
  (stages.takeWhile (·.2.isSome)).flatMap fun stage => stage.2.getD []

/-- The error of the first missing part, if one is. -/
def errorAt (stages : List (String × Option (List Bytes))) : List (Except Error Bytes) :=
  ((stages.find? (·.2.isNone)).map fun stage => .error (.argument stage.1)).toList

/-- The segments before the first missing part, and its error. -/
def upTo (stages : List (String × Option (List Bytes))) : List (Except Error Bytes) :=
  (segmentsBefore stages).map .ok ++ errorAt stages

theorem pieces_eq (t : Tlv) : t.pieces = t.split.map .ok := by
  simp only [Tlv.pieces, Tlv.split, List.map_cons, List.map_map]
  rfl

/-- A part that is found lies within the elements it is found in. -/
theorem findWithOffset_le {tag : Nat} {ts : List Tlv} {offset o : Nat} {t : Tlv}
    (h : findWithOffset tag offset ts = some (o, t)) :
    o + t.raw.length ≤ offset + (ts.flatMap Tlv.raw).length := by
  induction ts generalizing offset with
  | nil => cases h
  | cons t' ts ih =>
    rw [List.flatMap_cons, List.length_append]
    rw [findWithOffset] at h
    split at h
    · cases h
      -- The part that is found is the first of those that are left.
      omega
    · have hrest := ih h
      omega

/-- The session setup ends within its package, so the first segment is always there to be cut. -/
theorem firstSegment_le {bpp : Bytes} {package init : Tlv} {offset : Nat}
    (hpackage : find bpp 0xBF36 = some package)
    (hinit : findWithOffset 0xBF23 0 (elements package.value) = some (offset, init)) :
    package.header.length + offset + init.raw.length ≤ package.raw.length := by
  have hwhole := congrArg List.length (header_append_of_mem (find_mem hpackage).1)
  have hwithin := findWithOffset_le hinit
  obtain ⟨rest, hrest, -⟩ := elements_split package.value
  have hvalue := congrArg List.length hrest
  simp only [List.length_append] at hwhole hvalue
  rw [← List.flatMap_def] at hvalue
  omega

section Stages

variable {missing : String} {rest : List (String × Option (List Bytes))}

/-- A part that is there adds its segments in front. -/
theorem upTo_present (segments : List Bytes) :
    upTo ((missing, some segments) :: rest) = segments.map .ok ++ upTo rest := by
  simp [upTo, segmentsBefore, errorAt]

theorem upTo_nil : upTo [] = [] := rfl

/-- A part that is missing ends the plan. -/
theorem upTo_missing : upTo ((missing, none) :: rest) = [.error (.argument missing)] := by
  simp [upTo, segmentsBefore, errorAt]

end Stages

theorem segmentsFrom86_eq (parts : Bytes) :
    segmentsFrom86 parts = upTo [("no sequenceOf86", (find parts 0xA3).map Tlv.split)] := by
  rw [segmentsFrom86]
  cases find parts 0xA3 with
  | none =>
    rw [Option.map_none, upTo_missing]
  | some seq86 =>
    rw [Option.map_some, upTo_present]
    show seq86.pieces = _
    rw [pieces_eq]
    exact (List.append_nil _).symm

theorem segmentsFrom88_eq (parts : Bytes) :
    segmentsFrom88 parts = upTo
      [("no sequenceOf88", (find parts 0xA1).map fun seq88 =>
        seq88.split ++ ((find parts 0xA2).map Tlv.raw).toList),
        ("no sequenceOf86", (find parts 0xA3).map Tlv.split)] := by
  rw [segmentsFrom88]
  cases find parts 0xA1 with
  | none =>
    rw [Option.map_none, upTo_missing]
  | some seq88 =>
    -- Second keys are sent behind the metadata where the package has them, and nothing is where it
    -- has none.
    rw [Option.map_some, upTo_present, ← segmentsFrom86_eq, List.map_append, ← pieces_eq]
    cases find parts 0xA2 <;> rfl

theorem okOr_some_bind {α β : Type} (a : α) (e : Error) (f : α → Except Error β) :
    (okOr (some a) e >>= f) = f a := rfl

theorem okOr_none_bind {α β : Type} (e : Error) (f : α → Except Error β) :
    (okOr none e >>= f) = .error e := rfl

/-- Any package: the segments of the parts before the first missing one, and then one error. -/
theorem planOf_eq (bpp : Bytes) : planOf bpp = upTo (stages bpp) := by
  -- The parts are looked for in the order they are sent; the first one missing ends the plan.
  rw [planOf, bppSegments, stages]
  cases hpackage : find bpp 0xBF36 with
  | none =>
    rw [okOr_none_bind]
    exact upTo_missing.symm
  | some package =>
    simp only [okOr_some_bind, Option.map_some, Option.bind_some, Option.getD_some, upTo_present,
      List.map_nil, List.nil_append, firstSegment]
    cases hinit : findWithOffset 0xBF23 0 (elements package.value) with
    | none =>
      rw [okOr_none_bind]
      exact upTo_missing.symm
    | some found =>
      -- The first segment is never cut short.
      have hfits := firstSegment_le hpackage hinit
      rw [okOr_some_bind, Option.map_some, Option.map_some, upTo_present]
      show (if _ then _ else _) :: _ = _
      rw [if_neg (by omega)]
      congr 1
      cases find package.value 0xA0 with
      | none => exact upTo_missing.symm
      | some first87 =>
        rw [Option.map_some, upTo_present, ← segmentsFrom88_eq]
        rfl

/-! ### Packages in their order -/

/-- Nothing is left over when the elements of a buffer are read. -/
def ParsesFully (buf : Bytes) : Prop := (elements buf).flatMap Tlv.raw = buf

/-- A package of session setup, first keys, metadata, perhaps second keys, and protected data, and
of nothing else. The contents of both sequences parse fully. -/
structure InOrder (package : Tlv) : Prop where
  full : ParsesFully package.value
  parts : ∃ init first87 seq88 seq86 : Tlv, ∃ second87 : Option Tlv,
    elements package.value = [init, first87, seq88] ++ second87.toList ++ [seq86] ∧
    init.tag = 0xBF23 ∧ first87.tag = 0xA0 ∧ seq88.tag = 0xA1 ∧
    (∀ t, second87 = some t → t.tag = 0xA2) ∧ seq86.tag = 0xA3 ∧
    ParsesFully seq88.value ∧ ParsesFully seq86.value

/-- The pieces of a sequence, put together again. -/
theorem flatten_split {buf : Bytes} {t : Tlv} (ht : t ∈ elements buf) (h : ParsesFully t.value) :
    t.split.flatten = t.raw := by
  rw [Tlv.split, List.flatten_cons, ← List.flatMap_def, h]
  exact header_append_of_mem ht

/-- The whole plan of a package in order, and what it comes to. -/
theorem planOf_inOrder {bpp : Bytes} {package : Tlv} (hpackage : find bpp 0xBF36 = some package)
    (h : InOrder package) :
    ∃ segments : List Bytes, bppSegments bpp = .ok (segments.map .ok) ∧
      segments.flatten = package.raw := by
  obtain ⟨init, first87, seq88, seq86, second87, hparts, hinit, h87, h88, h2, h86, hfull88,
    hfull86⟩ := h.parts
  have hwhole := header_append_of_mem (find_mem hpackage).1
  -- The tags differ, so each part is found where it stands.
  have hsetup : findWithOffset 0xBF23 0 (elements package.value) = some (0, init) := by
    rw [hparts]
    exact if_pos hinit
  have hA0 : find package.value 0xA0 = some first87 := by
    simp [find, hparts, hinit, h87]
  have hA1 : find package.value 0xA1 = some seq88 := by
    simp [find, hparts, hinit, h87, h88]
  have hA2 : find package.value 0xA2 = second87 := by
    cases second87 with
    | none => simp [find, hparts, hinit, h87, h88, h86]
    | some t => simp [find, hparts, hinit, h87, h88, h2 t rfl]
  have hA3 : find package.value 0xA3 = some seq86 := by
    cases second87 with
    | none => simp [find, hparts, hinit, h87, h88, h86]
    | some t => simp [find, hparts, hinit, h87, h88, h86, h2 t rfl]
  -- The first segment is the header of the package and its session setup.
  have hvalue : package.value = init.raw ++ first87.raw ++ seq88.raw ++
      (second87.map Tlv.raw).toList.flatten ++ seq86.raw := by
    have hfull : (elements package.value).flatMap Tlv.raw = package.value := h.full
    rw [← hfull, hparts]
    cases second87 <;> simp
  have hfirst : firstSegment package = some (package.header ++ init.raw) := by
    rw [firstSegment, hsetup, Option.map_some, ← hwhole]
    show some (List.take (package.header.length + 0 + init.raw.length) _) = _
    rw [hvalue, Nat.add_zero, List.take_length_add_append]
    simp only [List.append_assoc, List.take_left]
  have hseq88 : seq88.split.flatten = seq88.raw := flatten_split (find_mem hA1).1 hfull88
  have hseq86 : seq86.split.flatten = seq86.raw := flatten_split (find_mem hA3).1 hfull86
  refine ⟨[package.header ++ init.raw] ++ [first87.raw] ++ (seq88.split ++
    (second87.map Tlv.raw).toList) ++ seq86.split, ?_, ?_⟩
  · have hplan := planOf_eq bpp
    simp only [stages, hpackage, Option.map_some, Option.bind_some, Option.getD_some, hfirst, hA0,
      hA1, hA2, hA3, upTo_present, upTo_nil, List.map_nil, List.nil_append, List.append_nil,
      ← List.map_append] at hplan
    simp only [planOf] at hplan
    split at hplan
    · simp at hplan
    · rename_i plan hsegments
      rw [hsegments, hplan]
      simp only [List.append_assoc]
  · rw [← hwhole, hvalue]
    simp only [List.flatten_append, List.flatten_cons, List.flatten_nil, List.append_nil, hseq88,
      hseq86, List.append_assoc]

/-- A package in its order is cut without loss or repetition. Of any package, the plan is the
segments of the parts before the first one that is missing, and the error for that one. -/
theorem bppSegments_lossless (bpp : Bytes) :
    (∀ package, find bpp 0xBF36 = some package → InOrder package →
      ∃ segments : List Bytes, bppSegments bpp = .ok (segments.map .ok) ∧
        segments.flatten = package.raw) ∧
    planOf bpp = (segmentsBefore (stages bpp)).map .ok ++ errorAt (stages bpp) ∧
    (errorAt (stages bpp)).length =
      if (stages bpp).all (fun stage => stage.2.isSome) then 0 else 1 := by
  refine ⟨fun package hpackage h => planOf_inOrder hpackage h, planOf_eq bpp, ?_⟩
  rw [errorAt, Option.length_toList, Option.isSome_map]
  by_cases hall : (stages bpp).all fun stage => stage.2.isSome
  · -- No part is missing.
    have hnone : (stages bpp).find? (fun stage => stage.2.isNone) = none := by
      rw [List.find?_eq_none]
      intro stage hstage
      have hsome := List.all_eq_true.mp hall stage hstage
      rw [Bool.not_eq_true, Option.isNone_eq_false_iff]
      exact hsome
    rw [hnone, if_pos hall]
    rfl
  · have hsome : ((stages bpp).find? fun stage => stage.2.isNone).isSome := by
      rw [List.find?_isSome]
      simpa using hall
    rw [hsome, if_neg hall]
    rfl

/-- A small package with all of its parts. -/
def smallPackage : Bytes :=
  [0xBF, 0x36, 0x12, 0xBF, 0x23, 0x01, 0x07, 0xA0, 0x00, 0xA1, 0x03, 0x88, 0x01, 0x05, 0xA2, 0x00,
    0xA3, 0x03, 0x86, 0x01, 0x06]

theorem bppSegments_lossless_small :
    ∃ segments : List Bytes, bppSegments smallPackage = .ok (segments.map .ok) ∧
      segments.flatten = smallPackage := by
  have hfind : find smallPackage 0xBF36 =
      some { tag := 0xBF36, value := smallPackage.drop 3, raw := smallPackage } := by
    decide +kernel
  refine (bppSegments_lossless smallPackage).1 _ hfind ?_
  constructor
  · show (elements (smallPackage.drop 3)).flatMap Tlv.raw = smallPackage.drop 3
    decide +kernel
  · refine ⟨⟨0xBF23, [0x07], [0xBF, 0x23, 0x01, 0x07]⟩, ⟨0xA0, [], [0xA0, 0x00]⟩,
      ⟨0xA1, [0x88, 0x01, 0x05], [0xA1, 0x03, 0x88, 0x01, 0x05]⟩,
      ⟨0xA3, [0x86, 0x01, 0x06], [0xA3, 0x03, 0x86, 0x01, 0x06]⟩,
      some ⟨0xA2, [], [0xA2, 0x00]⟩, ?_, rfl, rfl, rfl, ?_, rfl, ?_, ?_⟩
    · decide +kernel
    · intro t ht
      cases ht
      rfl
    · show (elements [0x88, 0x01, 0x05]).flatMap Tlv.raw = [0x88, 0x01, 0x05]
      decide +kernel
    · show (elements [0x86, 0x01, 0x06]).flatMap Tlv.raw = [0x86, 0x01, 0x06]
      decide +kernel

/-- The metadata before the first keys: every part is found all the same, and nothing ends the
plan. -/
theorem shuffled_without_error :
    (find [0xBF, 0x36, 0x09, 0xBF, 0x23, 0x00, 0xA1, 0x00, 0xA0, 0x00, 0xA3, 0x00] 0xBF36).map
      (fun package => (elements package.value).map Tlv.tag) = some [0xBF23, 0xA1, 0xA0, 0xA3] ∧
    planOf [0xBF, 0x36, 0x09, 0xBF, 0x23, 0x00, 0xA1, 0x00, 0xA0, 0x00, 0xA3, 0x00] =
      [.ok [0xBF, 0x36, 0x09, 0xBF, 0x23, 0x00], .ok [0xA0, 0x00], .ok [0xA1, 0x00],
        .ok [0xA3, 0x00]] := by
  constructor
  · decide +kernel
  · rfl

end OpenUI.Euicc
