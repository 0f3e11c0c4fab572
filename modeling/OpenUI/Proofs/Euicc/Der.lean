import OpenUI.Euicc.Der
import Mathlib.Data.List.Induction

/-!
# `OpenUI.Proofs.Euicc.Der`: parsing undoes encoding

An element is written as its tag, its length and its contents, and read back in that order. The
reader tells from a byte how much follows, so that a trailer does not matter.

* `parseTag_encode`, `parseLength_encode`: the two parts of a header.
* `parse_encodeElement`: one element in front of anything.
* `elements_encodeAll`: a list of them, one after the other.
* `elements_split`: any buffer is what its elements take and a rest that no element starts.
* `der_round_trip`: the three together.
* `fromU64_spec`, `toU64_toNat`: what is written for a number, and what any bytes are read as.
* `Minimal.length_le`: a byte string without a zero in vain is the shortest for its number.
-/

set_option autoImplicit false

namespace OpenUI.Euicc

/-! ### Bytes as numbers -/

/-- The low five bits of a byte are all set. -/
theorem low_five_iff (a : UInt8) : a &&& 0x1F = 0x1F ↔ a.toNat % 32 = 31 := by
  have hmod : a.toNat &&& 31 = a.toNat % 32 := Nat.and_two_pow_sub_one_eq_mod a.toNat 5
  rw [← UInt8.toNat_inj, UInt8.toNat_and]
  show a.toNat &&& 31 = 31 ↔ _
  rw [hmod]

theorem toNat_ofNat_lt {n : Nat} (h : n < 256) : (UInt8.ofNat n).toNat = n := by
  rw [UInt8.toNat_ofNat']
  omega

/-- A leading zero does not count. -/
theorem bigEndian_cons_zero (bytes : Bytes) : bigEndian (0 :: bytes) = bigEndian bytes := rfl

theorem bigEndian_dropWhile (bytes : Bytes) :
    bigEndian (bytes.dropWhile (· == 0)) = bigEndian bytes := by
  induction bytes with
  | nil => rfl
  | cons b bytes ih =>
    by_cases hb : b = 0
    · subst hb
      rw [List.dropWhile_cons_of_pos (by rfl), bigEndian_cons_zero]
      exact ih
    · rw [List.dropWhile_cons_of_neg (by simpa using hb)]

/-- Four bytes hold every number below `2^32`. -/
theorem bigEndian_toBe32 {n : Nat} (h : n < UInt32.size) : bigEndian (toBe32 n) = n := by
  have hsize : UInt32.size = 4294967296 := rfl
  simp only [bigEndian, toBe32, List.foldl_cons, List.foldl_nil, UInt8.toNat_ofNat']
  omega

/-! ### A header -/

/-- One byte whose low five bits are not all set, or two bytes the first of which has them all
set. -/
def ValidTag (tag : Nat) : Prop :=
  (tag < 256 ∧ tag % 32 ≠ 31) ∨ (256 ≤ tag ∧ tag < 65536 ∧ tag / 256 % 32 = 31)

/-- A tag is read back, whatever follows. -/
theorem parseTag_encode {tag : Nat} (h : ValidTag tag) (rest : Bytes) :
    parseTag ((if tag / 256 ≠ 0 then [UInt8.ofNat (tag / 256)] else []) ++ [UInt8.ofNat tag] ++
      rest) = some (tag, rest) := by
  rcases h with ⟨hone, hlow⟩ | ⟨hge, hlt, hlow⟩
  · have hhigh : tag / 256 = 0 := by omega
    have hfirst : ¬ UInt8.ofNat tag &&& 0x1F = 0x1F := by
      rw [low_five_iff, toNat_ofNat_lt hone]
      exact hlow
    rw [if_neg (by simpa using hhigh)]
    show parseTag (UInt8.ofNat tag :: rest) = _
    simp only [parseTag, hfirst, if_false, toNat_ofNat_lt hone]
  · have hhigh : tag / 256 ≠ 0 := by omega
    have hfirst : UInt8.ofNat (tag / 256) &&& 0x1F = 0x1F := by
      rw [low_five_iff, toNat_ofNat_lt (by omega)]
      exact hlow
    rw [if_pos hhigh]
    show parseTag (UInt8.ofNat (tag / 256) :: UInt8.ofNat tag :: rest) = _
    simp only [parseTag, hfirst, if_true]
    -- the two bytes are the tag's quotient and remainder
    have htag : (UInt8.ofNat (tag / 256)).toNat * 256 + (UInt8.ofNat tag).toNat = tag := by
      rw [toNat_ofNat_lt (by omega), UInt8.toNat_ofNat']
      omega
    rw [htag]

/-- The length of an element's contents. -/
def encodeLength (length : Nat) : Bytes :=
  if length < 0x80 then [UInt8.ofNat length]
  else
    (0x80 ||| UInt8.ofNat ((toBe32 length).dropWhile (· == 0)).length) ::
      (toBe32 length).dropWhile (· == 0)

theorem encodeElement_eq (tag : Nat) (value : Bytes) :
    encodeElement tag value =
      (if tag / 256 ≠ 0 then [UInt8.ofNat (tag / 256)] else []) ++ [UInt8.ofNat tag] ++
        (encodeLength value.length ++ value) := by
  unfold encodeElement encodeLength
  split <;> split <;> simp

/-- The first byte of a long form says how many bytes follow. -/
theorem longForm {count : Nat} (h : count ≤ 4) :
    (0x80 ||| UInt8.ofNat count) &&& 0x80 ≠ 0 ∧
      ((0x80 ||| UInt8.ofNat count) &&& 0x7F).toNat = count := by
  have hkey : ∀ c : Fin 5, (0x80 ||| UInt8.ofNat c.val) &&& 0x80 ≠ 0 ∧
      ((0x80 ||| UInt8.ofNat c.val) &&& 0x7F).toNat = c.val := by decide
  exact hkey ⟨count, by omega⟩

/-- The first byte of a short form is the length. -/
theorem shortForm {length : Nat} (h : length < 0x80) : UInt8.ofNat length &&& 0x80 = 0 := by
  have hkey : ∀ n : Fin 128, UInt8.ofNat n.val &&& 0x80 = 0 := by decide +kernel
  exact hkey ⟨length, h⟩

/-- A length is read back, whatever follows. -/
theorem parseLength_encode {length : Nat} (h : length < UInt32.size) (rest : Bytes) :
    parseLength (encodeLength length ++ rest) = some (length, rest) := by
  unfold encodeLength
  split
  · rename_i hshort
    show parseLength (UInt8.ofNat length :: rest) = _
    rw [parseLength, if_neg (by simpa using shortForm hshort), toNat_ofNat_lt (by omega)]
  · have hcount : ((toBe32 length).dropWhile (· == 0)).length ≤ 4 :=
      (List.dropWhile_suffix _).length_le
    obtain ⟨hlong, hlow⟩ := longForm hcount
    show parseLength (_ :: ((toBe32 length).dropWhile (· == 0) ++ rest)) = _
    rw [parseLength, if_pos hlong]
    simp only [hlow, List.take_left, List.drop_left, List.length_append]
    rw [if_neg (by omega), bigEndian_dropWhile, bigEndian_toBe32 h]

/-! ### An element -/

/-- An element in front of anything is read back. -/
theorem parse_encodeElement {tag : Nat} {value : Bytes} (htag : ValidTag tag)
    (hvalue : value.length < UInt32.size) (trailer : Bytes) :
    parse (encodeElement tag value ++ trailer) =
      some { tag := tag, value := value, raw := encodeElement tag value } := by
  have hbytes : encodeElement tag value ++ trailer =
      (if tag / 256 ≠ 0 then [UInt8.ofNat (tag / 256)] else []) ++ [UInt8.ofNat tag] ++
        (encodeLength value.length ++ (value ++ trailer)) := by
    rw [encodeElement_eq]
    simp only [List.append_assoc]
  have hraw : (encodeElement tag value ++ trailer).length - (value ++ trailer).length +
      value.length = (encodeElement tag value).length := by
    have hle : value.length ≤ (encodeElement tag value).length := by
      rw [encodeElement_eq]
      simp only [List.length_append]
      omega
    simp only [List.length_append]
    omega
  unfold parse
  rw [hbytes, parseTag_encode htag]
  simp only [parseLength_encode hvalue]
  rw [if_neg (by simp), ← hbytes, hraw, List.take_left, List.take_left]

namespace Node

/-- The tag of a tree node. -/
def tag : Node → Nat
  | .prim tag _ => tag
  | .cons tag _ => tag

/-- Its contents. -/
def contents : Node → Bytes
  | .prim _ value => value
  | .cons _ children => encodeAll children

/-- The tag is valid, and the length of the contents fits into four bytes. -/
structure Valid (node : Node) : Prop where
  tag : ValidTag node.tag
  contents : node.contents.length < UInt32.size

/-- What a reader should make of it. -/
def tlv (node : Node) : Tlv where
  tag := node.tag
  value := node.contents
  raw := node.encode

theorem encode_eq (node : Node) : node.encode = encodeElement node.tag node.contents := by
  cases node <;> simp only [Node.encode, Node.tag, Node.contents]

/-- It is read back, whatever follows. -/
theorem parse_encode {node : Node} (h : node.Valid) (trailer : Bytes) :
    parse (node.encode ++ trailer) = some node.tlv := by
  rw [encode_eq, parse_encodeElement h.tag h.contents, tlv, encode_eq]

end Node

/-! ### A buffer of elements -/

/-- An element takes its tag and its length at least. -/
theorem parse_some {buf : Bytes} {t : Tlv} (h : parse buf = some t) :
    2 ≤ t.raw.length ∧ t.raw ++ buf.drop t.raw.length = buf := by
  have htag : ∀ {n rest}, parseTag buf = some (n, rest) → rest.length < buf.length := by
    intro n rest h
    unfold parseTag at h
    split at h
    · cases h
    · split at h
      · split at h
        · cases h
        · cases h
          simp only [List.length_cons]
          omega
      · cases h
        simp only [List.length_cons]
        omega
  have hlength : ∀ {buf : Bytes} {n rest}, parseLength buf = some (n, rest) →
      rest.length < buf.length := by
    intro buf n rest h
    unfold parseLength at h
    split at h
    · cases h
    · dsimp only at h
      split at h
      · split at h
        · cases h
        · cases h
          simp only [List.length_drop, List.length_cons]
          omega
      · cases h
        simp only [List.length_cons]
        omega
  unfold parse at h
  split at h
  · cases h
  · rename_i tag rest ht
    split at h
    · cases h
    · rename_i length rest' hl
      split at h
      · cases h
      · rename_i henough
        cases h
        have h₁ := htag ht
        have h₂ := hlength hl
        constructor
        · show 2 ≤ (buf.take (buf.length - rest'.length + length)).length
          rw [List.length_take]
          omega
        · show buf.take (buf.length - rest'.length + length) ++ buf.drop
            (buf.take (buf.length - rest'.length + length)).length = buf
          rw [List.length_take, Nat.min_eq_left (by omega)]
          exact List.take_append_drop _ buf

/-- More turns than bytes change nothing. -/
theorem elementsFrom_enough {turns : Nat} {buf : Bytes} (h : buf.length ≤ turns) :
    elementsFrom turns buf = elements buf := by
  have hkey : ∀ (n turns : Nat) (buf : Bytes), buf.length ≤ n → n ≤ turns →
      elementsFrom turns buf = elementsFrom n buf := by
    intro n
    induction n with
    | zero =>
      intro turns buf hbuf _
      have hnil : buf = [] := List.eq_nil_of_length_eq_zero (by omega)
      subst hnil
      cases turns <;> rfl
    | succ n ih =>
      intro turns buf hbuf hturns
      obtain ⟨turns, rfl⟩ : ∃ m, turns = m + 1 := ⟨turns - 1, by omega⟩
      simp only [elementsFrom]
      cases hp : parse buf with
      | none => rfl
      | some t =>
        have htwo := (parse_some hp).1
        have hrest : (buf.drop t.raw.length).length ≤ n := by
          rw [List.length_drop]
          omega
        simp only [ih turns _ hrest (by omega)]
  exact hkey buf.length turns buf (Nat.le_refl _) h

theorem elements_of_none {buf : Bytes} (h : parse buf = none) : elements buf = [] := by
  unfold elements
  cases hlen : buf.length with
  | zero => rfl
  | succ n => simp only [elementsFrom, h]

/-- One element, and then those of what follows it. -/
theorem elements_of_some {buf : Bytes} {t : Tlv} (h : parse buf = some t) :
    elements buf = t :: elements (buf.drop t.raw.length) := by
  have htwo := (parse_some h).1
  have hlen : buf.length ≠ 0 := by
    intro hzero
    rw [List.eq_nil_of_length_eq_zero hzero] at h
    cases h
  obtain ⟨n, hn⟩ : ∃ n, buf.length = n + 1 := ⟨buf.length - 1, by omega⟩
  have hrest : (buf.drop t.raw.length).length ≤ n := by
    rw [List.length_drop]
    omega
  rw [elements, hn, elementsFrom, h]
  simp only [elementsFrom_enough hrest]

/-- The elements of a list of encodings are those that were encoded. -/
theorem elements_encodeAll {nodes : List Node} (h : ∀ node ∈ nodes, node.Valid) :
    elements (encodeAll nodes) = nodes.map Node.tlv := by
  induction nodes with
  | nil => exact elements_of_none rfl
  | cons node nodes ih =>
    have hparse : parse (encodeAll (node :: nodes)) = some node.tlv := by
      rw [encodeAll]
      exact Node.parse_encode (h node List.mem_cons_self) (encodeAll nodes)
    rw [elements_of_some hparse, List.map_cons]
    have hrest : (encodeAll (node :: nodes)).drop node.tlv.raw.length = encodeAll nodes := by
      rw [encodeAll]
      exact List.drop_left
    rw [hrest, ih fun n hn => h n (List.mem_cons_of_mem node hn)]

/-- A buffer is what its elements take, and a rest that no element starts. -/
theorem elements_split (buf : Bytes) :
    ∃ rest, ((elements buf).map Tlv.raw).flatten ++ rest = buf ∧ parse rest = none := by
  have hkey : ∀ (n : Nat) (buf : Bytes), buf.length ≤ n →
      ∃ rest, ((elements buf).map Tlv.raw).flatten ++ rest = buf ∧ parse rest = none := by
    intro n
    induction n with
    | zero =>
      intro buf hbuf
      have hnil : buf = [] := List.eq_nil_of_length_eq_zero (by omega)
      subst hnil
      exact ⟨[], rfl, rfl⟩
    | succ n ih =>
      intro buf hbuf
      cases hp : parse buf with
      | none =>
        rw [elements_of_none hp]
        exact ⟨buf, rfl, hp⟩
      | some t =>
        obtain ⟨htwo, hsplit⟩ := parse_some hp
        have hrest : (buf.drop t.raw.length).length ≤ n := by
          rw [List.length_drop]
          omega
        obtain ⟨rest, hrest, hend⟩ := ih _ hrest
        refine ⟨rest, ?_, hend⟩
        rw [elements_of_some hp, List.map_cons, List.flatten_cons, List.append_assoc, hrest]
        exact hsplit
  exact hkey buf.length buf (Nat.le_refl _)

/-- An encoding is read back with whatever follows it, a list of encodings is read back child by
child, and on any bytes the iterator comes to an end after the elements that start them. -/
theorem der_round_trip :
    (∀ (node : Node) (trailer : Bytes), node.Valid →
      parse (node.encode ++ trailer) =
        some { tag := node.tag, value := node.contents, raw := node.encode }) ∧
    (∀ nodes : List Node, (∀ node ∈ nodes, node.Valid) →
      elements (encodeAll nodes) =
        nodes.map fun node => { tag := node.tag, value := node.contents, raw := node.encode }) ∧
    (∀ buf : Bytes, (∀ turns, buf.length ≤ turns → elementsFrom turns buf = elements buf) ∧
      ∃ rest, ((elements buf).map Tlv.raw).flatten ++ rest = buf ∧ parse rest = none) :=
  ⟨fun _ trailer h => Node.parse_encode h trailer, fun _ h => elements_encodeAll h,
    fun buf => ⟨fun _ h => elementsFrom_enough h, elements_split buf⟩⟩

/-- `EnableProfileRequest`, with another element behind it. -/
theorem der_round_trip_request :
    let request := Node.cons 0xBF31 [.cons 0xA0 [.prim 0x5A [0x98, 0x10]], .prim 0x81 [0xFF]]
    parse (request.encode ++ [0x5A, 0x00]) =
        some { tag := 0xBF31, value := request.contents, raw := request.encode } ∧
      elements (encodeAll [request, .prim 0x80 [5]]) =
        [{ tag := 0xBF31, value := request.contents, raw := request.encode },
          { tag := 0x80, value := [5], raw := [0x80, 0x01, 0x05] }] := by
  have hrequest : (Node.cons 0xBF31
      [.cons 0xA0 [.prim 0x5A [0x98, 0x10]], .prim 0x81 [0xFF]]).Valid :=
    ⟨Or.inr ⟨by decide, by decide, by decide⟩, by decide⟩
  have hprim : (Node.prim 0x80 [5]).Valid := ⟨Or.inl ⟨by decide, by decide⟩, by decide⟩
  refine ⟨der_round_trip.1 _ _ hrequest, der_round_trip.2.1 _ ?_⟩
  intro node hnode
  rcases List.mem_cons.mp hnode with rfl | hnode
  · exact hrequest
  · rw [List.mem_singleton.mp hnode]
    exact hprim

/-! ### Integers -/

theorem bigEndian_append_singleton (bytes : Bytes) (b : UInt8) :
    bigEndian (bytes ++ [b]) = bigEndian bytes * 256 + b.toNat := by
  rw [bigEndian, List.foldl_append]
  rfl

/-- A byte string is told by its length and its number: the last byte is the remainder. -/
theorem bigEndian_injective {a b : Bytes} (hlength : a.length = b.length)
    (h : bigEndian a = bigEndian b) : a = b := by
  induction a using List.reverseRecOn generalizing b with
  | nil => exact (List.eq_nil_of_length_eq_zero hlength.symm).symm
  | append_singleton a x ih =>
    rcases List.eq_nil_or_concat b with rfl | ⟨b, y, rfl⟩
    · simp at hlength
    · rw [List.concat_eq_append] at hlength h ⊢
      rw [bigEndian_append_singleton, bigEndian_append_singleton] at h
      have hx := x.toNat_lt
      have hy := y.toNat_lt
      have hlast : x = y := UInt8.toNat_inj.mp (by omega)
      have hinit : a = b := by
        refine ih ?_ (by omega)
        simpa using hlength
      rw [hlast, hinit]

/-- Leading zeros do not count. -/
theorem bigEndian_replicate_append (k : Nat) (bytes : Bytes) :
    bigEndian (List.replicate k 0 ++ bytes) = bigEndian bytes := by
  induction k with
  | zero => rfl
  | succ k ih =>
    rw [List.replicate_succ, List.cons_append, bigEndian_cons_zero]
    exact ih

/-- `to_be_bytes`. -/
theorem bigEndian_toBe64 (value : UInt64) :
    bigEndian (toBe32 (value.toNat / UInt32.size) ++ toBe32 value.toNat) = value.toNat := by
  have hlt := value.toNat_lt
  have hsize : UInt32.size = 4294967296 := rfl
  simp only [bigEndian, toBe32, List.cons_append, List.nil_append, List.foldl_cons,
    List.foldl_nil, UInt8.toNat_ofNat', hsize]
  omega

theorem length_toBe64 (value : UInt64) :
    (toBe32 (value.toNat / UInt32.size) ++ toBe32 value.toNat).length = 7 + 1 := rfl

/-- There is a first byte, and its sign bit is clear. -/
def SignClear (bytes : Bytes) : Prop := ∃ first rest, bytes = first :: rest ∧ first &&& 0x80 = 0

/-- Without its first byte it is not one: the rest is empty, or it is a number of its own with its
sign bit set, or the byte counts. -/
def Minimal (bytes : Bytes) : Prop := ∀ rest, bytes = 0 :: rest → ¬ SignClear rest

/-- A byte string with its sign bit clear is the shortest for its number if no zero in front of it
is one too many. -/
theorem Minimal.length_le {bytes other : Bytes} (h : Minimal bytes) (hother : SignClear other)
    (hvalue : bigEndian bytes = bigEndian other) : bytes.length ≤ other.length := by
  refine Nat.le_of_not_lt fun hshorter => ?_
  obtain ⟨k, hk⟩ : ∃ k, bytes.length = k + 1 + other.length :=
    ⟨bytes.length - other.length - 1, by omega⟩
  -- With zeros in front, the shorter one is the longer one.
  have hpadded : bytes = List.replicate (k + 1) 0 ++ other := by
    refine bigEndian_injective ?_ ?_
    · rw [List.length_append, List.length_replicate]
      exact hk
    · rw [bigEndian_replicate_append]
      exact hvalue
  rw [List.replicate_succ, List.cons_append] at hpadded
  refine h (List.replicate k 0 ++ other) hpadded ?_
  cases k with
  | zero => exact hother
  | succ k => exact ⟨0, List.replicate k 0 ++ other, rfl, rfl⟩

/-- What is cut off are zeros, and what follows them does not begin with one unless it is the last
byte. -/
theorem drop_zeros {all : Bytes} {n : Nat} (hlength : all.length = n + 1) :
    ∃ first rest, all.drop (min (all.takeWhile (· == 0)).length n) = first :: rest ∧
      bigEndian (first :: rest) = bigEndian all ∧ (first = 0 → rest = []) := by
  induction n generalizing all with
  | zero =>
    obtain ⟨b, rfl⟩ := List.length_eq_one_iff.mp hlength
    exact ⟨b, [], by rw [Nat.min_zero]; rfl, rfl, fun _ => rfl⟩
  | succ n ih =>
    obtain ⟨b, bytes, rfl⟩ := List.exists_cons_of_length_eq_add_one hlength
    by_cases hb : b = 0
    · subst hb
      obtain ⟨first, rest, hdrop, hvalue, hfirst⟩ := ih (Nat.succ.inj hlength)
      refine ⟨first, rest, ?_, hvalue, hfirst⟩
      rw [List.takeWhile_cons_of_pos (by rfl), List.length_cons, Nat.succ_min_succ]
      exact hdrop
    · refine ⟨b, bytes, ?_, rfl, fun h => absurd h hb⟩
      rw [List.takeWhile_cons_of_neg (by simpa using hb)]
      rfl

/-- What is written for a number: it begins with a clear sign bit, no byte is there in vain, and the
bytes are those of the number. -/
theorem fromU64_spec (value : UInt64) :
    SignClear (fromU64 value) ∧ Minimal (fromU64 value) ∧
      bigEndian (fromU64 value) = value.toNat := by
  obtain ⟨first, rest, hdrop, hvalue, hfirst⟩ :=
    drop_zeros (length_toBe64 value)
  rw [bigEndian_toBe64] at hvalue
  simp only [fromU64, hdrop]
  split
  · rename_i hsign
    refine ⟨⟨0, first :: rest, rfl, rfl⟩, ?_, (bigEndian_cons_zero _).trans hvalue⟩
    rintro tail htail ⟨b, bytes, rfl, hb⟩
    obtain ⟨rfl, rfl⟩ := List.cons.inj (List.cons.inj htail).2
    exact hsign hb
  · rename_i hsign
    refine ⟨⟨first, rest, rfl, Decidable.not_not.mp hsign⟩, ?_, hvalue⟩
    rintro tail htail ⟨b, bytes, rfl, -⟩
    obtain ⟨rfl, htail⟩ := List.cons.inj htail
    rw [hfirst rfl] at htail
    cases htail

/-- A shift by a byte and a byte in its place, modulo `2^64`. -/
theorem shift_or_toNat (acc : UInt64) (b : UInt8) :
    (acc <<< 8 ||| b.toUInt64).toNat = (acc.toNat * 256 + b.toNat) % UInt64.size := by
  have hacc := acc.toNat_lt
  have hb := b.toNat_lt
  have hshift : (acc <<< 8).toNat = 256 * (acc.toNat % 72057594037927936) := by
    have hraw : (acc <<< 8).toNat = acc.toNat <<< 8 % UInt64.size := rfl
    have hsize : UInt64.size = 18446744073709551616 := rfl
    rw [hraw, Nat.shiftLeft_eq, hsize]
    omega
  have hor : 256 * (acc.toNat % 72057594037927936) + b.toNat =
      256 * (acc.toNat % 72057594037927936) ||| b.toNat :=
    Nat.two_pow_add_eq_or_of_lt (i := 8) hb _
  have hsize : UInt64.size = 18446744073709551616 := rfl
  rw [UInt64.toNat_or, hshift, UInt8.toNat_toUInt64, ← hor, hsize]
  omega

/-- What is read is the number modulo `2^64`. -/
theorem toU64_toNat (bytes : Bytes) : (toU64 bytes).toNat = bigEndian bytes % UInt64.size := by
  induction bytes using List.reverseRecOn with
  | nil => rfl
  | append_singleton bytes b ih =>
    have hfold : toU64 (bytes ++ [b]) = toU64 bytes <<< 8 ||| b.toUInt64 := by
      rw [toU64, List.foldl_append]
      rfl
    have hsize : UInt64.size = 18446744073709551616 := rfl
    rw [hfold, shift_or_toNat, ih, bigEndian_append_singleton, hsize]
    omega

/-- Every number below `2^64` is read back from what is written for it, which has its sign bit clear
and is as short as any byte string for the number that has. Any bytes are read as their big-endian
number modulo `2^64`. -/
theorem integer_round_trip :
    (∀ value : UInt64, toU64 (fromU64 value) = value ∧ SignClear (fromU64 value) ∧
      ∀ other, SignClear other → bigEndian other = value.toNat →
        (fromU64 value).length ≤ other.length) ∧
    (∀ bytes, (toU64 bytes).toNat = bigEndian bytes % UInt64.size) := by
  refine ⟨?_, toU64_toNat⟩
  intro value
  obtain ⟨hsign, hminimal, hvalue⟩ := fromU64_spec value
  refine ⟨?_, hsign, ?_⟩
  · rw [← UInt64.toNat_inj, toU64_toNat, hvalue]
    exact Nat.mod_eq_of_lt value.toNat_lt
  · intro other hother hsame
    exact hminimal.length_le hother (hvalue.trans hsame.symm)

/-- The sign bit of 128 takes a second byte, and a ninth byte of a number is lost. -/
theorem integer_round_trip_sign :
    toU64 (fromU64 128) = 128 ∧ (fromU64 128).length ≤ [0, 0, (128 : UInt8)].length ∧
      (toU64 [1, 0, 0, 0, 0, 0, 0, 0, 5]).toNat =
        bigEndian [1, 0, 0, 0, 0, 0, 0, 0, 5] % UInt64.size :=
  ⟨(integer_round_trip.1 128).1,
    (integer_round_trip.1 128).2.2 [0, 0, 128] ⟨0, [0, 128], rfl, rfl⟩ rfl,
    integer_round_trip.2 _⟩

end OpenUI.Euicc
