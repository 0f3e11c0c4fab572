import OpenUI.Euicc.Command

/-!
# `OpenUI.Euicc.Der`: BER-TLV elements

`euicc/src/der.rs`: one- or two-byte tags and definite lengths. `parse` reads the element at the
start of a buffer, `elements` those of a whole buffer, and `Node.encode` writes a tree of them.
-/

set_option autoImplicit false

namespace OpenUI.Euicc

/-! ### Reading -/

/-- `Tlv`: one parsed element. -/
structure Tlv where
  tag : Nat
  /-- Contents (without tag and length). -/
  value : Bytes
  /-- The whole element: tag, length and contents. -/
  raw : Bytes
  deriving DecidableEq, Repr

/-- A tag, and what follows it. -/
def parseTag : Bytes → Option (Nat × Bytes)
  | [] => none
  | first :: rest =>
    if first &&& 0x1F = 0x1F then
      match rest with
      | [] => none
      | second :: rest => some (first.toNat * 256 + second.toNat, rest)
    else some (first.toNat, rest)

/-- The big-endian number in some bytes. -/
def bigEndian (bytes : Bytes) : Nat := bytes.foldl (fun n b => n * 256 + b.toNat) 0

/-- A length, and what follows it. A long form has at most 4 length bytes. -/
def parseLength : Bytes → Option (Nat × Bytes)
  | [] => none
  | first :: rest =>
    if first &&& 0x80 ≠ 0 then
      let count := (first &&& 0x7F).toNat
      if 4 < count ∨ rest.length < count then none
      else some (bigEndian (rest.take count), rest.drop count)
    else some (first.toNat, rest)

/-- `parse`: the element at the start of `buf`. -/
def parse (buf : Bytes) : Option Tlv :=
  match parseTag buf with
  | none => none
  | some (tag, rest) =>
    match parseLength rest with
    | none => none
    | some (length, rest) =>
      if rest.length < length then none
      else some
        { tag, value := rest.take length, raw := buf.take (buf.length - rest.length + length) }

/-- `iter`, for so many turns. Each takes at least two bytes. -/
def elementsFrom : Nat → Bytes → List Tlv
  | 0, _ => []
  | turns + 1, buf =>
    match parse buf with
    | none => []
    | some t => t :: elementsFrom turns (buf.drop t.raw.length)

/-- `iter`: the elements in `buf`, one after another, up to the first malformed one. -/
def elements (buf : Bytes) : List Tlv := elementsFrom buf.length buf

/-- `find`: the first element in `buf` with `tag`. -/
def find (buf : Bytes) (tag : Nat) : Option Tlv := (elements buf).find? (·.tag == tag)

/-- `to_u64`: big-endian unsigned integer contents. -/
def toU64 (value : Bytes) : UInt64 := value.foldl (fun acc b => acc <<< 8 ||| b.toUInt64) 0

/-! ### Writing -/

/-- `Node`: an element to encode. -/
inductive Node where
  /-- Tag with literal contents. -/
  | prim (tag : Nat) (value : Bytes)
  /-- Tag whose contents are the encoded children. -/
  | cons (tag : Nat) (children : List Node)

/-- The low four bytes of a number, big-endian. -/
def toBe32 (n : Nat) : Bytes :=
  [UInt8.ofNat (n / 0x1000000), UInt8.ofNat (n / 0x10000), UInt8.ofNat (n / 0x100), UInt8.ofNat n]

/-- The tag, the length and the contents of an element. -/
def encodeElement (tag : Nat) (value : Bytes) : Bytes :=
  (if tag / 256 ≠ 0 then [UInt8.ofNat (tag / 256)] else []) ++ [UInt8.ofNat tag] ++
    (if value.length < 0x80 then [UInt8.ofNat value.length]
    else
      let bytes := (toBe32 value.length).dropWhile (· == 0)
      (0x80 ||| UInt8.ofNat bytes.length) :: bytes) ++ value

mutual

/-- `encode`. -/
def Node.encode : Node → Bytes
  | .prim tag value => encodeElement tag value
  | .cons tag children => encodeElement tag (encodeAll children)

/-- The children of an element, one after the other. -/
def encodeAll : List Node → Bytes
  | [] => []
  | node :: nodes => node.encode ++ encodeAll nodes

end

/-- `from_u64`: minimal INTEGER contents for a non-negative value (a leading zero keeps the sign bit
clear). -/
def fromU64 (value : UInt64) : Bytes :=
  let all := toBe32 (value.toNat / UInt32.size) ++ toBe32 value.toNat
  let skip := min (all.takeWhile (· == 0)).length 7
  match all.drop skip with
  | [] => []
  | first :: rest => if first &&& 0x80 ≠ 0 then 0 :: first :: rest else first :: rest

end OpenUI.Euicc
