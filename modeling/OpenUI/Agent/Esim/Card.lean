import OpenUI.Json

/-!
# `OpenUI.Agent.Esim.Card`: what the agent knows of a card

Handles, card hashes and the inventory of `agent/src/esim.rs` ("Card data"). The SHA-256 crate is
not part of the repository, so the digest is a parameter: a `Platform`.
-/

set_option autoImplicit false

namespace OpenUI.Agent.Esim

open OpenUI.Json OpenUI.Text

/-- The code the agent calls and the repository does not hold: the SHA-256 digest. -/
structure Platform where
  sha256 : List UInt8 → List UInt8
  sha256_length : ∀ bytes, (sha256 bytes).length = 32

/-- The two lower-case hexadecimal digits of a byte. -/
def hexByte (b : UInt8) : List Char := [Nat.digitChar (b.toNat / 16), Nat.digitChar (b.toNat % 16)]

/-- `hex`. -/
def hex (bytes : List UInt8) : String := String.ofList (bytes.flatMap hexByte)

/-- The value of one hexadecimal digit, as `from_str_radix` reads it. -/
def hexValue (c : Char) : Option Nat :=
  if isAsciiDigit c then some (c.toNat - 0x30)
  else if 0x61 ≤ c.toNat && c.toNat ≤ 0x66 then some (c.toNat - 0x57)
  else if 0x41 ≤ c.toNat && c.toNat ≤ 0x46 then some (c.toNat - 0x37)
  else none

/-- `u8::from_str_radix(s, 16)` of two characters. A leading `+` is a sign. -/
def byteFromHex (hi lo : Char) : Option UInt8 := do
  let l ← hexValue lo
  if hi = '+' then
    return UInt8.ofNat l
  let h ← hexValue hi
  return UInt8.ofNat (16 * h + l)

/-- `unhex` on the characters. -/
def unhexChars : List Char → Option (List UInt8)
  | [] => some []
  | [_] => none
  | hi :: lo :: rest => do
    let b ← byteFromHex hi lo
    let bs ← unhexChars rest
    return b :: bs

/-- `unhex`. -/
def unhex (s : String) : Option (List UInt8) := unhexChars s.toList

/-- `salted`: the hexadecimal digest of `salt:value`, digit by digit. -/
def salted (P : Platform) (salt : List UInt8) (value : String) : List Char :=
  (P.sha256 (salt ++ 0x3A :: value.toUTF8.data.toList)).flatMap hexByte

/-- `handle_for`: a stable, opaque profile handle for clients. -/
def handleFor (P : Platform) (salt : List UInt8) (iccid : String) : String :=
  String.ofList ('p' :: (salted P salt ("iccid:" ++ iccid)).take 16)

/-- `card_hash`. -/
def cardHash (P : Platform) (salt : List UInt8) (eid : String) : String :=
  String.ofList ((salted P salt ("eid:" ++ toAsciiLowercase eid)).take 32)

/-- `CardProfile`. -/
structure CardProfile where
  iccid : String
  handle : String
  state : String
  class' : String
  nickname : Option String
  provider : Option String
  name : Option String
  deriving DecidableEq, Repr

/-- `Inventory`: one read of the card. -/
structure Inventory where
  eid : String
  info : Value
  profiles : List CardProfile
  notifications : List Nat
  observed : Nat

namespace Inventory

/-- `Inventory::enabled`. -/
def enabled (inv : Inventory) : Option CardProfile :=
  inv.profiles.find? (fun p => p.state == "enabled")

/-- `Inventory::find`. -/
def find (inv : Inventory) (handle : String) : Option CardProfile :=
  inv.profiles.find? (fun p => p.handle == handle)

/-- `Inventory::same_content`: what a client's revision covers. -/
def sameContent (inv other : Inventory) : Bool :=
  inv.eid == other.eid && inv.profiles == other.profiles

end Inventory

/-- One entry of the helper's profile list; an entry without an ICCID is skipped. -/
def parseProfile (P : Platform) (salt : List UInt8) (p : Value) : Option CardProfile := do
  let iccid ← (p.get "iccid").asStr
  return {
    iccid
    handle := handleFor P salt iccid
    state := (p.get "state").asStr.getD "unknown"
    class' := (p.get "class").asStr.getD "operational"
    nickname := optText (p.get "nickname")
    provider := optText (p.get "provider")
    name := optText (p.get "name") }

/-- `parse_inventory`. -/
def parseInventory (P : Platform) (salt : List UInt8) (now : Nat) (data : Value) :
    Option Inventory := do
  let eid ← (data.get "eid").asStr
  let profiles ← (data.get "profiles").asArray
  return {
    eid
    info := data.get "info"
    profiles := profiles.filterMap (parseProfile P salt)
    notifications :=
      ((data.get "notifications").asArray.getD []).filterMap (fun n => (n.get "seq").asU64)
    observed := now }

/-- `mask`: `…1234`, the last four characters. -/
def mask (id : String) : String :=
  String.ofList ('…' :: (id.toList.reverse.take 4).reverse)

/-- `identifier_like`: names that are really identifiers. -/
def identifierLike (text iccid eid : String) : Bool :=
  let compact := String.ofList ((trim text).toList.filter (fun c => !isWhitespace c))
  (6 ≤ compact.utf8ByteSize && compact.toList.all isAsciiDigit)
    || (16 ≤ compact.utf8ByteSize && compact.toList.all isAsciiHexdigit)
    || (!iccid.isEmpty && contains compact iccid)
    || (!eid.isEmpty && contains (toAsciiLowercase compact) (toAsciiLowercase eid))

/-! ### Digests, handles and hashes as text -/

/-- The digits of a byte, as characters. -/
theorem digitChar_facts : ∀ d < 16, isWhitespace (Nat.digitChar d) = false ∧
    Nat.digitChar d ≠ '+' ∧ hexValue (Nat.digitChar d) = some d := by decide

theorem hexByte_chars (b : UInt8) : ∀ c ∈ hexByte b, isWhitespace c = false := by
  have hb := b.toNat_lt
  intro c hc
  simp only [hexByte, List.mem_cons, List.not_mem_nil, or_false] at hc
  rcases hc with rfl | rfl
  · exact (digitChar_facts _ (by omega)).1
  · exact (digitChar_facts _ (by omega)).1

theorem byteFromHex_hexByte (b : UInt8) :
    byteFromHex (Nat.digitChar (b.toNat / 16)) (Nat.digitChar (b.toNat % 16)) = some b := by
  have hb := b.toNat_lt
  obtain ⟨-, hplus, hhigh⟩ := digitChar_facts (b.toNat / 16) (by omega)
  obtain ⟨-, -, hlow⟩ := digitChar_facts (b.toNat % 16) (by omega)
  have hwhole : 16 * (b.toNat / 16) + b.toNat % 16 = b.toNat := by omega
  rw [byteFromHex, hlow, hhigh]
  show (if Nat.digitChar (b.toNat / 16) = '+' then some (UInt8.ofNat (b.toNat % 16))
    else some (UInt8.ofNat (16 * (b.toNat / 16) + b.toNat % 16))) = some b
  rw [if_neg hplus, hwhole, UInt8.ofNat_toNat]

/-- Bytes written in hexadecimal read back. -/
@[simp] theorem unhex_hex (bytes : List UInt8) : unhex (hex bytes) = some bytes := by
  rw [unhex, hex, String.toList_ofList]
  induction bytes with
  | nil => rfl
  | cons b bs ih =>
      rw [List.flatMap_cons, hexByte, List.cons_append, List.cons_append, List.nil_append,
        unhexChars, byteFromHex_hexByte, ih]
      rfl

theorem salted_chars (P : Platform) (salt : List UInt8) (value : String) :
    ∀ c ∈ salted P salt value, isWhitespace c = false := by
  intro c hc
  obtain ⟨b, _, hb⟩ := List.mem_flatMap.mp hc
  exact hexByte_chars b c hb

theorem salted_length (P : Platform) (salt : List UInt8) (value : String) :
    (salted P salt value).length = 64 := by
  have h : ∀ bytes : List UInt8, (bytes.flatMap hexByte).length = 2 * bytes.length := by
    intro bytes
    simp [List.length_flatMap, hexByte, Nat.mul_comm]
  rw [salted, h, P.sha256_length]

/-- A card hash is a text `opt_text` reads back. -/
theorem optText_cardHash (P : Platform) (salt : List UInt8) (eid : String) :
    optText (.str (cardHash P salt eid)) = some (cardHash P salt eid) := by
  apply optText_str
  · have hlen : (cardHash P salt eid).toList.length = 32 := by
      rw [cardHash, String.toList_ofList, List.length_take, salted_length]
      rfl
    rw [String.isEmpty_eq_false_iff]
    rintro h
    rw [h] at hlen
    cases hlen
  · intro c hc
    rw [cardHash, String.toList_ofList] at hc
    exact salted_chars P salt _ c (List.mem_of_mem_take hc)

/-- A profile handle is a text `opt_text` reads back. -/
theorem optText_handleFor (P : Platform) (salt : List UInt8) (iccid : String) :
    optText (.str (handleFor P salt iccid)) = some (handleFor P salt iccid) := by
  apply optText_str
  · rw [String.isEmpty_eq_false_iff]
    intro h
    have := congrArg String.toList h
    rw [handleFor, String.toList_ofList] at this
    cases this
  · intro c hc
    rw [handleFor, String.toList_ofList, List.mem_cons] at hc
    rcases hc with rfl | hc
    · rfl
    · exact salted_chars P salt _ c (List.mem_of_mem_take hc)

/-- Every profile of a parsed inventory carries the handle of its ICCID. -/
theorem handle_of_parsed {P : Platform} {salt : List UInt8} {now : Nat} {data : Value}
    {inv : Inventory} (h : parseInventory P salt now data = some inv) :
    ∀ p ∈ inv.profiles, p.handle = handleFor P salt p.iccid := by
  simp only [parseInventory, Option.bind_eq_bind, Option.bind_eq_some_iff, Option.pure_def,
    Option.some.injEq] at h
  obtain ⟨eid, _, profiles, _, rfl⟩ := h
  intro p hp
  obtain ⟨v, _, hv⟩ := List.mem_filterMap.mp hp
  simp only [parseProfile, Option.bind_eq_bind, Option.bind_eq_some_iff, Option.pure_def,
    Option.some.injEq] at hv
  obtain ⟨iccid, _, rfl⟩ := hv
  rfl

end OpenUI.Agent.Esim
