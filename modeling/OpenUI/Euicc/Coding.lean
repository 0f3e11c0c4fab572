import OpenUI.Euicc.Command

/-!
# `OpenUI.Euicc.Coding`: UTF-8, base64, hex and BCD

`euicc/src/b64.rs` and `euicc/src/hex.rs`: the texts that go between the card's bytes, the server's
base64 and the digits of an ICCID. Texts on the card are read with `String::from_utf8_lossy`.
-/

set_option autoImplicit false

namespace OpenUI.Euicc

/-- `str::as_bytes`. -/
def utf8 (s : String) : Bytes := s.toByteArray.data.toList

/-! ### Lossy UTF-8 -/

/-- A continuation byte of UTF-8. -/
def isContinuation (b : UInt8) : Bool := 0x80 ≤ b && b ≤ 0xBF

/-- A first byte of a longer character, and a second byte that may follow it. -/
def isFollowed (first second : UInt8) : Bool :=
  if first < 0xC2 then false
  else if first = 0xE0 then 0xA0 ≤ second && second ≤ 0xBF
  else if first = 0xED then 0x80 ≤ second && second ≤ 0x9F
  else if first = 0xF0 then 0x90 ≤ second && second ≤ 0xBF
  else if first = 0xF4 then 0x80 ≤ second && second ≤ 0x8F
  else first < 0xF4 && isContinuation second

/-- The bits a continuation byte carries. -/
def carried (b : UInt8) : Nat := (b &&& 0x3F).toNat

/-- U+FFFD, what a broken piece of UTF-8 reads as. -/
def replacement : Char := Char.ofNat 0xFFFD

/-- The characters of `String::from_utf8_lossy`: each maximal broken piece is one replacement. -/
def lossyChars : Bytes → List Char
  | [] => []
  | [a] => [if a < 0x80 then Char.ofNat a.toNat else replacement]
  | a :: b :: rest =>
    if a < 0x80 then Char.ofNat a.toNat :: lossyChars (b :: rest)
    else if !isFollowed a b then replacement :: lossyChars (b :: rest)
    else if a < 0xE0 then Char.ofNat ((a &&& 0x1F).toNat * 0x40 + carried b) :: lossyChars rest
    else match rest with
      | [] => [replacement]
      | c :: rest =>
        if !isContinuation c then replacement :: lossyChars (c :: rest)
        else if a < 0xF0 then
          Char.ofNat (((a &&& 0x0F).toNat * 0x40 + carried b) * 0x40 + carried c) ::
            lossyChars rest
        else match rest with
          | [] => [replacement]
          | d :: rest =>
            if !isContinuation d then replacement :: lossyChars (d :: rest)
            else
              Char.ofNat ((((a &&& 0x07).toNat * 0x40 + carried b) * 0x40 + carried c) * 0x40 +
                carried d) :: lossyChars rest

/-- `String::from_utf8_lossy`. -/
def fromUtf8Lossy (bytes : Bytes) : String := String.ofList (lossyChars bytes)

/-! ### Base64 -/

/-- `sextet`: the value of a character of the standard alphabet. -/
def sextet (c : UInt8) : Option UInt8 :=
  if 0x41 ≤ c ∧ c ≤ 0x5A then some (c - 0x41)
  else if 0x61 ≤ c ∧ c ≤ 0x7A then some (c - 0x61 + 26)
  else if 0x30 ≤ c ∧ c ≤ 0x39 then some (c - 0x30 + 52)
  else if c = 0x2B then some 62
  else if c = 0x2F then some 63
  else none

/-- The leading run of alphabet characters, as their values. -/
def sextets : Bytes → Bytes
  | [] => []
  | c :: cs => match sextet c with
    | none => []
    | some s => s :: sextets cs

/-- The bytes of the groups of four. A final group of one character yields nothing. -/
def decodeGroups : Bytes → Bytes
  | a :: b :: c :: d :: rest =>
    (a <<< 2 ||| b >>> 4) :: (b <<< 4 ||| c >>> 2) :: (c <<< 6 ||| d) :: decodeGroups rest
  | [a, b, c] => [a <<< 2 ||| b >>> 4, b <<< 4 ||| c >>> 2]
  | [a, b] => [a <<< 2 ||| b >>> 4]
  | _ => []

/-- `b64::decode`: only the leading run of standard-alphabet characters counts. -/
def decodeBase64 (text : String) : Bytes := decodeGroups (sextets (utf8 text))

/-- The character of a value. -/
def alphabetChar (s : UInt8) : Char :=
  if s < 26 then Char.ofNat (s.toNat + 0x41)
  else if s < 52 then Char.ofNat (s.toNat - 26 + 0x61)
  else if s < 62 then Char.ofNat (s.toNat - 52 + 0x30)
  else if s = 62 then '+'
  else '/'

/-- The characters of three bytes at a time, with padding. -/
def encodeGroups : Bytes → List Char
  | a :: b :: c :: rest =>
    alphabetChar (a >>> 2) :: alphabetChar ((a <<< 4 ||| b >>> 4) &&& 0x3F) ::
      alphabetChar ((b <<< 2 ||| c >>> 6) &&& 0x3F) :: alphabetChar (c &&& 0x3F) ::
        encodeGroups rest
  | [a, b] => [alphabetChar (a >>> 2), alphabetChar ((a <<< 4 ||| b >>> 4) &&& 0x3F),
      alphabetChar ((b <<< 2) &&& 0x3F), '=']
  | [a] => [alphabetChar (a >>> 2), alphabetChar ((a <<< 4) &&& 0x3F), '=', '=']
  | [] => []

/-- `b64::encode`: standard alphabet with padding. -/
def encodeBase64 (bin : Bytes) : String := String.ofList (encodeGroups bin)

/-! ### ICCIDs -/

/-- `char::to_digit(16)`. -/
def hexDigit (c : UInt8) : Option UInt8 :=
  if 0x30 ≤ c ∧ c ≤ 0x39 then some (c - 0x30)
  else if 0x61 ≤ c ∧ c ≤ 0x66 then some (c - 0x61 + 10)
  else if 0x41 ≤ c ∧ c ≤ 0x46 then some (c - 0x41 + 10)
  else none

/-- The bytes of digit pairs, the low digit first; an odd count is padded with `f`. -/
def swappedBytes : Bytes → Option Bytes
  | [] => some []
  | [low] => do
    let low ← hexDigit low
    return [0xF0 ||| low]
  | low :: high :: rest => do
    let low ← hexDigit low
    let high ← hexDigit high
    return (high <<< 4 ||| low) :: (← swappedBytes rest)

/-- `iccid_to_bcd`: ICCID digits to card bytes, padded with `FF`. -/
def iccidToBcd (digits : String) (paddingTo : Nat) : Option Bytes := do
  let out ← swappedBytes (utf8 digits)
  if paddingTo < out.length then none
  else return out ++ List.replicate (paddingTo - out.length) 0xFF

/-- The two hexadecimal digits of a byte, with the low one first. -/
def swappedDigits (b : UInt8) : List Char :=
  [Nat.digitChar (b.toNat % 16), Nat.digitChar (b.toNat / 16)]

/-- Trailing `f` padding dropped; the first character always stays. -/
def dropPadding (chars : List Char) : List Char :=
  chars.take 1 ++ ((chars.drop 1).reverse.dropWhile (· == 'f')).reverse

/-- `bcd_to_iccid`: swap each digit pair and drop the trailing `f` padding. -/
def bcdToIccid (bin : Bytes) : String := String.ofList (dropPadding (bin.flatMap swappedDigits))

end OpenUI.Euicc
