import OpenUI.Concurrency.Program

/-!
# `OpenUI.Euicc.Command`: ES10 commands as APDUs

`euicc/src/lib.rs`: an ES10 request goes to the card as STORE DATA blocks of at most 120 bytes, and
an answer that is longer than one response is fetched with GET RESPONSE. The programs here talk to
the card through the one action of `trait Apdu` that does so, `transmit`.

A card that goes on answering `61xx` keeps `transmit_collect` in its loop until the deadline of the
run. `polls` bounds the number of GET RESPONSE it answers in time.
-/

set_option autoImplicit false

namespace OpenUI.Euicc

open OpenUI.Concurrency

/-- Bytes of an APDU, an answer or an encoded element. -/
abbrev Bytes := List UInt8

/-- `Error`. -/
inductive Error where
  /-- The transport failed (no card, modem error, timeout). -/
  | transport (message : String)
  /-- The card answered with an error status word. -/
  | status (sw1 sw2 : UInt8)
  /-- The card's answer was not the expected structure. -/
  | malformed (what : String)
  /-- A caller argument could not be encoded. -/
  | argument (what : String)
  deriving DecidableEq, Repr

/-- How APDUs reach the card: `trait Apdu` on an open channel. -/
inductive Exchange : Type → Type where
  | transmit (apdu : Bytes) : Exchange (Except Error Bytes)

/-- `MSS`: the largest STORE DATA block. -/
def mss : Nat := 120

/-- `class`: the class byte of a logical channel. -/
def classByte (channel base : UInt8) : UInt8 :=
  if channel ≤ 3 then (base &&& 0xFC) ||| channel
  else (base &&& 0xB0) ||| 0x40 ||| ((channel - 4) &&& 0x0F)

/-- GET RESPONSE for the `sw2` bytes that wait. -/
def getResponse (channel sw2 : UInt8) : Bytes := [classByte channel 0x80, 0xC0, 0x00, 0x00, sw2]

/-- `transmit_collect`: sends one APDU and collects the response data, following `61xx`. -/
def transmitCollect (channel : UInt8) : Nat → Bytes → Bytes → Program Exchange (Except Error Bytes)
  | polls, apdu, out => do
    let answer ← Exchange.transmit apdu
    match answer with
    | .error e => pure (.error e)
    | .ok rx =>
      match rx.reverse with
      | sw2 :: sw1 :: data =>
        let out := out ++ data.reverse
        if sw1 = 0x61 then
          match polls with
          | 0 => do
            -- The answer to this one does not come before the deadline.
            let _ ← Exchange.transmit (getResponse channel sw2)
            pure (.error (.transport "modem did not answer in time"))
          | polls + 1 => transmitCollect channel polls (getResponse channel sw2) out
        else if sw1 &&& 0xF0 = 0x90 then pure (.ok out)
        else pure (.error (.status sw1 sw2))
      | _ => pure (.error (.malformed "response shorter than a status word"))

/-- `der.chunks(MSS)`: the blocks of a request. -/
def blocks (der : Bytes) : List Bytes :=
  (List.range ((der.length + mss - 1) / mss)).map fun k => (der.drop (mss * k)).take mss

/-- The STORE DATA APDU of block number `seq`. Its number is counted modulo 256. -/
def storeData (channel : UInt8) (isLast : Bool) (seq : Nat) (block : Bytes) : Bytes :=
  [classByte channel 0x80, 0xE2, if isLast then 0x91 else 0x11, UInt8.ofNat seq,
    UInt8.ofNat block.length] ++ block

/-- `command`, the blocks from number `seq` on. -/
def sendBlocks (channel : UInt8) (polls : Nat) :
    Nat → List Bytes → Bytes → Program Exchange (Except Error Bytes)
  | _, [], out => pure (.ok out)
  | seq, block :: rest, out => do
    let result ← transmitCollect channel polls (storeData channel rest.isEmpty seq block) out
    match result with
    | .error e => pure (.error e)
    | .ok out => sendBlocks channel polls (seq + 1) rest out

/-- `command`: sends an ES10 request as STORE DATA blocks and returns the whole response. -/
def command (channel : UInt8) (polls : Nat) (der : Bytes) : Program Exchange (Except Error Bytes) :=
  sendBlocks channel polls 0 (blocks der) []

end OpenUI.Euicc
