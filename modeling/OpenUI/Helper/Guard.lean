import OpenUI.Concurrency.Interpreter
import OpenUI.Euicc.Command
import OpenUI.Json

/-!
# `OpenUI.Helper.Guard`: the command guard

`Guard` of `esim-helper/src/main.rs` stands between an operation and the card. It passes GET
RESPONSE and the STORE DATA blocks of the commands the operation may send, refuses everything else,
and records in `write_sent` whether a command that changes the card left. `Guard.offer` is what it
decides about one APDU; `overGuard` and `bare` are the two channels a command may run on.
-/

set_option autoImplicit false

namespace OpenUI.Helper

open OpenUI.Concurrency OpenUI.Euicc OpenUI.Json

/-! ### Tags -/

namespace Tag

/-- `WRITES`: ENABLE, DISABLE, SET_NICKNAME, REMOVE_NOTIFICATION and DELETE. -/
def writes : List Nat := [0xBF31, 0xBF32, 0xBF29, 0xBF30, 0xBF33]

/-- `INSTALL`: the LoadBoundProfilePackage segments. -/
def install : List Nat := [0xBF36, 0xA0, 0xA1, 0x88, 0xA2, 0xA3, 0x86]

end Tag

/-- `leading_tag`: the BER tag at the start of a request (one or two bytes). -/
def leadingTag : Bytes → Option Nat
  | [] => none
  | first :: rest =>
    if first &&& 0x1F = 0x1F then rest.head?.map fun second => first.toNat * 256 + second.toNat
    else some first.toNat

/-! ### The guard -/

/-- The process-wide flags the guard reads and sets. -/
structure Flags where
  /-- `CANCELLED`: SIGTERM or SIGINT has arrived. -/
  cancelled : Bool := false
  /-- `WRITE_IN_FLIGHT`. -/
  writeInFlight : Bool := false
  /-- `INSTALLING`. -/
  installing : Bool := false
  deriving DecidableEq, Repr

/-- `Guard`, without the channel inside it. -/
structure Guard where
  allowed : List Nat
  writeSent : Bool := false
  /-- The tag of a multi-block command whose next block is due. -/
  continuing : Option Nat := none
  deriving DecidableEq, Repr

namespace Guard

/-- `allows`: the tag of an APDU that may pass, `0` for GET RESPONSE. -/
def allows (g : Guard) (apdu : Bytes) : Option Nat × Guard :=
  if apdu[1]? = some 0xC0 then (some 0, g)
  else if apdu[1]? = some 0xE2 ∧ (apdu[2]? = some 0x11 ∨ apdu[2]? = some 0x91) then
    match apdu[3]? with
    | none => (none, g)
    | some block =>
      let tag :=
        if block = 0 then (leadingTag (apdu.drop 5)).filter (fun t => g.allowed.contains t)
        else g.continuing
      match tag with
      | none => (none, g)
      | some t =>
        (some t, { g with continuing := if apdu[2]? = some 0x11 then some t else none })
  else (none, g)

/-- `transmit`, up to the hand-over to the channel inside: the APDU is refused, or it goes out
under its tag. -/
def offer (f : Flags) (g : Guard) (apdu : Bytes) : Except Error Nat × Flags × Guard :=
  match g.allows apdu with
  | (none, g) => (.error (.transport "command not allowed for this operation"), f, g)
  | (some t, g) =>
    if f.cancelled && !g.writeSent && !f.installing then (.error (.transport "cancelled"), f, g)
    else
      (.ok t,
        { f with
          installing := f.installing || Tag.install.contains t
          writeInFlight := Tag.writes.contains t || f.writeInFlight },
        { g with writeSent := g.writeSent || Tag.install.contains t || Tag.writes.contains t })

end Guard

/-- `transmit`, once the channel has answered an APDU with tag `t`. -/
def Flags.answered (t : Nat) (f : Flags) : Flags :=
  if Tag.writes.contains t then { f with writeInFlight := false } else f

/-! ### Channels -/

/-- A card's answers, in order, and the APDUs that reached it. A card that has no more answers
fails the transport. -/
structure Script where
  answers : List (Except Error Bytes)
  sent : List Bytes := []

/-- The card takes an APDU and answers. -/
def Script.transmit (apdu : Bytes) (s : Script) : Except Error Bytes × Script :=
  (s.answers.head?.getD (.error (.transport "no scripted response")),
    { answers := s.answers.tail, sent := s.sent ++ [apdu] })

/-- A channel without the guard. -/
def bare : Handler Exchange Script
  | _, .transmit apdu, s => s.transmit apdu

/-- The guard, the process's flags and the card behind them. -/
structure Line where
  flags : Flags
  guard : Guard
  card : Script

/-- A channel behind the guard. -/
def overGuard : Handler Exchange Line
  | _, .transmit apdu, l =>
    match l.guard.offer l.flags apdu with
    | (.error e, f, g) => (.error e, { l with flags := f, guard := g })
    | (.ok t, f, g) =>
      let (answer, card) := l.card.transmit apdu
      (answer, ⟨f.answered t, g, card⟩)

/-! ### Failures -/

/-- `Failure`: why a request ended without its result. -/
structure Failure where
  kind : String
  message : String
  extra : Value := .null

/-- `Display` of `euicc::Error`. -/
def errorText : Error → String
  | .transport m => m
  | .status sw1 sw2 => "card status " ++ hexUpper sw1 ++ hexUpper sw2
  | .malformed what => "unexpected card response (" ++ what ++ ")"
  | .argument what => "invalid argument (" ++ what ++ ")"
where
  /-- Two upper-case hexadecimal digits. -/
  hexUpper (b : UInt8) : String :=
    String.ofList [(Nat.digitChar (b.toNat / 16)).toUpper, (Nat.digitChar (b.toNat % 16)).toUpper]

/-- `read_err`. -/
def readErr (what : String) (e : Error) : Failure :=
  let m := what ++ ": " ++ errorText e
  if Text.contains m "cancelled" then { kind := "cancelled", message := m }
  else { kind := "transport", message := m }

/-- `write_result`: 0 is applied, another code is the card's refusal, and a failure after the
command left is an unknown outcome. `reason` is `euicc::es10c::result_reason`, a text. -/
def writeResult (reason : String → Nat → String) (op : String) (result : Except Error Nat)
    (writeSent : Bool) (data : List (String × Value)) : Except Failure Value :=
  match result with
  | .ok 0 => .ok (.obj (data ++ [("result", .str "applied")]))
  | .ok code =>
    .error { kind := "refused", message := reason op code, extra := .obj [("code", .num code)] }
  | .error x =>
    if writeSent then
      .error {
        kind := "outcome_unknown"
        message := op ++ ": the card's answer was lost (" ++ errorText x ++ ")" }
    else .error (readErr op x)

end OpenUI.Helper
