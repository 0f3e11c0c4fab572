import OpenUI.Concurrency.Interrupted
import OpenUI.Helper.Guard
import OpenUI.Text

/-!
# `OpenUI.Helper.Uim`: the card over the modem's QMI service

`esim-helper/src/qrtr_uim.rs`: APDUs to the SIM go to the modem's UIM service as QMI messages, on
one logical channel that a card session opens first and closes last. `UimClient`'s functions are
programs over the socket and the process's flags; `Session` is `Card::session` with what the
operation does in it, and an operation is any program of sessions.

`Run` keeps the books of a run: the channels the modem opened for it, and those the run holds. No
call depends on them.
-/

set_option autoImplicit false

namespace OpenUI.Helper.Uim

open OpenUI.Concurrency OpenUI.Euicc OpenUI.Json OpenUI.Text

/-! ### QMI messages -/

/-- `u16::from_le_bytes`. -/
def le16 (low high : UInt8) : UInt16 := low.toUInt16 ||| (high.toUInt16 <<< 8)

/-- `le32`: four bytes of a longer buffer. -/
def le32 (b : Bytes) (i : Nat) : Option UInt32 :=
  match b.drop i with
  | b₀ :: b₁ :: b₂ :: b₃ :: _ =>
    some (b₀.toUInt32 ||| (b₁.toUInt32 <<< 8) ||| (b₂.toUInt32 <<< 16) ||| (b₃.toUInt32 <<< 24))
  | _ => none

/-- Types and values of a message. -/
abbrev Tlvs := List (UInt8 × Bytes)

/-- `u16::to_le_bytes`. -/
def leBytes (n : UInt16) : Bytes := [n.toUInt8, (n >>> 8).toUInt8]

/-- The body of a message. Lengths are cut to 16 bits. -/
def encodeBody (tlvs : Tlvs) : Bytes :=
  tlvs.flatMap fun (t, v) => t :: leBytes (UInt16.ofNat v.length) ++ v

/-- `encode`: one QMI message as sent over QRTR: type, transaction, message id, TLVs. -/
def encode (kind : UInt8) (txn msgId : UInt16) (tlvs : Tlvs) : Bytes :=
  let body := encodeBody tlvs
  kind :: leBytes txn ++ leBytes msgId ++ leBytes (UInt16.ofNat body.length) ++ body

/-- `Message`. -/
structure Message where
  kind : UInt8
  txn : UInt16
  msgId : UInt16
  tlvs : Tlvs
  deriving DecidableEq, Repr

/-- The loop of `decode` over what is left of a message. Each turn takes at least three bytes. -/
def decodeTlvs : Nat → Bytes → Option Tlvs
  | _, [] => some []
  | turns + 1, t :: low :: high :: rest =>
    let length := (le16 low high).toNat
    if rest.length < length then none
    else (decodeTlvs turns (rest.drop length)).map ((t, rest.take length) :: ·)
  | _, _ => none

/-- `decode`. -/
def decode : Bytes → Option Message
  | kind :: t₀ :: t₁ :: m₀ :: m₁ :: l₀ :: l₁ :: rest =>
    let length := (le16 l₀ l₁).toNat
    if rest.length < length then none
    else (decodeTlvs length (rest.take length)).map fun tlvs =>
      { kind, txn := le16 t₀ t₁, msgId := le16 m₀ m₁, tlvs }
  | _ => none

/-- `tlv`, `field`: the first value of a type. -/
def field (tlvs : Tlvs) (t : UInt8) : Option Bytes := (tlvs.find? (·.1 == t)).map (·.2)

/-- `qmi_error_name`: the codes seen around SIM access. -/
def qmiErrorName : Nat → String
  | 0x01 => "MalformedMessage"
  | 0x02 => "NoMemory"
  | 0x03 => "Internal"
  | 0x10 => "NotProvisioned"
  | 0x11 => "MissingArgument"
  | 0x13 => "ArgumentTooLong"
  | 0x25 => "UimUninitialized"
  | 0x2E => "GeneralError"
  | 0x30 => "InvalidArgument"
  | 0x32 => "NoEntry"
  | 0x34 => "DeviceNotReady"
  | 0x44 => "InsufficientResources"
  | 0x46 => "InvalidOperation"
  | 0x47 => "InvalidQmiCommand"
  | 0x50 => "SimFileNotFound"
  | 0x52 => "AccessDenied"
  | _ => ""

/-- `qmi_error`. -/
def qmiError (code : Nat) : String :=
  "QMI error " ++ (toString code ++
    if qmiErrorName code = "" then "" else " " ++ qmiErrorName code)

/-- `check_result`: the Result TLV. -/
def checkResult (tlvs : Tlvs) : Except String Unit :=
  match field tlvs 0x02 with
  | none => .error "QMI response without a result"
  | some (s₀ :: s₁ :: e₀ :: e₁ :: _) =>
    if le16 s₀ s₁ = 0 then .ok () else .error (qmiError (le16 e₀ e₁).toNat)
  | some _ => .error "short QMI result"

/-- `starts_with("QMI error")`: the modem answered, and said no. -/
def isQmiError (error : String) : Bool := decide ("QMI error".toList <+: error.toList)

/-! ### The socket -/

/-- `QMI_RESPONSE`. -/
def qmiResponse : UInt8 := 0x02

/-- `UIM_SEND_APDU`. -/
def uimSendApdu : UInt16 := 0x003B

/-- `UIM_LOGICAL_CHANNEL`: closes a channel. -/
def uimLogicalChannel : UInt16 := 0x003F

/-- `UIM_OPEN_LOGICAL_CHANNEL`. -/
def uimOpenLogicalChannel : UInt16 := 0x0042

/-- `QRTR_PORT_CTRL`. -/
def qrtrPortCtrl : UInt32 := 0xFFFFFFFE

/-- `QRTR_TYPE_DEL_SERVER`. -/
def qrtrTypeDelServer : UInt32 := 5

/-- A datagram that arrives. `request`: the number of the request on this socket that it answers,
for the books only. -/
structure Datagram where
  node : UInt32
  port : UInt32
  data : Bytes
  request : Nat := 0

/-- Why a wait ends without an answer. -/
inductive Quiet where
  | timeout
  | cancelled
  | poll (error : String)
  | receive (error : String)
  deriving DecidableEq, Repr

/-- The error of `recv_from`. -/
def Quiet.text : Quiet → String
  | .timeout => "modem did not answer in time"
  | .cancelled => "cancelled"
  | .poll error => "QRTR poll: " ++ error
  | .receive error => "QRTR receive: " ++ error

/-- `UimClient`: a QMI UIM client on one QRTR node and SIM slot. -/
structure UimClient where
  node : UInt32
  port : UInt32
  slot : UInt8
  txn : UInt16 := 0
  channel : Option UInt8 := none
  /-- An open or close was sent but its answer never came: don't guess what the card holds. -/
  channelUnknown : Bool := false

/-- What `request_until` makes of a datagram. -/
inductive Heard where
  | skipped
  /-- The service went away. -/
  | gone
  | answer (m : Message)

namespace UimClient

/-- One turn of the loop of `request_until`: indications and stale answers are skipped. -/
def hear (msgId : UInt16) (d : Datagram) (c : UimClient) : Heard :=
  if d.port = qrtrPortCtrl then
    if 20 ≤ d.data.length ∧ le32 d.data 0 = some qrtrTypeDelServer ∧
        le32 d.data 12 = some c.node ∧ le32 d.data 16 = some c.port then .gone
    else .skipped
  else if d.node ≠ c.node ∨ d.port ≠ c.port then .skipped
  else match decode d.data with
    | none => .skipped
    | some m =>
      if m.kind ≠ qmiResponse ∨ m.txn ≠ c.txn ∨ m.msgId ≠ msgId then .skipped else .answer m

/-- The datagram that ends the loop. -/
def heard (msgId : UInt16) (c : UimClient) : List Datagram → Option (Datagram × Heard)
  | [] => none
  | d :: ds => match c.hear msgId d with
    | .skipped => heard msgId c ds
    | h => some (d, h)

/-- The end of `request_until`, from what arrived before the wait ended. -/
def answer (msgId : UInt16) (ds : List Datagram) (quiet : Quiet) (c : UimClient) :
    Except String Tlvs :=
  match c.heard msgId ds with
  | none => .error quiet.text
  | some (_, .answer m) => match checkResult m.tlvs with
    | .error e => .error e
    | .ok () => .ok m.tlvs
  | some _ => .error "UIM service went away"

/-- What comes of a request. -/
def outcome (msgId : UInt16) (arrived : Except String (List Datagram × Quiet)) (c : UimClient) :
    Except String Tlvs :=
  match arrived with
  | .error e => .error e
  | .ok (ds, quiet) => c.answer msgId ds quiet

end UimClient

/-- What a run does with the modem and with the flags of the process. -/
inductive Call : Type → Type where
  /-- A new socket, and the port of the service. -/
  | connect : Call (Except String UInt32)
  /-- Sends a message, and gives what arrives until the wait ends. -/
  | request (c : UimClient) (msgId : UInt16) (tlvs : Tlvs) (cancellable : Bool) :
      Call (Except String (List Datagram × Quiet))
  /-- `cancelled`: whether SIGTERM or SIGINT has arrived. -/
  | cancelled : Call Bool
  /-- `note_channel`. -/
  | noteChannel (channel : UInt8) : Call Unit
  /-- `note_channel_leak`. -/
  | noteChannelLeak (channel : UInt8) (why : String) : Call Unit
  /-- `CARD_RESET.store`, in `write_result`. -/
  | cardReset : Call Unit

namespace UimClient

/-- `self.txn.wrapping_add(1).max(1)`. -/
def nextTxn (txn : UInt16) : UInt16 := if txn + 1 = 0 then 1 else txn + 1

/-- `request_until`. -/
def requestUntil (msgId : UInt16) (tlvs : Tlvs) (cancellable : Bool) (c : UimClient) :
    Program Call (Except String Tlvs × UimClient) := do
  let c := { c with txn := nextTxn c.txn }
  let arrived ← Call.request c msgId tlvs cancellable
  pure (c.outcome msgId arrived, c)

/-- `open_channel`. Not cancellable: its answer names the channel the modem allocated. -/
def openChannel (aid : Bytes) (c : UimClient) : Program Call (Except Error UInt8 × UimClient) :=
  if c.channel.isSome ∨ c.channelUnknown ∨ aid = [] ∨ 255 < aid.length then
    pure (.error (.transport "open logical channel refused: channel state"), c)
  else do
    let (out, c) ← c.requestUntil uimOpenLogicalChannel
      [(0x01, [c.slot]), (0x10, UInt8.ofNat aid.length :: aid)] false
    match out with
    | .error e =>
      let failed : Error := .transport ("open logical channel failed: " ++ e)
      if isQmiError e then pure (.error failed, { c with channelUnknown := false })
      else do
        -- The modem may have opened a channel whose number never reached us.
        Call.noteChannelLeak 0 e
        pure (.error failed, { c with channelUnknown := true })
    | .ok out =>
      match (field out 0x10).bind List.head? with
      | none => pure (.error (.transport "open logical channel failed: no channel id"), c)
      | some channel =>
        if channel = 0 then
          pure (.error (.transport "open logical channel failed: no channel id"), c)
        else do
          Call.noteChannel channel
          pure (.ok channel, { c with channel := some channel })

/-- `close_channel`. It is never tried again: ownership is unknown after an uncertain answer. -/
def closeChannel (channel : UInt8) (c : UimClient) : Program Call (Unit × UimClient) :=
  if c.channel ≠ some channel then pure ((), c)
  else do
    let (out, c) ← requestUntil uimLogicalChannel [(0x01, [c.slot]), (0x11, [channel])] false
      { c with channel := none }
    match out with
    | .ok _ => pure ((), c)
    | .error e => do
      Call.noteChannelLeak channel e
      pure ((), { c with channelUnknown := true })

/-- The answer to an APDU: its length and its bytes. -/
def apduAnswer (out : Tlvs) : Except Error Bytes :=
  match field out 0x10 with
  | none => .error (.transport "APDU failed: no response")
  | some (low :: high :: rest) =>
    let length := (le16 low high).toNat
    if rest.length < length then .error (.transport "APDU failed: truncated response")
    else .ok (rest.take length)
  | some _ => .error (.transport "APDU failed: short response")

/-- `transmit`. -/
def transmit (apdu : Bytes) (c : UimClient) : Program Call (Except Error Bytes × UimClient) :=
  match c.channel with
  | none => pure (.error (.transport "APDU without an open channel"), c)
  | some channel =>
    if 65535 < apdu.length then pure (.error (.transport "APDU too long"), c)
    else do
      let length := UInt16.ofNat apdu.length
      let (out, c) ← c.requestUntil uimSendApdu [(0x01, [c.slot]),
        (0x02, length.toUInt8 :: (length >>> 8).toUInt8 :: apdu), (0x10, [channel])] true
      match out with
      | .error e => pure (.error (.transport ("APDU failed: " ++ e)), c)
      | .ok out => pure (apduAnswer out, c)

/-- `Drop for UimClient`. -/
def drop (c : UimClient) : Program Call (Unit × UimClient) :=
  match c.channel with
  | none => pure ((), c)
  | some channel => c.closeChannel channel

end UimClient

/-! ### Card sessions -/

/-- What an operation does in a card session. The guard and the commands are such programs. -/
inductive Use : Type → Type where
  | transmit (apdu : Bytes) : Use (Except Error Bytes)
  | cancelled : Use Bool
  /-- `write_result`: what becomes of a switch. -/
  | written (op : String) (result : Except Error Nat) : Use Unit

/-- The card accepted a switch, which makes it reset. -/
def switched (op : String) (result : Except Error Nat) : Bool :=
  match result with
  | .ok 0 => op == "enable_profile" || op == "disable_profile"
  | _ => false

/-- The operation's part of a session. -/
def useCard {α : Type} : Program Use α → UimClient → Program Call (α × UimClient)
  | .pure a, c => pure (a, c)
  | .act (.transmit apdu) next, c => do
    let (answer, c) ← c.transmit apdu
    useCard (next answer) c
  | .act .cancelled next, c => do
    let stop ← Call.cancelled
    useCard (next stop) c
  | .act (.written op result) next, c =>
    if switched op result then do
      -- The reset closes every channel.
      Call.cardReset
      useCard (next ()) c
    else useCard (next ()) c

/-- `ISD_R_AID`. -/
def isdRAid : Bytes :=
  [0xA0, 0x00, 0x00, 0x05, 0x59, 0x10, 0x10, 0xFF, 0xFF, 0xFF, 0xFF, 0x89, 0x00, 0x00, 0x01, 0x00]

/-- `classify_open`. -/
def classifyOpen (e : String) : Failure :=
  if contains e "cancelled" then { kind := "cancelled", message := e }
  else if contains e "QMI error 80" then { kind := "isdr_unavailable", message := e }
  else if contains e "QMI error" || contains e "no UIM service" || contains e "QRTR socket" then
    { kind := "management_unavailable", message := e }
  else { kind := "transport", message := e }

/-- `Card::session`, what the operation does in the session, and the end of the session: `Euicc` is
dropped, and then the client. -/
def cardSession {α : Type} (node : UInt32) (slot : UInt8) (body : Program Use α) :
    Program Call (Except Failure α) := do
  let stop ← Call.cancelled
  if stop then pure (.error { kind := "cancelled", message := "cancelled" })
  else do
    let connected ← Call.connect
    match connected with
    | .error e => pure (.error (classifyOpen e))
    | .ok port => do
      let c : UimClient := { node, port, slot }
      let (opened, c) ← c.openChannel isdRAid
      match opened with
      | .error e => do
        let _ ← c.drop
        pure (.error (classifyOpen (errorText e)))
      | .ok channel => do
        let (a, c) ← useCard body c
        let (_, c) ← c.closeChannel channel
        let _ ← c.drop
        pure (.ok a)

/-- What an operation does: card sessions, one after the other, and whatever it does between
them. -/
inductive Session : Type → Type 1 where
  | session {α : Type} (body : Program Use α) : Session (Except Failure α)
  | cancelled : Session Bool

/-- The run of an operation. -/
def runOperation {α : Type} (node : UInt32) (slot : UInt8) : Program Session α → Program Call α
  | .pure a => pure a
  | .act (.session body) next => do
    let result ← cardSession node slot body
    runOperation node slot (next result)
  | .act .cancelled next => do
    let stop ← Call.cancelled
    runOperation node slot (next stop)

/-! ### Runs -/

/-- The flags of the process, and the books of the run. -/
structure Run where
  /-- `CANCELLED`. -/
  cancelled : Bool := false
  /-- `CHANNEL`. -/
  channel : UInt8 := 0
  /-- `CHANNEL_LEAK`. -/
  channelLeak : Bool := false
  /-- `CARD_RESET`. -/
  cardReset : Bool := false
  /-- Transaction and message id of the requests on the current socket, in their order. -/
  sent : List (UInt16 × UInt16) := []
  /-- How many requests the run has made. -/
  requests : Nat := 0
  /-- The channels the modem opened for the run and did not confirm to have closed. -/
  unclosed : List UInt8 := []
  /-- The channels the run was given and has not asked to close. -/
  held : List UInt8 := []
  /-- An answer was taken for one to another request. -/
  misread : Bool := false

/-- The environment's answer to a call. -/
structure Answer where
  /-- SIGTERM or SIGINT arrives. -/
  stop : Bool := false
  /-- A connect or a send fails. -/
  error : Option String := none
  port : UInt32 := 0
  /-- What arrives before the answer to the request. -/
  before : List Datagram := []
  /-- The answer to the request, if it comes in time. -/
  answer : Option Datagram := none
  quiet : Quiet := .timeout
  /-- The number of the channel the modem opens for the request, whether or not its answer comes. -/
  opens : Option UInt8 := none

/-- The QMI response in a datagram of the service. -/
def UimClient.response (d : Datagram) (c : UimClient) : Option Message :=
  if d.node = c.node ∧ d.port = c.port ∧ d.port ≠ qrtrPortCtrl then
    (decode d.data).filter (·.kind == qmiResponse)
  else none

/-- The Result TLV says no. -/
def refused (tlvs : Tlvs) : Bool :=
  match field tlvs 0x02 with
  | some (s₀ :: s₁ :: _ :: _ :: _) => le16 s₀ s₁ != 0
  | _ => false

/-- The channel number in the answer to an open request. -/
def channelNumber (tlvs : Tlvs) : Option UInt8 :=
    ((field tlvs 0x10).bind List.head?).filter (· != 0)

/-- The service's responses carry the transaction and message id of the request they answer. -/
def UimClient.genuine (sent : List (UInt16 × UInt16)) (d : Datagram) (c : UimClient) : Bool :=
  (c.response d).all fun m => sent[d.request]? == some (m.txn, m.msgId)

/-- The modem's answer to an open request tells the truth: a success is an opened channel, under the
number it names, and a refusal is none. -/
def truthful (m : Message) (opens : Option UInt8) : Bool :=
  if m.msgId = uimOpenLogicalChannel then
    (!(checkResult m.tlvs).isOk ||
      opens.isSome && (channelNumber m.tlvs).all fun channel => opens == some channel) &&
    (!refused m.tlvs || opens.isNone)
  else opens.isNone

namespace Run

/-- SIGTERM or SIGINT arrives. -/
def stopped (stop : Bool) (r : Run) : Run := { r with cancelled := r.cancelled || stop }

/-- The request number of the latest request. -/
def current (r : Run) : Nat := r.sent.length - 1

/-- A request leaves; the modem may open a channel for it, and the run gives up one it asks to
close. -/
def leaves (c : UimClient) (msgId : UInt16) (tlvs : Tlvs) (opens : Option UInt8) (r : Run) : Run :=
  { r with
    sent := r.sent ++ [(c.txn, msgId)]
    requests := r.requests + 1
    unclosed := if msgId = uimOpenLogicalChannel then opens.toList ++ r.unclosed else r.unclosed
    held :=
      if msgId = uimLogicalChannel then
        r.held.filter fun ch => (field tlvs 0x11).bind List.head? != some ch
      else r.held }

/-- The run takes an answer: it holds the channel it was given, and one it closed is closed. -/
def takes (c : UimClient) (msgId : UInt16) (tlvs : Tlvs) (ds : List Datagram) (r : Run) : Run :=
  match c.heard msgId ds with
  | some (d, .answer m) =>
    let confirmed := (checkResult m.tlvs).isOk
    { r with
      misread := r.misread || d.request != r.current
      unclosed :=
        if msgId = uimLogicalChannel ∧ confirmed then
          r.unclosed.filter fun ch => (field tlvs 0x11).bind List.head? != some ch
        else r.unclosed
      held :=
        if msgId = uimOpenLogicalChannel ∧ confirmed then
          (channelNumber m.tlvs).toList ++ r.held
        else r.held }
  | _ => r

/-- The environment's answer to a request is one there may be. -/
def allows (c : UimClient) (msgId : UInt16) (cancellable : Bool) (e : Answer) (r : Run) : Bool :=
  (e.before.all fun d => c.genuine r.sent d && ((c.response d).isNone || d.request != r.current)) &&
  (e.answer.all fun d => c.genuine r.sent d && d.request == r.current &&
    (c.response d).all fun m => truthful m e.opens) &&
  (e.opens.isNone || msgId == uimOpenLogicalChannel) &&
  (e.quiet != .cancelled || cancellable && r.cancelled)

/-- A call. -/
def exec : Effects Call Answer Run
  | _, .connect, e, r => match e.error with
    | some m => some (.error m, r.stopped e.stop)
    | none => some (.ok e.port, { r.stopped e.stop with sent := [] })
  | _, .request c msgId tlvs cancellable, e, r =>
    let r := (r.stopped e.stop).leaves c msgId tlvs e.opens
    match e.error with
    | some m => if e.opens.isNone then some (.error ("QRTR send: " ++ m), r) else none
    | none =>
      let ds := e.before ++ e.answer.toList
      if r.allows c msgId cancellable e then
        some (.ok (ds, e.quiet), r.takes c msgId tlvs ds)
      else none
  | _, .cancelled, e, r => some ((r.stopped e.stop).cancelled, r.stopped e.stop)
  | _, .noteChannel channel, e, r => some ((), { r.stopped e.stop with channel })
  | _, .noteChannelLeak _ _, e, r =>
    some ((), { r.stopped e.stop with channelLeak := r.channelLeak || !r.cardReset })
  | _, .cardReset, e, r => some ((), { r.stopped e.stop with cardReset := true })

end Run

/-- `answer`, what it says about channels. -/
def channelJson (r : Run) : Value :=
  .obj [("last", .num r.channel.toNat), ("leak_suspected", .bool r.channelLeak)]

end OpenUI.Helper.Uim
