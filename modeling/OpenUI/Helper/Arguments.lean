import OpenUI.Helper.Guard

/-!
# `OpenUI.Helper.Arguments`: what the helper accepts as a request

`parse_request` and the argument checks of `dispatch` (`esim-helper/src/main.rs`), with the checks
of an activation code (`download.rs`) and of a server address (`https.rs`). `arguments` is
`dispatch` up to the call of the operation; every refusal on the way is an `invalid_request`.
-/

set_option autoImplicit false

namespace OpenUI.Helper

open OpenUI.Json OpenUI.Text

/-- A refusal of the request itself. -/
def invalidRequest (message : String) : Failure := { kind := "invalid_request", message }

/-! ### The request line -/

/-- `PROTOCOL`. -/
def protocol : Nat := 2
/-- `DEFAULT_DEADLINE`, in milliseconds. -/
def defaultDeadline : Nat := 20000
/-- `MAX_DEADLINE`, in milliseconds. -/
def maxDeadline : Nat := 420000
/-- `DEFAULT_LOCK`. -/
def defaultLock : String := "/tmp/zte-esim.lock"

/-- `Request`. -/
structure Request where
  op : String
  node : Nat
  slot : Nat
  lockPath : String
  deadline : Nat
  body : Value

/-- `parse_request`. `none` is a line that is not JSON. -/
def parseRequest (body : Option Value) : Except Failure Request :=
  match body with
  | none => .error (invalidRequest "request is not JSON")
  | some body =>
    if (body.get "protocol").asU64 ≠ some protocol then
      .error (invalidRequest "unsupported protocol version")
    else
      match (body.get "op").asStr with
      | none => .error (invalidRequest "missing op")
      | some op =>
        let node := (body.get "node").asU64.getD 3
        let slot := (body.get "slot").asU64.getD 1
        if UInt32.size ≤ node ∨ ¬ (1 ≤ slot ∧ slot ≤ 2) then
          .error (invalidRequest "invalid modem node or slot")
        else
          let deadline := min ((body.get "deadline_ms").asU64.getD defaultDeadline) maxDeadline
          let lockPath := (body.get "lock_path").asStr.getD defaultLock
          if (stripPrefix "/tmp/" lockPath).isNone || contains lockPath ".." then
            .error (invalidRequest "lock path must be under /tmp")
          else .ok { op, node, slot, lockPath, deadline, body }

/-! ### Single values -/

/-- What `iccid_arg` accepts: 18 to 20 digits. -/
def validIccid (s : String) : Bool :=
  18 ≤ s.utf8ByteSize && s.utf8ByteSize ≤ 20 && s.toList.all isAsciiDigit

/-- What `eid_arg` accepts: 32 hexadecimal digits. -/
def validEid (s : String) : Bool := s.utf8ByteSize == 32 && s.toList.all isAsciiHexdigit

/-- `iccid_arg`. -/
def iccidArg (body : Value) (key : String) : Except Failure String :=
  match (body.get key).asStr.filter validIccid with
  | some s => .ok s
  | none => .error (invalidRequest ("invalid " ++ key))

/-- `eid_arg`. -/
def eidArg (body : Value) : Except Failure String :=
  match (body.get "expect_eid").asStr.filter validEid with
  | some s => .ok s
  | none => .error (invalidRequest "invalid expect_eid")

/-- `NICKNAME_MAX_BYTES`. -/
def nicknameMaxBytes : Nat := 64

/-- `is_format_char`: Unicode general category Cf. -/
def isFormatChar (c : Char) : Bool :=
  let n := c.toNat
  n == 0x00AD || (0x0600 ≤ n && n ≤ 0x0605) || n == 0x061C || n == 0x06DD || n == 0x070F
    || n == 0x08E2 || n == 0x180E || (0x200B ≤ n && n ≤ 0x200F) || (0x202A ≤ n && n ≤ 0x202E)
    || (0x2060 ≤ n && n ≤ 0x2064) || (0x2066 ≤ n && n ≤ 0x206F) || n == 0xFEFF
    || (0xFFF9 ≤ n && n ≤ 0xFFFB) || n == 0x110BD || n == 0x110CD
    || (0x13430 ≤ n && n ≤ 0x1343F) || (0x1BCA0 ≤ n && n ≤ 0x1BCA3)
    || (0x1D173 ≤ n && n ≤ 0x1D17A) || n == 0xE0001 || (0xE0020 ≤ n && n ≤ 0xE007F)

/-- `valid_nickname`. -/
def validNickname (name : String) : Except String Unit :=
  if nicknameMaxBytes < name.utf8ByteSize then
    .error "nickname is longer than 64 bytes"
  else if name.toList.any (fun c => isControl c || isFormatChar c) then
    .error "nickname contains control or invisible formatting characters"
  else .ok ()

/-! ### Activation codes -/

/-- `MAX_CODE_BYTES`. -/
def maxCodeBytes : Nat := 512
/-- `MAX_CONFIRMATION_BYTES`. -/
def maxConfirmationBytes : Nat := 64

/-- One label of `https::valid_address`. -/
def validAddressLabel (l : List Char) : Bool :=
  !l.isEmpty && (String.ofList l).utf8ByteSize ≤ 63 && l.head? != some '-'
    && l.getLast? != some '-' && l.all (fun c => isAsciiAlphanumeric c || c == '-')

/-- `https::valid_address`: a DNS host name, optionally with a port. IP literals are refused. -/
def validAddress (address : String) : Bool :=
  let (host, port) := splitPort address.toList
  if port.any (fun p => (parseU16 p).all (· == 0)) then
    false
  else
    let labels := host.splitOn '.'
    !host.isEmpty && (String.ofList host).utf8ByteSize ≤ 253 && 2 ≤ labels.length
      && labels.all validAddressLabel && !(labels.getLast?.any (·.all isAsciiDigit))

/-- `ActivationCode`. -/
structure ActivationCode where
  smdp : String
  matchingId : String
  confirmationRequired : Bool
  deriving DecidableEq

/-- `parse_activation_code`. Error texts never repeat the code. -/
def parseActivationCode (code : String) : Except String ActivationCode :=
  let code := trim code
  if maxCodeBytes < code.utf8ByteSize || code.toList.any isControl then
    .error "the activation code is too long or contains control characters"
  else
    let fields := splitChar '$' code
    if fields.head?.map (fun f => eqIgnoreAsciiCase f "LPA:1") ≠ some true then
      .error "the activation code must start with LPA:1$"
    else if fields.length < 3 then
      .error "the activation code has the wrong number of fields"
    else
      let smdp := trim (fields.getD 1 "")
      if !validAddress smdp then
        .error "the activation code has an invalid server address"
      else
        .ok { smdp, matchingId := fields.getD 2 "", confirmationRequired := fields[4]? == some "1" }

/-- `valid_confirmation_code`. -/
def validConfirmationCode (code : String) : Bool :=
  !code.isEmpty && code.utf8ByteSize ≤ maxConfirmationBytes && !code.toList.any isControl

/-! ### Dispatch -/

/-- `Switch`. -/
inductive Switch where
  | enable
  | disable
  deriving DecidableEq, Repr

/-- What `dispatch` calls, with the arguments it has checked. -/
inductive Operation where
  | inventory
  | delete (iccid expectEid : String)
  | download (expectEid : String) (code : ActivationCode) (confirmation : Option String)
  | switch (which : Switch) (iccid expectEid : String) (expectEnabled : Option String)
  | nickname (iccid expectEid name : String)
  | notify (expectEid : String) (seqs : List Nat)

/-- The sequence numbers of a `notify` request: all of them numbers, 1 to 32 of them. -/
def seqsArg (body : Value) : Except Failure (List Nat) :=
  match (body.get "seqs").asArray with
  | none => .error (invalidRequest "missing seqs")
  | some items =>
    match (items.mapM Value.asU64).filter (fun s => !s.isEmpty && s.length ≤ 32) with
    | none => .error (invalidRequest "invalid seqs")
    | some seqs => .ok seqs

/-- The confirmation code of a `download` request. -/
def confirmationArg (body : Value) : Except Failure (Option String) :=
  match body.get "confirmation_code" with
  | .null => .ok none
  | v =>
    match v.asStr.filter validConfirmationCode with
    | some c => .ok (some c)
    | none => .error (invalidRequest "invalid confirmation_code")

/-- The enabled profile a switch expects. -/
def expectEnabledArg (body : Value) : Except Failure (Option String) :=
  match body.get "expect_enabled" with
  | .null => .ok none
  | _ => (iccidArg body "expect_enabled").map some

/-- The arguments of `enable` and `disable`. -/
def switchArguments (b : Value) (which : Switch) : Except Failure Operation := do
  let iccid ← iccidArg b "iccid"
  let expectEnabled ← expectEnabledArg b
  let eid ← eidArg b
  return .switch which iccid eid expectEnabled

/-- The arguments of `delete`. -/
def deleteArguments (b : Value) : Except Failure Operation := do
  let iccid ← iccidArg b "iccid"
  let eid ← eidArg b
  return .delete iccid eid

/-- The arguments of `download`. -/
def downloadArguments (b : Value) : Except Failure Operation :=
  match (b.get "activation_code").asStr with
  | none => .error (invalidRequest "missing activation_code")
  | some code => do
    let code ← (parseActivationCode code).mapError invalidRequest
    let confirmation ← confirmationArg b
    let eid ← eidArg b
    return .download eid code confirmation

/-- The arguments of `nickname`, which checks the name before it opens the card. -/
def nicknameArguments (b : Value) : Except Failure Operation :=
  match (b.get "nickname").asStr with
  | none => .error (invalidRequest "missing nickname")
  | some name => do
    let iccid ← iccidArg b "iccid"
    let eid ← eidArg b
    (validNickname name).mapError invalidRequest
    return .nickname iccid eid name

/-- The arguments of `notify`. -/
def notifyArguments (b : Value) : Except Failure Operation := do
  let seqs ← seqsArg b
  let eid ← eidArg b
  return .notify eid seqs

/-- `dispatch`, up to the operation it calls. -/
def arguments (req : Request) : Except Failure Operation :=
  if req.op = "inventory" then .ok .inventory
  else if req.op = "delete" then deleteArguments req.body
  else if req.op = "download" then downloadArguments req.body
  else if req.op = "enable" then switchArguments req.body .enable
  else if req.op = "disable" then switchArguments req.body .disable
  else if req.op = "nickname" then nicknameArguments req.body
  else if req.op = "notify" then notifyArguments req.body
  else .error (invalidRequest "unknown op")

end OpenUI.Helper
