import OpenUI.Euicc.Coding
import OpenUI.Euicc.Der

/-!
# `OpenUI.Euicc.Download`: the card side of a download session

`euicc/src/download.rs`: what goes to the card during a profile download, and how its answers are
read. A command is one action here; how it becomes APDUs is `command`'s business. SHA-256 comes from
another crate and is a parameter.
-/

set_option autoImplicit false

namespace OpenUI.Euicc

open OpenUI.Concurrency

/-- `Euicc::command` as one action. -/
inductive Es10 : Type → Type where
  | command (der : Bytes) : Es10 (Except Error Bytes)

/-- A function of `Euicc`. -/
abbrev CardProgram := ExceptT Error (Program Es10)

/-- `command`. -/
def es10Command (der : Bytes) : CardProgram Bytes := ExceptT.mk (liftM (Es10.command der))

/-- `Option::ok_or`. -/
def okOr {ε α : Type} (o : Option α) (e : ε) : Except ε α :=
  match o with
  | none => .error e
  | some a => .ok a

/-- What does not involve the card: `?` on a `Result`. -/
def tryOk {α : Type} (x : Except Error α) : CardProgram α := ExceptT.mk (pure x)

/-- `request`: the contents of the response element with the request's tag. -/
def es10Request (tag : Nat) (req : Node) : CardProgram Bytes := do
  let resp ← es10Command req.encode
  let t ← tryOk (okOr (find resp tag) (.malformed "response tag differs from the request"))
  return t.value

/-! ### Values of a session -/

/-- `AuthenticateServerParam`. -/
structure AuthenticateServerParam where
  b64ServerSigned1 : String
  b64ServerSignature1 : String
  b64EuiccCiPkidToBeUsed : String
  b64ServerCertificate : String

/-- `PrepareDownloadParam`. -/
structure PrepareDownloadParam where
  b64ProfileMetadata : String
  b64SmdpSigned2 : String
  b64SmdpSignature2 : String
  b64SmdpCertificate : String

/-- `CancelSessionReason`. -/
inductive CancelSessionReason where
  | endUserRejection
  | postponed
  | timeout
  | pprNotAllowed
  | metadataMismatch
  | loadBppExecutionError
  | undefined
  deriving DecidableEq, Repr

/-- The reason's number. -/
def CancelSessionReason.code : CancelSessionReason → UInt64
  | .endUserRejection => 0
  | .postponed => 1
  | .timeout => 2
  | .pprNotAllowed => 3
  | .metadataMismatch => 4
  | .loadBppExecutionError => 5
  | .undefined => 127

/-- `c_str`: the text a C caller would see, everything before the first NUL. -/
def cStr (text : String) : String := String.ofList (text.toList.takeWhile (· ≠ Char.ofNat 0))

/-! ### Authentication -/

/-- `imei_bcd`. -/
def imeiBcd (imei : String) : Option Bytes :=
  let bytes := (imei.utf8ByteSize + 1) / 2
  if 8 < bytes then none else iccidToBcd imei bytes

/-- DeviceInfo: tac, deviceCapabilities (empty) and imei. -/
def deviceInfo (imei : Option String) : Except Error (List Node) :=
  match imei with
  | none => .ok [.prim 0x80 [0x35, 0x29, 0x06, 0x11], .prim 0xA1 []]
  | some imei => do
    let bcd ← okOr (imeiBcd (cStr imei)) (.argument "IMEI")
    let tac := bcd.take 4 ++ List.replicate (4 - bcd.length) 0
    return [.prim 0x80 tac, .prim 0xA1 [], .prim 0x82 bcd]

/-- `authenticate_server_request`: AuthenticateServerRequest, and the transactionId inside
serverSigned1. -/
def authenticateServerRequest (param : AuthenticateServerParam) (matchingId imei : Option String) :
    Except Error (Bytes × Bytes) := do
  let signed1 ← okOr (find (decodeBase64 param.b64ServerSigned1) 0x30)
    (.argument "no serverSigned1")
  let transactionId ← okOr (find signed1.value 0x80)
    (.argument "no transactionId in serverSigned1")
  let signature1 ← okOr (find (decodeBase64 param.b64ServerSignature1) 0x5F37)
    (.argument "no serverSignature1")
  let ciPkid ← okOr (find (decodeBase64 param.b64EuiccCiPkidToBeUsed) 0x04)
    (.argument "no euiccCiPKIdToBeUsed")
  let certificate ← okOr (find (decodeBase64 param.b64ServerCertificate) 0x30)
    (.argument "no serverCertificate")
  let device ← deviceInfo imei
  let matching : List Node := match matchingId with
    | none => []
    | some id => [.prim 0x80 (utf8 (cStr id))]
  let request : Node := .cons 0xBF38
    [.prim 0x30 signed1.value, .prim 0x5F37 signature1.value, .prim 0x04 ciPkid.value,
      .prim 0x30 certificate.value, .cons 0xA0 (matching ++ [.cons 0xA1 device])]
  return (request.encode, transactionId.value)

/-- `get_euicc_challenge`. -/
def getEuiccChallenge : CardProgram String := do
  let body ← es10Request 0xBF2E (.prim 0xBF2E [])
  let challenge ← tryOk (okOr (find body 0x80) (.malformed "no euiccChallenge"))
  return encodeBase64 challenge.value

/-- `get_euicc_info1`. -/
def getEuiccInfo1 : CardProgram String := do
  let resp ← es10Command (Node.prim 0xBF20 []).encode
  let info ← tryOk (okOr (find resp 0xBF20) (.malformed "no EUICCInfo1"))
  return encodeBase64 info.raw

/-- `authenticate_server`: the transactionId from serverSigned1 and the card's whole answer. -/
def authenticateServer (param : AuthenticateServerParam) (matchingId imei : Option String) :
    CardProgram (Bytes × String) := do
  let (request, transactionId) ← tryOk (authenticateServerRequest param matchingId imei)
  let resp ← es10Command request
  return (transactionId, encodeBase64 resp)

/-! ### Preparation -/

/-- `prepare_download_request`. -/
def prepareDownloadRequest (sha256 : Bytes → Bytes) (param : PrepareDownloadParam)
    (confirmationCode : Option String) : Except Error Bytes := do
  let signed2 ← okOr (find (decodeBase64 param.b64SmdpSigned2) 0x30) (.argument "no smdpSigned2")
  let signature2 ← okOr (find (decodeBase64 param.b64SmdpSignature2) 0x5F37)
    (.argument "no smdpSignature2")
  let certificate ← okOr (find (decodeBase64 param.b64SmdpCertificate) 0x30)
    (.argument "no smdpCertificate")
  let transactionId ← okOr (find signed2.value 0x80) (.argument "no transactionId in smdpSigned2")
  let ccRequired ← okOr (find signed2.value 0x01) (.argument "no ccRequiredFlag in smdpSigned2")
  let hashCc : List Node ←
    if toU64 ccRequired.value ≠ 0 then do
      let code ← okOr ((confirmationCode.map cStr).filter (· ≠ ""))
        (.argument "confirmation code required")
      pure [Node.prim 0x04 (sha256 (sha256 (utf8 code) ++ transactionId.value))]
    else pure []
  let request : Node := .cons 0xBF21
    ([.prim 0x30 signed2.value, .prim 0x5F37 signature2.value] ++ hashCc ++
      [.prim 0x30 certificate.value])
  return request.encode

/-- `prepare_download`. -/
def prepareDownload (sha256 : Bytes → Bytes) (param : PrepareDownloadParam)
    (confirmationCode : Option String) : CardProgram String := do
  let request ← tryOk (prepareDownloadRequest sha256 param confirmationCode)
  let resp ← es10Command request
  return encodeBase64 resp

/-! ### The profile package -/

/-- `LoadBppResult`. -/
structure LoadBppResult where
  seqNumber : Nat := 0
  iccid : Option String := none
  bppCommandId : Option Nat := none
  errorReason : Option Nat := none
  deriving DecidableEq, Repr

/-- `is_success`: no ErrorResult from the card. -/
def LoadBppResult.isSuccess (r : LoadBppResult) : Bool :=
  r.bppCommandId.isNone && r.errorReason.isNone

/-- `find_with_offset`, over the elements of a buffer. -/
def findWithOffset (tag : Nat) : Nat → List Tlv → Option (Nat × Tlv)
  | _, [] => none
  | offset, t :: ts =>
    if t.tag = tag then some (offset, t) else findWithOffset tag (offset + t.raw.length) ts

/-- `header`: tag and length bytes of an element. -/
def Tlv.header (t : Tlv) : Bytes := t.raw.take (t.raw.length - t.value.length)

/-- A sequence whose elements go one by one: its tag and length, then each element. -/
def Tlv.pieces (t : Tlv) : List (Except Error Bytes) :=
  .ok t.header :: (elements t.value).map fun e => .ok e.raw

/-- `bpp_segments`, from sequenceOf86 on. -/
def segmentsFrom86 (parts : Bytes) : List (Except Error Bytes) :=
  match find parts 0xA3 with
  | none => [.error (.argument "no sequenceOf86")]
  | some seq86 => seq86.pieces

/-- `bpp_segments`, from sequenceOf88 on. -/
def segmentsFrom88 (parts : Bytes) : List (Except Error Bytes) :=
  match find parts 0xA1 with
  | none => [.error (.argument "no sequenceOf88")]
  | some seq88 =>
    let second87 : List (Except Error Bytes) := match find parts 0xA2 with
      | none => []
      | some second87 => [.ok second87.raw]
    seq88.pieces ++ second87 ++ segmentsFrom86 parts

/-- `bpp_segments`: the segments of a BoundProfilePackage, in order. An error inside the plan is
where sending stops after the segments before it. -/
def bppSegments (bpp : Bytes) : Except Error (List (Except Error Bytes)) := do
  let package ← okOr (find bpp 0xBF36) (.argument "no BoundProfilePackage")
  let parts := package.value
  let (offset, init) ← okOr (findWithOffset 0xBF23 0 (elements parts))
    (.argument "no InitialiseSecureChannelRequest")
  let firstLen := package.header.length + offset + init.raw.length
  let first : Except Error Bytes :=
    if package.raw.length < firstLen then .error (.argument "BoundProfilePackage")
    else .ok (package.raw.take firstLen)
  return first :: match find parts 0xA0 with
    | none => [.error (.argument "no firstSequenceOf87")]
    | some first87 => .ok first87.raw :: segmentsFrom88 parts

/-- `known_bpp_command_id`. -/
def knownBppCommandId (value : Nat) : Nat := if value ≤ 5 then value else 0xFF

/-- `known_error_reason`. -/
def knownErrorReason (value : Nat) : Nat :=
  if (1 ≤ value ∧ value ≤ 15) ∨ value = 127 then value else 0xFF

/-- The fields of an ErrorResult: the last of each wins. -/
def errorResult (fields : List Tlv) (r : LoadBppResult) : LoadBppResult :=
  fields.foldl (fun r t =>
    if t.tag = 0x80 then { r with bppCommandId := some (knownBppCommandId (toU64 t.value).toNat) }
    else if t.tag = 0x81 then
      { r with errorReason := some (knownErrorReason (toU64 t.value).toNat) }
    else r) r

/-- `parse_load_bpp_response`: the card's answer to one segment. An empty one means "continue". -/
def parseLoadBppResponse (resp : Bytes) : Except Error LoadBppResult :=
  if resp = [] then .ok {}
  else do
    let installation ← okOr (find resp 0xBF37) (.malformed "no ProfileInstallationResult")
    let data ← okOr (find installation.value 0xBF27)
      (.malformed "no ProfileInstallationResultData")
    let metadata ← okOr (find data.value 0xBF2F) (.malformed "no NotificationMetadata")
    let finalResult ← okOr (find data.value 0xA2) (.malformed "no finalResult")
    let outcome ← okOr (parse finalResult.value) (.malformed "empty finalResult")
    let result : LoadBppResult :=
      { seqNumber := ((find metadata.value 0x80).map fun seq => (toU64 seq.value).toNat).getD 0
        iccid := (find metadata.value 0x5A).map fun iccid => bcdToIccid iccid.value }
    let undefined := { result with bppCommandId := some 0xFF, errorReason := some 0xFF }
    -- SuccessResult, ErrorResult, or a CHOICE that is not known.
    if outcome.tag = 0xA0 then return result
    else if outcome.tag = 0xA1 then return errorResult (elements outcome.value) undefined
    else return undefined

/-- `load_bound_profile_package`, from a segment on. -/
def loadSegments : List (Except Error Bytes) → LoadBppResult → CardProgram LoadBppResult
  | [], result => pure result
  | segment :: rest, _ => do
    let segment ← tryOk segment
    let resp ← es10Command segment
    let result ← tryOk (parseLoadBppResponse resp)
    if result.isSuccess then loadSegments rest result else return result

/-- `load_bound_profile_package`. -/
def loadBoundProfilePackage (b64Bpp : String) : CardProgram LoadBppResult := do
  let segments ← tryOk (bppSegments (decodeBase64 b64Bpp))
  loadSegments segments {}

/-- `bpp_command_id_str`. -/
def bppCommandIdStr : Nat → String
  | 0 => "initialise_secure_channel"
  | 1 => "configure_isdp"
  | 2 => "store_metadata"
  | 3 => "store_metadata2"
  | 4 => "replace_session_keys"
  | 5 => "load_profile_elements"
  | 0xFF => "unknown"
  | _ => "(no_str_available)"

/-- `error_reason_str`. -/
def errorReasonStr : Nat → String
  | 1 => "incorrect_input_values"
  | 2 => "invalid_signature"
  | 3 => "invalid_transaction_id"
  | 4 => "unsupported_crt_values"
  | 5 => "unsupported_remote_operation_type"
  | 6 => "unsupported_profile_class"
  | 7 => "scp03t_structure_error"
  | 8 => "scp03t_security_error"
  | 9 => "install_failed_due_to_iccid_already_exists_on_euicc"
  | 10 => "install_failed_due_to_insufficient_memory_for_profile"
  | 11 => "install_failed_due_to_interruption"
  | 12 => "install_failed_due_to_pe_processing_error"
  | 13 => "install_failed_due_to_data_mismatch"
  | 14 => "test_profile_install_failed_due_to_invalid_naa_key"
  | 15 => "ppr_not_allowed"
  | 127 => "install_failed_due_to_unknown_error"
  | 0xFF => "unknown"
  | _ => "(no_str_available)"

/-! ### The end of a session -/

/-- CancelSessionRequest. -/
def cancelSessionRequest (transactionId : Bytes) (reason : CancelSessionReason) : Bytes :=
  (Node.cons 0xBF41 [.prim 0x80 transactionId, .prim 0x81 (fromU64 reason.code)]).encode

/-- The checks of `cancel_session`: the id is not empty, and the request fits the buffer. -/
def checkCancelSession (transactionId : Bytes) (reason : CancelSessionReason) :
    Except Error Bytes :=
  if transactionId = [] then .error (.argument "empty transaction id")
  else if 255 < (cancelSessionRequest transactionId reason).length then
    .error (.argument "transaction id too long")
  else .ok (cancelSessionRequest transactionId reason)

/-- `cancel_session`: the whole CancelSessionResponse. -/
def cancelSession (transactionId : Bytes) (reason : CancelSessionReason) : CardProgram String := do
  let request ← tryOk (checkCancelSession transactionId reason)
  let resp ← es10Command request
  let answer ← tryOk (okOr (find resp 0xBF41) (.malformed "no CancelSessionResponse"))
  return encodeBase64 answer.raw

end OpenUI.Euicc
