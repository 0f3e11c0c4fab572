import OpenUI.Concurrency.Interrupted
import OpenUI.Euicc.Download
import OpenUI.Helper.Arguments
import OpenUI.Helper.Guard

/-!
# `OpenUI.Helper.Download`: the download procedure

`esim-helper/src/download.rs`: activation code, mutual authentication, preview, preparation, bound
profile package and install, and the clean-up where it stops. `download` is a program over what it
does with the card (behind the guard), the server, the control channel, the clock and the stop flag.
A server call is one action: its result is what `es9p` makes of the server's answer.

`Run` is the process while it runs, with a record of what was done (`log`, the latest first). No
action depends on the record.
-/

set_option autoImplicit false

namespace OpenUI.Helper.Download

open OpenUI.Concurrency OpenUI.Euicc OpenUI.Json

/-! ### Decisions and failures -/

/-- `DownloadCtl`: what the user (or the agent's preview timer) decided. -/
inductive DownloadCtl where
  | accept
  | decline
  | cancel
  | previewTimeout
  deriving DecidableEq, Repr

/-- `DownloadCtl::parse`, of the text of `control`. -/
def DownloadCtl.parse : String → Option DownloadCtl
  | "install" => some .accept
  | "decline" => some .decline
  | "cancel" => some .cancel
  | "timeout" => some .previewTimeout
  | _ => none

/-- `Es9pStatus`: why a server call failed. -/
structure Es9pStatus where
  subjectCode : String := "0.0.0"
  reasonCode : String := "0.0.0"
  subjectIdentifier : String := "unknown"
  message : String := "unknown"
  transportError : Option String := none

/-- `Ending`: how a download ended without installing. -/
inductive Ending where
  | cancelled
  | failed
  | unknown
  deriving DecidableEq, Repr

/-- `Stop`: why a download stopped, the reason to cancel the card session with (none when there is
nothing to cancel), and whether the server must be told too. -/
structure Stop where
  message : String
  reason : Option CancelSessionReason
  notifyServer : Bool := true
  ending : Ending := .failed

/-- The text of a failed HTTP exchange. -/
def httpStatusError : String := "HTTP status code error"

/-- `es9p_error`. -/
def es9pError (op : String) (e : Es9pStatus) : String :=
  if e.message = "" then
    op ++ ": subject code " ++ e.subjectCode ++ ", reason code " ++ e.reasonCode
  else match e.transportError with
    | some cause => op ++ ": " ++ e.message ++ " (" ++ cause ++ ")"
    | none =>
      if e.message = httpStatusError then
        op ++ ": " ++ e.message ++ " (" ++ e.subjectIdentifier ++ ")"
      else op ++ ": " ++ e.message

namespace Stop

/-- `Stop::fail`: malformed data. -/
def fail (step detail : String) : Stop :=
  { message := step ++ ": " ++ detail, reason := some .undefined }

/-- `Stop::card`: a transport failure is worth retrying later. -/
def card (step : String) (e : Error) : Stop where
  message := step ++ ": " ++ errorText e
  reason := match e with
    | .transport _ => some .timeout
    | _ => some .undefined

/-- `Stop::server`: when the server itself reported a failure, only the card is cancelled. -/
def server (step : String) (e : Es9pStatus) : Stop :=
  let message := es9pError step e
  if e.transportError.isSome || e.message == httpStatusError then
    { message, reason := some .timeout }
  else if e.subjectCode ≠ "0.0.0" then
    { message, reason := some .undefined, notifyServer := false }
  else { message, reason := some .undefined }

/-- `Stop::user`. -/
def user : DownloadCtl → Stop
  | .decline =>
    { message := "declined at the preview", reason := some .endUserRejection, ending := .cancelled }
  | .previewTimeout =>
    { message := "not confirmed in time", reason := some .timeout, ending := .cancelled }
  | _ => { message := "cancelled", reason := some .postponed, ending := .cancelled }

end Stop

/-! ### What a download does -/

/-- How the wait for a decision ends. -/
inductive Awaited where
  | stopped
  | elapsed
  | received (d : DownloadCtl)
  | disconnected
  deriving DecidableEq, Repr

/-- The actions of a download. -/
inductive Step : Type → Type where
  /-- A command to the card. -/
  | command (der : Bytes) : Step (Except Error Bytes)
  | initiateAuthentication (smdp challenge info1 : String) :
      Step (Except Es9pStatus (String × AuthenticateServerParam))
  | authenticateClient (smdp serverTid response : String) :
      Step (Except Es9pStatus PrepareDownloadParam)
  | getBoundProfilePackage (smdp serverTid prepared : String) : Step (Except Es9pStatus String)
  | cancelSession (smdp serverTid response : String) : Step (Except Es9pStatus Unit)
  /-- `crate::cancelled`. -/
  | stopped : Step Bool
  /-- `try_recv` until there is a Cancel or nothing: whether there was one. -/
  | drain : Step Bool
  /-- `recv_timeout` until there is a message, or the wait is over. -/
  | await : Step Awaited
  /-- `left(deadline)`, in milliseconds. -/
  | left : Step Nat
  | progress (step : String) (data : Value) : Step Unit

/-- A part that may stop the download. -/
abbrev Steps := ExceptT Stop (Program Step)

/-- A command of a card function is one to the open card session. -/
def Step.ofEs10 : {β : Type} → Es10 β → Step β
  | _, .command der => .command der

/-- A function of `Euicc`, on the open card session. -/
def onCard {α : Type} (p : CardProgram α) : Program Step (Except Error α) :=
  p.run.hoist Step.ofEs10

/-- `map_err(..)?`. -/
def orStop {ε α : Type} (stop : ε → Stop) (p : Program Step (Except ε α)) : Steps α :=
  ExceptT.mk do return (← p).mapError stop

/-- `return Err(stop)` on a condition. -/
def stopIf (condition : Bool) (stop : Stop) : Steps Unit :=
  ExceptT.mk (pure (if condition then .error stop else .ok ()))

/-- `progress`. -/
def progress (step : String) (data : Value := .null) : Steps Unit :=
  ExceptT.lift (liftM (Step.progress step data))

/-- `cancelled`: a pending Cancel from the agent or a stop signal (other messages outside the
preview are ignored). -/
def cancelled : Program Step Bool := do
  let stop ← Step.stopped
  if stop then pure true else Step.drain

/-- `cancelled`, and what follows from it in `steps`. -/
def unlessCancelled : Steps Unit := do
  let stop ← ExceptT.lift cancelled
  stopIf stop (.user .cancel)

/-- `decision`: the decision at the preview, or a timeout; a stop signal counts as Cancel. -/
def Awaited.decision : Awaited → DownloadCtl
  | .stopped => .cancel
  | .elapsed => .previewTimeout
  | .received d => d
  | .disconnected => .cancel

/-- The fields of `ProfileMetadata` that the preview shows. -/
structure ProfileMetadata where
  iccid : String
  serviceProviderName : Option String
  profileName : Option String
  profileClass : Option String

/-- `metadata_json`. -/
def metadataJson (m : ProfileMetadata) : Value :=
  .obj [("iccid", .str m.iccid), ("provider", .ofOption m.serviceProviderName),
    ("name", .ofOption m.profileName), ("class", .ofOption m.profileClass)]

/-- What the procedure takes from elsewhere: SHA-256, and the reader of profile metadata. -/
structure Readers where
  sha256 : Bytes → Bytes
  parseMetadata : String → Except Error ProfileMetadata

/-- `confirmation_code.is_none_or(str::is_empty)`. -/
def noConfirmation (confirmationCode : Option String) : Bool := confirmationCode.all (· == "")

/-- `confirmation_required_by_server`: smdpSigned2's ccRequiredFlag. -/
def confirmationRequiredByServer (b64SmdpSigned2 : String) : Bool :=
  match find (decodeBase64 b64SmdpSigned2) 0x30 with
  | none => false
  | some s => (find s.value 0x01).any fun flag => flag.value.any (· != 0)

/-- Card and server transaction ids, once the card has opened its session. -/
structure SessionIds where
  card : Bytes
  server : String

/-- `INSTALL_MIN`, in milliseconds. -/
def installMin : Nat := 45000

/-! ### The procedure -/

/-- `steps`, until the card has opened its session: the ids, and the card's answer. -/
def authenticate (code : ActivationCode) (confirmationCode : Option String) :
    Steps (SessionIds × String) := do
  stopIf (code.confirmationRequired && noConfirmation confirmationCode)
    { message := "this activation code needs a confirmation code", reason := none }
  progress "es10b_get_euicc_challenge_and_info"
  let challenge ← orStop (.card "es10b_get_euicc_challenge_and_info") (onCard getEuiccChallenge)
  let info1 ← orStop (.card "es10b_get_euicc_challenge_and_info") (onCard getEuiccInfo1)
  unlessCancelled
  progress "es9p_initiate_authentication"
  let (server, auth) ← orStop (.server "es9p_initiate_authentication")
    (liftM (Step.initiateAuthentication code.smdp challenge info1))
  unlessCancelled
  progress "es10b_authenticate_server"
  let (card, authResponse) ← orStop (.card "es10b_authenticate_server")
    (onCard (authenticateServer auth (some code.matchingId) none))
  return ({ card, server }, authResponse)

/-- `steps`, until the user has decided to install. -/
def preview (readers : Readers) (code : ActivationCode) (confirmationCode : Option String)
    (ids : SessionIds) (authResponse : String) : Steps PrepareDownloadParam := do
  unlessCancelled
  progress "es9p_authenticate_client"
  let prepare ← orStop (.server "es9p_authenticate_client")
    (liftM (Step.authenticateClient code.smdp ids.server authResponse))
  let metadata ← orStop (fun e => .fail "es8p_metadata_parse" (errorText e))
    (pure (readers.parseMetadata prepare.b64ProfileMetadata))
  progress "es8p_metadata_parse" (metadataJson metadata)
  -- Postponed keeps the order open for a retry with the code.
  stopIf (noConfirmation confirmationCode && confirmationRequiredByServer prepare.b64SmdpSigned2)
    { message := "the operator requires a confirmation code for this profile"
      reason := some .postponed }
  progress "preview"
  let awaited ← ExceptT.lift (liftM Step.await)
  stopIf (awaited.decision != .accept) (.user awaited.decision)
  return prepare

/-- `steps`, until the package is there and there is time to install it. -/
def fetchPackage (readers : Readers) (code : ActivationCode) (confirmationCode : Option String)
    (ids : SessionIds) (prepare : PrepareDownloadParam) : Steps String := do
  progress "es10b_prepare_download"
  let prepared ← orStop (.card "es10b_prepare_download")
    (onCard (prepareDownload readers.sha256 prepare confirmationCode))
  unlessCancelled
  progress "es9p_get_bound_profile_package"
  let package ← orStop (.server "es9p_get_bound_profile_package")
    (liftM (Step.getBoundProfilePackage code.smdp ids.server prepared))
  unlessCancelled
  let left ← ExceptT.lift (liftM Step.left)
  stopIf (left < installMin)
    { message := "not enough time left to install", reason := some .timeout }
  return package

/-- `steps`, the install. From the first segment on it runs to the end. -/
def install (package : String) : Steps LoadBppResult := do
  progress "es10b_load_bound_profile_package"
  orStop (fun e => { message := "es10b_load_bound_profile_package: " ++ errorText e,
                     reason := some .loadBppExecutionError, ending := .unknown })
    (onCard (loadBoundProfilePackage package))

/-- What the card's refusal stops the download with. -/
def cardRefused (result : LoadBppResult) : Stop where
  message := "the card refused the profile: " ++ bppCommandIdStr (result.bppCommandId.getD 0xFF) ++
    ", " ++ errorReasonStr (result.errorReason.getD 0xFF)
  reason := none

/-- The result of an install. -/
def installedJson (result : LoadBppResult) : Value :=
  .obj [("iccid", .ofOption result.iccid), ("seq", .num result.seqNumber)]

/-- `steps`, with the session that is open at its end. -/
def steps (readers : Readers) (code : ActivationCode) (confirmationCode : Option String) :
    Program Step (Except Stop Value × Option SessionIds) := do
  let opened ← (authenticate code confirmationCode).run
  match opened with
  | .error stop => pure (.error stop, none)
  | .ok (ids, authResponse) => do
    let loaded ← (do
      let prepare ← preview readers code confirmationCode ids authResponse
      let package ← fetchPackage readers code confirmationCode ids prepare
      install package : Steps LoadBppResult).run
    match loaded with
    | .error stop => pure (.error stop, some ids)
    | .ok result =>
      if result.isSuccess then pure (.ok (installedJson result), some ids)
      -- The card ended the session itself; its installation result goes out as a receipt.
      else pure (.error (cardRefused result), none)

/-- `download`, the clean-up. -/
def cleanUp (code : ActivationCode) (stop : Stop) (session : Option SessionIds) :
    Program Step Unit :=
  match session, stop.reason with
  | some ids, some reason => do
    Step.progress "es10b_cancel_session" .null
    let closed ← onCard (Euicc.cancelSession ids.card reason)
    match closed with
    | .error _ => pure ()
    | .ok b64 =>
      if stop.notifyServer then do
        Step.progress "es9p_cancel_session" .null
        let _ ← Step.cancelSession code.smdp ids.server b64
        pure ()
      else pure ()
  | _, _ => pure ()

/-- A Cancel pressed while the failing step ran still means "postpone". -/
def finalStop (stop : Stop) : Program Step Stop :=
  if stop.reason.isSome && stop.ending == .failed then do
    let stopped ← cancelled
    pure (if stopped then .user .cancel else stop)
  else pure stop

/-- `download`. -/
def download (readers : Readers) (code : ActivationCode) (confirmationCode : Option String) :
    Program Step (Except (Ending × String) Value) := do
  let (outcome, session) ← steps readers code confirmationCode
  match outcome with
  | .ok data => pure (.ok data)
  | .error stop => do
    let stop ← finalStop stop
    cleanUp code stop session
    pure (.error (stop.ending, stop.message))

/-- The kinds of failure that `download_profile` makes of the endings. -/
def Ending.kind : Ending → String
  | .cancelled => "download_cancelled"
  | .failed => "download_failed"
  | .unknown => "outcome_unknown"

/-! ### Runs -/

/-- An APDU that was offered to the guard, and the card's answer if it was passed on. -/
structure Offer where
  apdu : Bytes
  answer : Option (Except Error Bytes)

/-- What was done, for the record. A command is kept with the step it was part of. -/
inductive Done where
  | command (step : String) (der : Bytes) (offers : List Offer) (result : Except Error Bytes)
  | initiated (result : Except Es9pStatus (String × AuthenticateServerParam))
  | authenticated (result : Except Es9pStatus PrepareDownloadParam)
  | fetched (result : Except Es9pStatus String)
  | toldServer (serverTid response : String)
  | drained (cancel : Bool)
  | awaited (a : Awaited)

/-- The tags a download may send, `TAGS` of `download_profile`. -/
def downloadTags : List Nat :=
  [0xBF3E, 0xBF28, 0xBF2E, 0xBF20, 0xBF38, 0xBF21, 0xBF41, 0xBF36, 0xA0, 0xA1, 0x88, 0xA2, 0xA3,
    0x86]

/-- The helper's process during a download, and the record. `step` is the latest progress. -/
structure Run where
  step : String := ""
  flags : Flags := {}
  guard : Guard := { allowed := downloadTags }
  /-- The control lines that have arrived and were not taken yet. -/
  inbox : List DownloadCtl := []
  log : List Done := []
  /-- A stop signal came when the card's session was open, before the install began and before the
  session was cancelled. -/
  hasty : Bool := false

/-- How the wait for a decision ends, if no stop signal comes. -/
inductive Wait where
  | message
  | elapsed
  | disconnected
  deriving DecidableEq, Repr

/-- The environment's answer to an action. -/
structure Answer where
  /-- SIGTERM or SIGINT arrives. -/
  stop : Bool := false
  /-- Control lines that arrive. -/
  arrives : List DownloadCtl := []
  /-- For a command, for each APDU: a signal before it, and the card's answer. -/
  card : List (Bool × Except Error Bytes) := []
  initiated : Except Es9pStatus (String × AuthenticateServerParam) := .error {}
  authenticated : Except Es9pStatus PrepareDownloadParam := .error {}
  fetched : Except Es9pStatus String := .error {}
  cancelled : Except Es9pStatus Unit := .ok ()
  wait : Wait := .message
  left : Nat := 0

/-- The card answered AuthenticateServer: its session is open. -/
def Done.opens : Done → Bool
  | .command _ der offers (.ok _) => leadingTag der == some 0xBF38 && !offers.isEmpty
  | _ => false

/-- CancelSession went to the card, at least in part. -/
def Done.closes : Done → Bool
  | .command _ der offers _ => leadingTag der == some 0xBF41 && offers.any (·.answer.isSome)
  | _ => false

namespace Run

/-- The card's session has been opened. -/
def opened (r : Run) : Bool := r.log.any Done.opens

/-- CancelSession went to the card. -/
def closing (r : Run) : Bool := r.log.any Done.closes

/-- A stop signal arrives, or none. -/
def signal (stop : Bool) (r : Run) : Run :=
  { r with
    flags := { r.flags with cancelled := r.flags.cancelled || stop }
    hasty := r.hasty || stop && r.opened && !r.flags.installing && !r.closing }

/-- What happened before an action. -/
def before (e : Answer) (r : Run) : Run :=
  { r.signal e.stop with inbox := r.inbox ++ e.arrives }

/-- For the record. -/
def did (done : Done) (r : Run) : Run := { r with log := done :: r.log }

/-- One APDU of a command: it goes through the guard, or not. -/
def transmit : Effects Exchange (Bool × Except Error Bytes) (Run × List Offer)
  | _, .transmit apdu, (stop, answer), (r, offers) =>
    let r := r.signal stop
    match r.guard.offer r.flags apdu with
    | (.error e, flags, guard) =>
      some (.error e, { r with flags, guard }, offers ++ [{ apdu, answer := none }])
    | (.ok t, flags, guard) =>
      some (answer, { r with flags := flags.answered t, guard },
        offers ++ [{ apdu, answer := some answer }])

/-- An action, on logical channel `channel`. `polls`: see `transmitCollect`. -/
def exec (channel : UInt8) (polls : Nat) : Effects Step Answer Run
  | _, .command der, e, r =>
    match (Euicc.command channel polls der).play transmit e.card (r.before e, []) with
    | some (some result, (r, offers)) => some (result, r.did (.command r.step der offers result))
    | _ => none
  | _, .initiateAuthentication _ _ _, e, r =>
    some (e.initiated, (r.before e).did (.initiated e.initiated))
  | _, .authenticateClient _ _ _, e, r =>
    some (e.authenticated, (r.before e).did (.authenticated e.authenticated))
  | _, .getBoundProfilePackage _ _ _, e, r =>
    some (e.fetched, (r.before e).did (.fetched e.fetched))
  | _, .cancelSession _ serverTid response, e, r =>
    some (e.cancelled, (r.before e).did (.toldServer serverTid response))
  | _, .stopped, e, r => some ((r.before e).flags.cancelled, r.before e)
  | _, .drain, e, r =>
    let r := r.before e
    let cancel := r.inbox.contains .cancel
    some (cancel, { r.did (.drained cancel) with
      inbox := (r.inbox.dropWhile (· != .cancel)).drop 1 })
  | _, .await, e, r =>
    let r := r.before e
    if r.flags.cancelled then some (.stopped, r.did (.awaited .stopped))
    else match e.wait, r.inbox with
      | .elapsed, _ => some (.elapsed, r.did (.awaited .elapsed))
      | .disconnected, [] => some (.disconnected, r.did (.awaited .disconnected))
      | .message, d :: inbox => some (.received d, { r.did (.awaited (.received d)) with inbox })
      | _, _ => none
  | _, .left, e, r => some (e.left, r.before e)
  | _, .progress step _, e, r => some ((), { r.before e with step })

end Run

end OpenUI.Helper.Download
