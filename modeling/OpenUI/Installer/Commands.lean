import OpenUI.Concurrency.Machine
import OpenUI.Installer.Control

/-!
# `OpenUI.Installer.Commands`: detection, check and installation

The commands of `lib.rs` and `perform_install` of `deploy.rs`, over the `InstallerState` they share.
The commands are asynchronous: an action is one access to an atomic or to the value under a mutex,
and any other command may run between two of them. The mutex of `detection` is held across several
accesses, the others for one only. No command panics while it holds one, so none is ever poisoned.

`control.rs` is a model of its own (`Installer.Control`). Of it only `running` is kept here. Whether
a checkpoint, an approval or the critical phase is refused is the environment's answer, and so is
all that `perform_install` asks the network, the files and the modem.
-/

set_option autoImplicit false

namespace OpenUI.Installer.Commands

open OpenUI.Concurrency

/-- The transport to the modem. -/
inductive Channel where
  | adb (executable serial : String)
  | ssh (executable gateway knownHosts : String)
  deriving DecidableEq

/-- A part of an operation that succeeds or fails. -/
inductive Part where
  /-- `tempfile::Builder::tempdir`. -/
  | workspace
  | prerequisites (adbPath : Option String) (gateway : String)
  | fetchReleaseAssets (tag : String) (offline : Option String)
  | exportBundle (tag : String)
  | checkpoint
  | awaitApproval
  /-- The upload of the patched backup and the restore of it. -/
  | unlock
  | savedScript
  | credentials
  | storagePreflight
  | enterCritical
  /-- From `deploy_agent` to `transaction.complete`. -/
  | installation
  /-- `DeploymentTransaction::restore`. -/
  | restoration

/-- What a command asks the environment. -/
inductive Question : Type → Type where
  /-- `device::detect`, and the wait for it. -/
  | detect (request : DetectionRequest) : Question (Except InstallerError DetectionSnapshot)
  | attempt (part : Part) : Question (Except InstallerError Unit)
  /-- The worker thread ended without a panic. -/
  | joined : Question (Except String Unit)
  /-- The tag of the release. -/
  | latestRelease (tag : Option String) : Question (Except InstallerError String)
  | findCached (tag : Option String) : Question (Option String)
  | loadBundle (path : String) : Question (Except InstallerError String)
  /-- `run_unlock` up to the upload: who the locked modem is. -/
  | prepareUnlock (gateway routerPassword suffix : String) :
      Question (Except InstallerError Identity)
  /-- `Identity::from_probe`. -/
  | probe (channel : Channel) : Question (Except InstallerError Identity)
  | sshChannel (gateway : String) : Question (Except InstallerError Channel)
  | waitForModemAdb (adb : String) : Question (Except InstallerError String)
  /-- `DeploymentTransaction::begin`: the id of the transaction. -/
  | begin (identity : Identity) : Question (Except InstallerError String)
  | keyPath : Question (Except InstallerError String)
  /-- `TempDir::keep`. -/
  | keepWorkspace : Question String
  /-- `recovery::restore`. -/
  | restore (channel : Channel) (identity : Identity) (transactionId : String) :
      Question (Except InstallerError Unit)

/-- The environment's answers. -/
structure Input where
  detection : Except InstallerError DetectionSnapshot := .error (.internal "" "")
  part : Except InstallerError Unit := .ok ()
  joined : Except String Unit := .ok ()
  text : Except InstallerError String := .ok ""
  path : Option String := none
  identity : Except InstallerError Identity := .error (.internal "" "")
  channel : Except InstallerError Channel := .error (.internal "" "")

def Question.answer (e : Input) : {β : Type} → Question β → β
  | _, .detect _ => e.detection
  | _, .attempt _ => e.part
  | _, .joined => e.joined
  | _, .latestRelease _ => e.text
  | _, .findCached _ => e.path
  | _, .loadBundle _ => e.text
  | _, .prepareUnlock _ _ _ => e.identity
  | _, .probe _ => e.identity
  | _, .sshChannel _ => e.channel
  | _, .waitForModemAdb _ => e.text
  | _, .begin _ => e.text
  | _, .keyPath => e.text
  | _, .keepWorkspace => e.path.getD ""
  | _, .restore _ _ _ => e.part

/-- What was done. -/
inductive Note where
  /-- A detection with this id was saved. -/
  | detected (id : String)
  /-- A dry run succeeded; it verified this identity and this release. -/
  | checked (request : InstallRequest) (identity : Identity) (release : String)
  /-- A device-changing run was started, with this identity and release to hold to. -/
  | started (request : InstallRequest) (identity : Option Identity) (release : Option String)
  /-- It begins to change the modem with this identity, to this release. -/
  | changed (request : InstallRequest) (identity : Identity) (release : String)
  deriving DecidableEq

/-- `InstallerState`, whether the mutex of `detection` is held, and the notes. -/
structure World where
  startupCheck : Bool := false
  running : Bool := false
  held : Bool := false
  detection : Option DetectionSnapshot := none
  detectionGeneration : UInt64 := 0
  checked : Option InstallRequest := none
  checkedRelease : Option String := none
  checkedIdentity : Option Identity := none
  dashboardUrl : Option String := none
  log : List Note := []

/-- What a thread does at once. -/
inductive Call : Type → Type 1 where
  | ask {β : Type} (question : Question β) : Call β
  | startupCheck : Call Bool
  | loadRunning : Call Bool
  /-- `running.swap(true)`. -/
  | swapRunning : Call Bool
  /-- `Control::finish`, when the `RunningGuard` is dropped. -/
  | finish : Call Unit
  | lockDetection : Call Unit
  | unlockDetection : Call Unit
  | detection : Call (Option DetectionSnapshot)
  | setDetection (value : Option DetectionSnapshot) : Call Unit
  /-- `detection_generation.fetch_add(1)`. -/
  | fetchAddGeneration : Call UInt64
  | loadGeneration : Call UInt64
  | checked : Call (Option InstallRequest)
  | setChecked (value : Option InstallRequest) : Call Unit
  | checkedIdentity : Call (Option Identity)
  | setCheckedIdentity (value : Option Identity) : Call Unit
  | checkedRelease : Call (Option String)
  | setCheckedRelease (value : Option String) : Call Unit
  | setDashboardUrl (value : Option String) : Call Unit
  /-- `perform_install` is called. -/
  | starts (request : InstallRequest) (identity : Option Identity) (release : Option String) :
      Call Unit
  /-- The first change of the modem comes next. -/
  | changes (request : InstallRequest) (identity : Identity) (release : String) : Call Unit
  /-- The result of `perform_install` has arrived. -/
  | arrives (request : InstallRequest) (result : Except InstallerError InstallOutcome) : Call Unit

/-- How far a run has saved its result. -/
inductive Saved where
  | nothing
  /-- The check was written, with this result. -/
  | request (request : InstallRequest) (identity : Identity) (release : String)
  /-- And the identity. -/
  | identity (request : InstallRequest) (identity : Identity) (release : String)
  /-- There is no check any more. -/
  | cleared
  deriving DecidableEq

/-- Where a thread stands. -/
structure Ctx where
  /-- It set `running`. -/
  runs : Bool := false
  /-- The id of the detection it goes by. -/
  seen : Option String := none
  /-- The check it has read, the identity and the release. -/
  plan : Option InstallRequest := none
  identity : Option Identity := none
  release : Option String := none
  /-- Its dry run succeeded with this. -/
  result : Option (InstallRequest × Identity × String) := none
  saved : Saved := .nothing

/-- What the end of a run leaves behind. -/
def noteOf (request : InstallRequest) : Except InstallerError InstallOutcome → List Note
  | .error _ => []
  | .ok outcome =>
    match request.dryRun, outcome.verifiedIdentity with
    | true, some identity => [.checked request identity outcome.release]
    | _, _ => []

/-- An action. The mutex of `detection` is waited for. -/
def exec {β : Type} : Call β → Ctx → Input → World → Option (β × World)
  | .ask question, _, e, w => some (question.answer e, w)
  | .startupCheck, _, _, w => some (w.startupCheck, w)
  | .loadRunning, _, _, w => some (w.running, w)
  | .swapRunning, _, _, w => some (w.running, { w with running := true })
  | .finish, _, _, w => some ((), { w with running := false })
  | .lockDetection, _, _, w => if w.held then none else some ((), { w with held := true })
  | .unlockDetection, _, _, w => some ((), { w with held := false })
  | .detection, _, _, w => some (w.detection, w)
  | .setDetection value, _, _, w =>
    some ((), { w with
      detection := value
      log := (value.map fun s => Note.detected s.id).toList ++ w.log })
  | .fetchAddGeneration, _, _, w =>
    some (w.detectionGeneration, { w with detectionGeneration := w.detectionGeneration + 1 })
  | .loadGeneration, _, _, w => some (w.detectionGeneration, w)
  | .checked, _, _, w => some (w.checked, w)
  | .setChecked value, _, _, w => some ((), { w with checked := value })
  | .checkedIdentity, _, _, w => some (w.checkedIdentity, w)
  | .setCheckedIdentity value, _, _, w => some ((), { w with checkedIdentity := value })
  | .checkedRelease, _, _, w => some (w.checkedRelease, w)
  | .setCheckedRelease value, _, _, w => some ((), { w with checkedRelease := value })
  | .setDashboardUrl value, _, _, w => some ((), { w with dashboardUrl := value })
  | .starts request identity release, _, _, w =>
    some ((), if request.dryRun then w else {
      w with log := .started request identity release :: w.log })
  | .changes request identity release, _, _, w =>
    some ((), { w with log := .changed request identity release :: w.log })
  | .arrives request result, _, _, w => some ((), { w with log := noteOf request result ++ w.log })

/-- What it has read is out of date. -/
def Ctx.forget (c : Ctx) : Ctx := { c with plan := none, identity := none, release := none }

/-- Where a thread stands after an action. -/
def Ctx.after {β : Type} (c : Ctx) : Call β → β → World → Ctx
  | .swapRunning, busy, _ => { c with runs := c.runs || !busy }
  | .finish, _, _ => {}
  | .detection, found, _ => { c with seen := found.map DetectionSnapshot.id }
  | .checked, plan, _ => { c with plan }
  | .checkedIdentity, identity, _ => { c with identity }
  | .checkedRelease, release, _ => { c with release }
  | .arrives request result, _, _ =>
    match noteOf request result with
    | .checked _ identity release :: _ =>
        { c with result := some (request.checkedRequest, identity, release) }
    | _ => c
  | .setChecked none, _, _ => if c.runs then { c with saved := .cleared } else c
  | .setChecked (some _), _, _ =>
    match c.result with
    | some (request, identity, release) => { c with saved := .request request identity release }
    | none => c
  | .setCheckedIdentity _, _, _ =>
    match c.saved with
    | .request request identity release =>
        { c.forget with saved := .identity request identity release }
    | _ => c.forget
  | .setCheckedRelease _, _, _ =>
    match c.saved with
    | .identity _ _ _ => { c.forget with saved := .nothing }
    | _ => c.forget
  | _, _, _ => c

/-- A command that runs to a result or an error. -/
abbrev Command (α : Type) := ExceptT InstallerError (Program Call) α

/-! ### `perform_install` -/

/-- A question whose answer may be an error. -/
def ask {α : Type} (question : Question (Except InstallerError α)) : Command α :=
  ExceptT.mk (liftM (Call.ask question))

/-- `Option::ok_or`. -/
def okOr {α : Type} (value : Option α) (e : InstallerError) : Command α :=
  match value with
  | some a => return a
  | none => throw e

/-- A result that was computed without an access to the state. -/
def fromResult {α : Type} (result : Except InstallerError α) : Command α :=
  ExceptT.mk (pure result)

/-- The tag of the release to install, and the offline bundle that holds it. -/
def findRelease (request : InstallRequest) (pinnedRelease : Option String) :
    Command (String × Option String) := do
  match request.bundlePath.filter fun path => Text.trim path ≠ "" with
  | some path =>
    let tag ← ask (.loadBundle path)
    return (tag, some path)
  | none =>
    match ← Call.ask (.latestRelease pinnedRelease) with
    | .ok tag =>
      let cached ← Call.ask (.findCached (some tag))
      return (tag, cached)
    | .error e =>
      match ← Call.ask (.findCached pinnedRelease) with
      | some path =>
        let tag ← ask (.loadBundle path)
        return (tag, some path)
      | none => throw e

/-- The files of the release, from the bundle or from the network. -/
def fetchRelease (tag : String) : Option String → Command Unit
  | some offline => ask (.attempt (.fetchReleaseAssets tag (some offline)))
  | none => do
    ask (.attempt (.fetchReleaseAssets tag none))
    ask (.attempt (.exportBundle tag))

/-- The credentials the modem has are read when some of them are kept. -/
def readScript (request : InstallRequest) : Command Unit :=
  if request.passwordAction = .keep ∨ request.pinAction = .keep then ask (.attempt .savedScript)
  else return ()

/-- The outcome of a dry run over a transport. -/
def checkedOutcome (operation : Operation) (tag : String) (actual : Identity) : InstallOutcome where
  result := "dryRun"
  verifiedIdentity := some actual
  deviceModel := actual.model
  firmware := actual.firmware
  release := tag
  title := "Deployment dry run completed"
  message := "Verified " ++ actual.model ++ " (" ++ actual.firmware ++ ") and release " ++ tag ++
    ". No installation files or startup settings were changed."
  operation := operation
  dashboardUrl := none
  apiUrl := none
  sshAddress := none
  diagnosticPath := none

/-- The outcome of a dry run on a locked modem. -/
def preparedOutcome (operation : Operation) (tag : String) (unlocked : Identity) :
    InstallOutcome where
  result := "dryRun"
  verifiedIdentity := some unlocked
  deviceModel := unlocked.model
  firmware := unlocked.firmware
  release := tag
  title := "Dry run completed safely"
  message := "The modem backup was downloaded, decrypted, checked, and patched in memory. " ++
    "Nothing was uploaded and the modem was not changed."
  operation := operation
  dashboardUrl := none
  apiUrl := none
  sshAddress := none
  diagnosticPath := none

/-- The outcome of an installation. -/
def installedOutcome (request : InstallRequest) (operation : Operation) (tag : String)
    (actual : Identity)
    (keyPath : String) : InstallOutcome where
  result := "success"
  verifiedIdentity := some actual
  deviceModel := actual.model
  firmware := actual.firmware
  release := tag
  title := operation.label ++ " completed"
  message :=
    if request.rebootAfter then
      "The modem rebooted and its agent, SSH access and dashboard were verified."
    else "The agent, secure SSH access, and dashboard are ready."
  operation := operation
  dashboardUrl := some ("http://" ++ request.gateway ++ ":8080")
  apiUrl := some ("http://" ++ request.gateway ++ ":9090")
  sshAddress := some ("ssh -i \"" ++ keyPath ++ "\" -p 2222 root@" ++ request.gateway)
  diagnosticPath := none

/-- `DeploymentTransaction::recovery_details`. -/
def recoveryDetails (id : String) (identity : Identity) : String :=
  "Recovery snapshot: /data/local/tmp/open-u60-transactions/" ++ id ++
    ". Reconnect to the same verified modem and run: sh /data/local/tmp/open-u60-transaction.sh restore " ++
    id ++ " " ++ identity.fingerprint

/-- An installation that failed is undone. -/
def undo (id : String) (actual : Identity) (e : InstallerError) : Command InstallOutcome := do
  match ← Call.ask (.attempt .restoration) with
  | .ok _ =>
    throw { e with guidance :=
      "The previous installation was restored. Keep the diagnostic details and detect again before retrying." }
  | .error recovery =>
    throw { e with guidance :=
      "Automatic recovery could not finish: " ++ recovery.summary ++ ". " ++
        recoveryDetails id actual }

/-- `perform_install` after the last check: the modem is changed. -/
def install (request : InstallRequest) (operation : Operation) (tag : String) (channel : Channel)
    (actual : Identity) : Command InstallOutcome := do
  fromResult (actual.requireSame (← ask (.probe channel)))
  ask (.attempt .enterCritical)
  Call.changes request actual tag
  let id ← ask (.begin actual)
  match ← Call.ask (.attempt .installation) with
  | .error e => undo id actual e
  | .ok _ =>
    let keyPath ← ask .keyPath
    return installedOutcome request operation tag actual keyPath

/-- `perform_install` over a transport. -/
def deploy (request : InstallRequest) (operation : Operation) (tag : String) (channel : Channel)
    (expected : Option Identity) : Command InstallOutcome := do
  let actual ← ask (.probe channel)
  let expected ← okOr expected
    (.internal "verifying deployment identity" "no verified identity in detection plan")
  fromResult (expected.requireSame actual)
  readScript request
  ask (.attempt .credentials)
  ask (.attempt .storagePreflight)
  if request.dryRun then return checkedOutcome operation tag actual
  else install request operation tag channel actual

/-- `perform_install` on a locked modem. -/
def unlock (request : InstallRequest) (operation : Operation) (tag : String)
    (adbPath : Option String) (expected : Option Identity) : Command InstallOutcome := do
  let unlocked ← ask (.prepareUnlock request.gateway request.routerPassword request.backupSuffix)
  if request.dryRun then return preparedOutcome operation tag unlocked
  else
    let expected ← okOr expected (.internal "unlock check" "Checked identity missing")
    fromResult (expected.requireSame unlocked)
    ask (.attempt .awaitApproval)
    Call.changes request unlocked tag
    ask (.attempt .unlock)
    let adb ← okOr adbPath (.new "ADB is unavailable after the restore"
      "Use the packaged installer or install Android platform-tools, then detect again."
      "The detection snapshot had no ADB executable.")
    let serial ← ask (.waitForModemAdb adb)
    deploy request operation tag (.adb adb serial) (some unlocked)

/-- The transport of the detection's mode. -/
def maintain (request : InstallRequest) (snapshot : DetectionSnapshot) (mode : InstallMode)
    (operation : Operation) (tag : String) : Command InstallOutcome := do
  match mode with
  | .unlock => unlock request operation tag snapshot.adbPath snapshot.identity
  | .adb =>
    let adb ← okOr snapshot.adbPath (.internal "starting the ADB install" "ADB path missing")
    let serial ← okOr snapshot.adbSerial (.internal "starting the ADB install" "ADB serial missing")
    deploy request operation tag (.adb adb serial) snapshot.identity
  | .ssh =>
    let channel ← ask (.sshChannel request.gateway)
    deploy request operation tag channel snapshot.identity

def performInstall (request : InstallRequest) (snapshot : DetectionSnapshot)
    (pinnedRelease : Option String) : Command InstallOutcome := do
  let mode ← okOr snapshot.mode (.internal "reading deployment plan" "mode missing")
  let operation ← okOr snapshot.operation (.internal "reading deployment plan" "operation missing")
  ask (.attempt (.prerequisites snapshot.adbPath request.gateway))
  let (tag, offline) ← findRelease request pinnedRelease
  if pinnedRelease.any (· ≠ tag) then
    throw (.new "The selected release changed" "Check the new bundle before installing."
      "The install release did not match the checked release.")
  else
    fetchRelease tag offline
    ask (.attempt .checkpoint)
    maintain request snapshot mode operation tag

/-! ### The checks of a request -/

/-- A character of a quoted text. -/
def debugChar (c : Char) : List Char :=
  match c with
  | '"' => ['\\', '"']
  | '\\' => ['\\', '\\']
  | '\n' => ['\\', 'n']
  | '\r' => ['\\', 'r']
  | '\t' => ['\\', 't']
  | '\x00' => ['\\', '0']
  | c => [c]

/-- `{:?}` of a text. Characters without a glyph, which Rust writes by their number, stay as they
are. -/
def debug (s : String) : String := "\"" ++ String.ofList (s.toList.flatMap debugChar) ++ "\""

/-- `{:?}` of a text that may be absent. -/
def debugOption : Option String → String
  | some s => "Some(" ++ debug s ++ ")"
  | none => "None"

/-- The detection a request names is not the one that was saved. -/
def outOfDate (request : InstallRequest) (snapshot : DetectionSnapshot) : InstallerError :=
  .new "Device detection is out of date" "Detect the modem again before continuing."
    ("Request detection/address/serial: " ++ debug request.detectionId ++ "/" ++
      debug request.gateway ++
      "/" ++ debugOption request.adbSerial ++ "; current: " ++ debug snapshot.id ++ "/" ++
      debug snapshot.gateway ++ "/" ++ debugOption snapshot.adbSerial)

def validateInstallRequest (request : InstallRequest) (snapshot : DetectionSnapshot) :
    Except InstallerError Unit :=
  if request.detectionId ≠ snapshot.id ∨ Text.trim request.gateway ≠ snapshot.gateway ∨
      request.adbSerial ≠ snapshot.adbSerial then
    .error (outOfDate request snapshot)
  else if !snapshot.ready ∨ snapshot.mode.isNone ∨ snapshot.operation.isNone then
    .error (.new "The modem is not ready for installation"
      "Resolve the detection problems and detect again."
      "The saved detection snapshot was not ready or had no planned mode.")
  else if request.passwordAction = .replace ∧
      (request.agentPassword = "" ∨ '\x00' ∈ request.agentPassword.toList) then
    .error (.new "Choose an agent password" "This password protects dashboard and API access."
      "agentPassword was empty.")
  else if request.passwordAction = .replace ∧
      request.agentPassword ≠ request.agentPasswordConfirmation then
    .error (.new "The agent passwords do not match" "Retype the confirmation and try again."
      "agentPassword and agentPasswordConfirmation differed.")
  else if request.pinAction = .set ∧ (request.agentPin.utf8ByteSize ≠ 6 ∨
      ¬ request.agentPin.toList.all Text.isAsciiDigit) then
    .error (.new "The optional agent PIN isn’t valid"
      "Use exactly six digits, or leave the PIN empty."
      "agentPin was non-empty and not six ASCII digits.")
  else if snapshot.mode = some .unlock ∧
      (request.routerPassword = "" ∨ request.backupSuffix = "") then
    .error (.new "Unlock credentials are incomplete"
      "Enter the router admin password and backup-key suffix."
      "A locked-device request omitted routerPassword or backupSuffix.")
  else if snapshot.mode = some .ssh ∧ request.rebootAfter then
    .error (.new "The reboot option does not apply to this connection"
      "Detect the modem again to refresh the available options."
      "rebootAfter was true for a non-ADB detection.")
  else if snapshot.operation = some .install ∧
      (request.passwordAction = .keep ∨ request.pinAction = .keep) then
    .error (.new "Choose credentials for the new installation"
      "Set a dashboard password and choose whether to enable a PIN."
      "A new installation cannot preserve missing credentials.")
  else .ok ()

/-! ### The commands -/

def requireNormalMode : Command Unit := do
  if ← Call.startupCheck then
    throw (.internal "startup check"
      "Device commands are disabled during packaged startup diagnostics")

/-- `Control::start`. -/
def start : Command Unit := do
  if ← Call.swapRunning then throw (Control.error "An operation is already running")

/-- The `RunningGuard` is dropped at the end, whatever the result. -/
def guarded {α : Type} (command : Command α) : Command α :=
  ExceptT.mk do
    let result ← command.run
    Call.finish
    return result

def loadDetection : Command (Option DetectionSnapshot) := do
  Call.lockDetection
  let detection ← Call.detection
  Call.unlockDetection
  return detection

def storeDetection (value : Option DetectionSnapshot) : Command Unit := do
  Call.lockDetection
  Call.setDetection value
  Call.unlockDetection

def detectDevice (request : DetectionRequest) : Command Unit := do
  requireNormalMode
  if ← Call.loadRunning then
    throw (.new "Installation is already in progress"
      "Wait for the current operation to finish before detecting again."
      "detect_device was invoked while InstallerState.running was true.")
  else
    let previous ← Call.fetchAddGeneration
    Call.setChecked none
    let snapshot ← ask (.detect request)
    Call.lockDetection
    let generation ← Call.loadGeneration
    if previous + 1 ≠ generation then
      Call.unlockDetection
      throw (.new "Detection was superseded" "Check the current address again."
        "An obsolete detection result was discarded.")
    else
      Call.setDetection (some snapshot)
      Call.unlockDetection

def invalidateDetection : Command Unit := do
  Call.lockDetection
  let _ ← Call.fetchAddGeneration
  Call.setDetection none
  Call.setChecked none
  Call.unlockDetection

/-- `management_channel`. -/
def managementChannel (gateway : String) (mode : InstallMode) (adb serial : Option String) :
    Command Channel := do
  match mode with
  | .adb =>
    let executable ← okOr adb (.internal "device verification" "ADB missing")
    let serial ← okOr serial (.internal "device verification" "serial missing")
    return .adb executable serial
  | .ssh => ask (.sshChannel gateway)
  | .unlock =>
    throw (.internal "device verification" "locked devices require authenticated web identity")

/-- `recover_device`, once it is the running operation. -/
def recover (detectionId transactionId : String) : Command Unit := do
  let detection ← loadDetection
  let snapshot ← okOr detection (.internal "recovery" "Detect the modem first")
  if snapshot.id ≠ detectionId then
    throw (.internal "recovery" "Detection changed; check the modem again")
  else
    let identity ← okOr snapshot.identity
      (.internal "recovery" "Authenticated identity is required")
    let mode ← okOr snapshot.mode (.internal "recovery" "Management transport missing")
    let channel ← managementChannel snapshot.gateway mode snapshot.adbPath snapshot.adbSerial
    ask (.attempt .enterCritical)
    let result ← Call.ask (.restore channel identity transactionId)
    match ← Call.ask .joined with
    | .error e => throw (.internal "recovering installation" e)
    | .ok _ =>
      storeDetection none
      Call.setChecked none
      fromResult result

def recoverDevice (detectionId transactionId : String) : Command Unit := do
  requireNormalMode
  start
  guarded (recover detectionId transactionId)

/-- The detection and the release an installation holds to are those of its check. -/
def loadPlan (request : InstallRequest) (snapshot : DetectionSnapshot) :
    Command (DetectionSnapshot × Option String) := do
  if request.dryRun then return (snapshot, none)
  else
    let checked ← Call.checked
    if checked ≠ some request.checkedRequest then
      throw (.new "Check these settings before installing"
        "Run Check device again after changing installation settings."
        "No matching successful check exists.")
    else
      let identity ← Call.checkedIdentity
      let pinnedRelease ← Call.checkedRelease
      return ({ snapshot with identity }, pinnedRelease)

/-- The workspace is kept in diagnostic mode. -/
def diagnosticPath (request : InstallRequest) : Program Call (Option String) := do
  if request.diagnosticMode then
    let path ← Call.ask .keepWorkspace
    return some path
  else return none

/-- The worker thread of `run_install`. -/
def work (request : InstallRequest) (snapshot : DetectionSnapshot) (pinnedRelease : Option String) :
    Command InstallOutcome := do
  ask (.attempt .workspace)
  ExceptT.mk do
    let result ← (performInstall request snapshot pinnedRelease).run
    let path ← diagnosticPath request
    match result with
    | .ok outcome => return .ok { outcome with diagnosticPath := path }
    | .error e => return .error { e with diagnosticPath := path }

/-- The result of a worker thread, a success or not. -/
def resultOf {α : Type} (worker : Command α) : Command (Except InstallerError α) :=
  ExceptT.mk do
    let result ← worker.run
    return .ok result

/-- The check that a run leaves: its own request after a dry run that succeeded. -/
def saveChecked (request : InstallRequest) (succeeded : Bool) : Command Unit :=
  if request.dryRun && succeeded then Call.setChecked (some request.checkedRequest)
  else Call.setChecked none

/-- An installation uses up the detection. -/
def clearDetection (request : InstallRequest) : Command Unit :=
  if request.dryRun then return () else storeDetection none

/-- What `run_install` keeps of the outcome. -/
def saveOutcome (outcome : InstallOutcome) : Command InstallOutcome := do
  Call.setCheckedIdentity outcome.verifiedIdentity
  Call.setCheckedRelease (some outcome.release)
  if outcome.result = "success" then
    Call.setDashboardUrl outcome.dashboardUrl
    return outcome
  else return outcome

def saveResult : Except InstallerError InstallOutcome → Command InstallOutcome
  | .ok outcome => saveOutcome outcome
  | .error e => throw e

/-- The end of `run_install`. -/
def save (request : InstallRequest) (result : Except InstallerError InstallOutcome) :
    Command InstallOutcome := do
  saveChecked request result.isOk
  clearDetection request
  saveResult result

/-- `run_install`, once it is the running operation. -/
def runPlan (request : InstallRequest) : Command InstallOutcome := do
  let detection ← loadDetection
  let snapshot ← okOr detection (.new "Detect the modem before continuing"
    "Detection confirms the connection and selects the safe installation path."
    "There was no saved detection snapshot.")
  fromResult (validateInstallRequest request snapshot)
  let (plan, pinnedRelease) ← loadPlan request snapshot
  Call.starts request plan.identity pinnedRelease
  let result ← resultOf (work request plan pinnedRelease)
  match ← Call.ask .joined with
  | .error e => throw (.internal "waiting for installation" e)
  | .ok _ =>
    Call.arrives request result
    save request result

def runInstall (request : InstallRequest) : Command InstallOutcome := do
  requireNormalMode
  start
  guarded (runPlan request)

/-! ### Threads -/

/-- The commands of the user interface. -/
inductive Body where
  | detectDevice (request : DetectionRequest)
  | invalidateDetection
  | recoverDevice (detectionId transactionId : String)
  | runInstall (request : InstallRequest)

/-- The program of a thread: the command, whose result goes to the user interface. -/
def program : Body → Program Call (Next Body)
  | .detectDevice request => do
    let _ ← (detectDevice request).run
    return .stop
  | .invalidateDetection => do
    let _ ← invalidateDetection.run
    return .stop
  | .recoverDevice detectionId transactionId => do
    let _ ← (recoverDevice detectionId transactionId).run
    return .stop
  | .runInstall request => do
    let _ ← (runInstall request).run
    return .stop

/-- The installer's commands and the state they share. What happens from outside is that the user
interface invokes one. -/
def installer : Machine Call Ctx World Body Input Body where
  exec := exec
  after := Ctx.after
  spawns _ _ _ := []
  body := program
  occur x w := some ⟨w, false, [(x, {})]⟩

/-- The installer has just been started, in the packaged startup check or not. -/
def initial (startupCheck : Bool) : State Call Ctx World Body := ⟨{ startupCheck }, []⟩

end OpenUI.Installer.Commands
