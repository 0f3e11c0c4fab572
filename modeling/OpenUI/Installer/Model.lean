import OpenUI.Text

/-!
# `OpenUI.Installer.Model`: what the installer and its user interface exchange

The records of `model.rs` and the `Identity` of `identity.rs`. `DetectionResult` only fills the
screen and is left out, and so is what an `AdbDevice` shows.
-/

set_option autoImplicit false

namespace OpenUI.Installer

structure InstallerError where
  summary : String
  guidance : String
  details : String
  diagnosticPath : Option String
  deriving DecidableEq

/-- `InstallerError::new`. -/
def InstallerError.new (summary guidance details : String) : InstallerError :=
  { summary, guidance, details, diagnosticPath := none }

/-- `InstallerError::internal`. -/
def InstallerError.internal (context error : String) : InstallerError :=
  .new "The installer encountered an unexpected problem"
    "Copy the diagnostic details and include them when reporting the issue."
    (context ++ ": " ++ error)

structure DetectionRequest where
  gateway : String
  adbSerial : Option String
  deriving DecidableEq

inductive PasswordAction where
  | keep
  | replace
  deriving DecidableEq

inductive PinAction where
  | keep
  | set
  | remove
  deriving DecidableEq

structure InstallRequest where
  detectionId : String
  gateway : String
  adbSerial : Option String
  routerPassword : String
  backupSuffix : String
  agentPassword : String
  agentPasswordConfirmation : String
  agentPin : String
  passwordAction : PasswordAction
  pinAction : PinAction
  dryRun : Bool
  rebootAfter : Bool
  diagnosticMode : Bool
  bundlePath : Option String
  deriving DecidableEq

/-- The request a check is saved as: apart from the dry-run flag, what was checked. -/
def InstallRequest.checkedRequest (r : InstallRequest) : InstallRequest :=
    { r with dryRun := false }

inductive InstallMode where
  | unlock
  | adb
  | ssh
  deriving DecidableEq

inductive Operation where
  | install
  | repair
  | update
  deriving DecidableEq

def Operation.label : Operation → String
  | .install => "Install"
  | .repair => "Repair"
  | .update => "Update"

/-- `identity.rs`: who the modem is, over the transport that was asked. -/
structure Identity where
  model : String
  firmware : String
  fingerprint : String
  deriving DecidableEq

/-- `Identity::require_same`. -/
def Identity.requireSame (expected actual : Identity) : Except InstallerError Unit :=
  if expected ≠ actual then
    .error (.new "The target modem could not be verified"
      ("No deployment files were changed. Check the address, firmware and selected USB device, " ++
        "then detect again.")
      "Device identity or firmware changed since detection; a new plan is required.")
  else .ok ()

structure DetectionSnapshot where
  identity : Option Identity
  id : String
  gateway : String
  adbPath : Option String
  adbSerial : Option String
  mode : Option InstallMode
  operation : Option Operation
  ready : Bool
  deriving DecidableEq

structure InstallOutcome where
  result : String
  verifiedIdentity : Option Identity
  deviceModel : String
  firmware : String
  release : String
  title : String
  message : String
  operation : Operation
  dashboardUrl : Option String
  apiUrl : Option String
  sshAddress : Option String
  diagnosticPath : Option String
  deriving DecidableEq

end OpenUI.Installer
