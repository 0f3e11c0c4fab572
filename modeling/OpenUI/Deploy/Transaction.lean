import OpenUI.Shell.Script

/-!
# `OpenUI.Deploy.Transaction`: durable deployment snapshots

`scripts/device/transaction.sh`. `begin` copies the files a deployment may change and leaves the
markers by which a later invocation knows what there is to recover; `restore` puts the copies back,
`complete` gives the deployment up to the new files, and `discard-incomplete` removes a snapshot
that was never finished. Every command stands at a `Point`.

The tree is what is below `$root`. Where the script asks with `-e` alone there is never a link, so
`-e` is that something is there. The services are seen by their exit status only.
-/

set_option autoImplicit false

namespace OpenUI.Deploy

open OpenUI.Shell OpenUI.Shell.Script

/-! ### The files -/

/-- A target, by its path. -/
abbrev Target := Path

/-- `targets`. -/
def targets : List Target :=
  [["data", "zte-agent"],
   ["data", "zte-esim"],
   ["data", "open-u60-manifest.json"],
   ["data", "www"],
   ["data", "www.current"],
   ["data", "local", "tmp", "start_zte_agent.sh"],
   ["data", "local", "tmp", "start_dashboard.sh"],
   ["data", "local", "tmp", "start_dropbear.sh"],
   ["data", "bin", "dropbear"],
   ["data", "bin", "dbclient"],
   ["data", "bin", "dropbearkey"],
   ["data", "bin", "dashboard-uhttpd"],
   ["etc", "rc.local"],
   ["etc", "dropbear"],
   ["data", "dropbear"],
   ["etc", "config", "uhttpd"]]

/-- `etc/rc.local|data/local/tmp/start_*.sh`. -/
def startupScripts : List Target :=
  [["etc", "rc.local"],
   ["data", "local", "tmp", "start_zte_agent.sh"],
   ["data", "local", "tmp", "start_dashboard.sh"],
   ["data", "local", "tmp", "start_dropbear.sh"]]

/-- `etc/config/uhttpd`. -/
def uhttpd : Target := ["etc", "config", "uhttpd"]

/-- `printf '%s' "$target" | tr / _`. -/
def name (target : Target) : String := "_".intercalate target

/-- `$base`. -/
def base : Path := ["data", "local", "tmp", "open-u60-transactions"]

/-- `$base/lock`. -/
def lock : Path := base ++ ["lock"]

/-- `$base/lock/owner`. -/
def owner : Path := base ++ ["lock", "owner"]

/-- `$base/active`. -/
def active : Path := base ++ ["active"]

/-- `$base/active.new`. -/
def activeNew : Path := base ++ ["active.new"]

section Transaction

variable (id : String)

/-- `$transaction`. -/
def transaction : Path := base ++ [id]

/-- `$transaction/identity`. -/
def identityFile : Path := base ++ [id, "identity"]

/-- `$transaction/state`. -/
def stateFile : Path := base ++ [id, "state"]

/-- `$transaction/before/$name`. -/
def before (target : Target) : Path := base ++ [id, "before", name target]

/-- `$transaction/present/$name`. -/
def present (target : Target) : Path := base ++ [id, "present", name target]

/-- `$transaction/failed-$name`. -/
def failed (target : Target) : Path := base ++ [id, "failed-" ++ name target]

/-- `$destination.restore-$id`. -/
def staged (target : Target) : Path := above target ++ [nameOf target ++ ".restore-" ++ id]

end Transaction

/-! ### What is on the device -/

/-- What the script calls, by its exit status, and what it computes of files. -/
structure Device where
  /-- `[ -z "$root" ]`: the script runs on the device, not in a test. -/
  onDevice : Bool
  /-- `sh -n`. -/
  accepts : Path → FileTree → Bool
  /-- `sha256sum … | awk '{print $1}'`. -/
  checksum : Path → FileTree → String
  /-- `sh /data/local/tmp/stop_open_u60_listener.sh`. -/
  stops : String → FileTree → Bool
  /-- `/etc/init.d/uhttpd restart`. -/
  restarts : FileTree → Bool
  /-- The startup script of a service is not there, or it succeeds. -/
  starts : String → FileTree → Bool

/-! ### The commands of the script -/

/-- Where a command stands. -/
inductive Point where
  -- `begin`
  | base | lock | owner | transaction | undoOwner | undoLock | trap | parts | identity
  | name (target : Target) | look (target : Target) | copy (target : Target)
  | mark (target : Target)
  | snapshotSync | state | stateSync | activeNew | active | activeSync | untrap
  -- the trap's action
  | wipe | wipeOwner | wipeLock
  -- `discard-incomplete`
  | noActive | noState | discardOwner | discardIdentity | discard | discardUnown | discardUnlock
  | discardSync
  -- `restore` and `complete`
  | sameIdentity | knownState | marked | locked | owned | relock | reowner | remark | own | pending
  | changed | stop (service : String)
  | kept (target : Target) | unstage (target : Target) | stage (target : Target)
  | parse (target : Target) | occupied (target : Target) | setAsideBefore (target : Target)
  | setAside (target : Target) | clear (target : Target) | replace (target : Target)
  | drop (target : Target)
  | restart | start (service : String)
  | restored | committed
  | sync | unmark | unown | unlock | lastSync
  deriving DecidableEq, Repr

/-- The trap's action. -/
def cleanup (id : String) : List (Step Point) :=
  [⟨.wipe, .removeAll (transaction id), false⟩,
   ⟨.wipeOwner, .remove owner, false⟩,
   ⟨.wipeLock, .rmdir lock, true⟩]

/-! ### `begin` -/

/-- One round of the loop: a target that is there is copied, and marked as present. -/
def snapshot (id : String) (target : Target) : Script Point Unit := do
  require (.name target) .idle
  let there ← ask (.look target) fun t => (FileTree.get target t).isSome
  if there then do
    require (.copy target) (.copy target (before id target))
    require (.mark target) (.write (present id target) "")
  else pure ()

/-- From the finished snapshot on: it becomes the active one. -/
def activate (id : String) : Script Point Unit := do
  require .stateSync .idle
  require .activeNew (.write activeNew (line id))
  require .active (.move activeNew active)
  require .activeSync .idle
  trap .untrap none

/-- From the snapshot's directories on. -/
def prepare (id identity : String) : Script Point Unit := do
  require .parts
    (.mkdir [transaction id ++ ["before"], transaction id ++ ["present"]])
  require .identity (.write (identityFile id) (line identity))
  each (snapshot id) targets
  require .snapshotSync .idle
  require .state (.write (stateFile id) (line "pending"))
  activate id

/-- From the trap on. -/
def prepareTrapped (id identity : String) : Script Point Unit := do
  trap .trap (some (cleanup id))
  prepare id identity

/-- From the lock on. -/
def beginLocked (id identity : String) : Script Point Unit := do
  require .owner (.write owner (line id))
  let made ← status .transaction (.mkdir [transaction id])
  if made then prepareTrapped id identity
  else do
    require .undoOwner (.remove owner)
    require .undoLock (.rmdir lock)
    throw 73

/-- `begin`. -/
def begin (id identity : String) : Script Point Unit := do
  require .base (.mkdirs base)
  let taken ← status .lock (.mkdir [lock])
  if taken then beginLocked id identity else throw 73

/-! ### `discard-incomplete` -/

/-- `discard-incomplete`. -/
def discardIncomplete (id identity : String) : Script Point Unit := do
  require .noActive (.test fun t => (FileTree.get active t).isNone)
  require .noState (.test fun t => (FileTree.get (stateFile id) t).isNone)
  require .discardOwner (.test fun t => contents owner t = id)
  require .discardIdentity (.test fun t => contents (identityFile id) t = identity)
  require .discard (.removeAll (transaction id))
  require .discardUnown (.remove owner)
  require .discardUnlock (.rmdir lock)
  require .discardSync .idle

/-! ### `restore` and `complete` -/

/-- A directory in the way is set aside, or removed when one was set aside before. -/
def makeRoom (id : String) (target : Target) : Script Point Unit := do
  let occupied ← ask (.occupied target) fun t => (FileTree.get target t).isDirectory
  if occupied then do
    let before ← ask (.setAsideBefore target) fun t => (FileTree.get (failed id target) t).isSome
    if before then require (.clear target) (.removeAll target)
    else require (.setAside target) (.move target (failed id target))
  else pure ()

/-- `sh -n`, of the startup scripts. -/
def parse (device : Device) (id : String) (target : Target) : Script Point Unit :=
  if target ∈ startupScripts then
    require (.parse target) (.test (device.accepts (staged id target)))
  else pure ()

/-- A target that was there is put back. -/
def putBack (device : Device) (id : String) (target : Target) : Script Point Unit := do
  require (.unstage target) (.removeAll (staged id target))
  require (.stage target) (.copy (before id target) (staged id target))
  parse device id target
  makeRoom id target
  require (.replace target) (.replace (staged id target) target)

/-- One round of the loop. -/
def restoreTarget (device : Device) (id : String) (target : Target) : Script Point Unit := do
  let kept ← ask (.kept target) fun t => (FileTree.get (present id target) t).isFile
  if kept then putBack device id target
  else require (.drop target) (.removeAll target)

/-- The listeners are stopped. -/
def stopServices (device : Device) : Script Point Unit :=
  if device.onDevice then
    each (fun service => require (.stop service) (.test (device.stops service)))
      ["dropbear", "dashboard-uhttpd"]
  else pure ()

/-- The stock listener takes its restored configuration. -/
def restartStock (device : Device) (reloadStockHttp : Bool) : Script Point Unit :=
  if reloadStockHttp then require .restart (.test device.restarts) else pure ()

/-- The services are started from their restored scripts. -/
def startServices (device : Device) (reloadStockHttp : Bool) : Script Point Unit :=
  if device.onDevice then do
    restartStock device reloadStockHttp
    each (fun service => require (.start service) (.test (device.starts service)))
      ["dropbear", "zte_agent", "dashboard"]
  else pure ()

/-- `reload_stock_http`: the stock listener's configuration is not what it was. -/
def reloads (device : Device) (id : String) (t : FileTree) : Bool :=
  device.onDevice && (FileTree.get (present id uhttpd) t).isFile &&
    device.checksum (before id uhttpd) t != device.checksum uhttpd t

/-- The part of `restore` between the markers. -/
def restoreFiles (device : Device) (id : String) : Script Point Unit := do
  let reloadStockHttp ← ask .changed (reloads device id)
  stopServices device
  each (restoreTarget device id) targets
  startServices device reloadStockHttp
  require .restored (.write (stateFile id) (line "restored"))

/-- The markers are removed, the lock last. -/
def release : Script Point Unit := do
  require .sync .idle
  require .unmark (.remove active)
  require .unown (.remove owner)
  require .unlock (.rmdir lock)
  require .lastSync .idle

/-- The lock, for a restoration that finds no active transaction. -/
def claimLock (id : String) : Script Point Unit := do
  let locked ← ask .locked fun t => (FileTree.get lock t).isDirectory
  if locked then require .owned (.test fun t => contents owner t = id)
  else do
    require .relock (.mkdir [lock])
    require .reowner (.write owner (line id))

/-- A transaction that is not active is made so, to be restored. -/
def markActive (id : String) : Script Point Unit := do
  let marked ← ask .marked fun t => (FileTree.get active t).isSome
  if marked then pure ()
  else do
    claimLock id
    require .remark (.write active (line id))

/-- `pending|committed|restored`. -/
def knownStates : List String := ["pending", "committed", "restored"]

/-- What both actions check first. -/
def verify (id identity : String) : Script Point Unit := do
  require .sameIdentity (.test fun t => contents (identityFile id) t = identity)
  let known ← ask .knownState fun t => contents (stateFile id) t ∈ knownStates
  if known then pure () else throw 65

/-- `restore`. -/
def restore (device : Device) (id identity : String) : Script Point Unit := do
  verify id identity
  markActive id
  require .own (.test fun t => contents active t = id)
  restoreFiles device id
  release

/-- `complete`. -/
def complete (id identity : String) : Script Point Unit := do
  verify id identity
  require .own (.test fun t => contents active t = id)
  require .pending (.test fun t => contents (stateFile id) t = "pending")
  require .committed (.write (stateFile id) (line "committed"))
  release

/-! ### The script -/

/-- `$action`. -/
inductive Action where
  | begin
  | discardIncomplete
  | restore
  | complete
  deriving DecidableEq, Repr

/-- `*[!a-zA-Z0-9-]*`. -/
def validId (id : String) : Bool :=
  id ≠ "" && id.toList.all fun c => c.isAlphanum || c == '-'

/-- `*[!a-f0-9]*`. -/
def validIdentity (identity : String) : Bool :=
  identity ≠ "" && identity.toList.all fun c => c.isDigit || ('a' ≤ c && c ≤ 'f')

/-- The commands of an action. -/
def run (device : Device) (action : Action) (id identity : String) : Script Point Unit :=
  match action with
  | .begin => begin id identity
  | .discardIncomplete => discardIncomplete id identity
  | .restore => restore device id identity
  | .complete => complete id identity

/-- The script, with its arguments. -/
def invoke (device : Device) (action : Action) (id identity : String) : Script Point Unit :=
  if validId id && validIdentity identity then run device action id identity else throw 64

end OpenUI.Deploy
