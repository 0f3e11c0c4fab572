import OpenUI.Attempts
import OpenUI.Text
import Mathlib.Data.List.Sort
import Mathlib.Data.List.Nodup

/-!
# `OpenUI.Agent.Usb`: the USB gadget and its restoration

`agent/src/usb.rs`: a switch of the USB mode first takes a snapshot of the gadget (its attributes,
the functions that are linked into its configuration, the controller it is bound to) and of the USB
interfaces in the bridge. When the switch fails, `restoreWith` puts them back.

`Device` is the gadget and the bridge, `Kernel` the system around them: which calls fail, with
what text, and what becomes of the bridge when the gadget is bound anew. The calls of a step are
told apart by the step's number.
-/

set_option autoImplicit false

namespace OpenUI.Agent.Usb

open OpenUI.Attempts OpenUI.Text

/-- `GADGET_DIR`. -/
def gadgetDir : String := "/sys/kernel/config/usb_gadget/g1"

/-- `CONFIG_DIR`. -/
def configDir : String := "/sys/kernel/config/usb_gadget/g1/configs/c.1"

/-- `UDC_PATH`. -/
def udcPath : String := "/sys/kernel/config/usb_gadget/g1/UDC"

/-- Whether a text starts with another. -/
def startsWith (name start : String) : Bool := start.toList.isPrefixOf name.toList

/-- `Path::file_name`: what follows the last slash. -/
def fileName (path : String) : String :=
  String.ofList (path.toList.reverse.takeWhile (· ≠ '/')).reverse

/-- `is_usb_interface`. -/
def isUsbInterface (name : String) : Bool :=
  ["ecm", "rndis", "ncm", "usb"].any (startsWith name)

/-- The interfaces of a bridge that are none of USB's. -/
def others (members : List String) : List String := members.filter (!isUsbInterface ·)

/-! ### The device -/

/-- The calls that a step makes and that can fail. -/
inductive Call where
  /-- `Path::exists` of a file that is there. -/
  | stat (path : String)
  | readFile (path : String)
  | write
  /-- `fs::read_dir` of the configuration. -/
  | readDir
  /-- One entry that it yields. -/
  | entry (path : String)
  | fileType (path : String)
  | readLink (path : String)
  | removeFile (path : String)
  | symlink
  /-- `fs::read_dir` of the bridge's members. -/
  | members
  /-- One entry that it yields. -/
  | member
  /-- The interface that is waited for. -/
  | appears
  /-- A command that cannot be run. -/
  | exec (command : String)
  /-- A command that exits with a failure; the text is what it says. -/
  | status (command : String)
  deriving DecidableEq

/-- The system around the device. -/
structure Kernel where
  /-- The error of a call in the step of that number, when it fails. -/
  faults : Nat → Call → Option String
  /-- The bridge's members after the gadget's controller was written in a step: USB interfaces go
  with the binding and come with it. -/
  settle : Nat → List String → List String
  settle_others : ∀ n members, others (settle n members) = others members
  settle_nodup : ∀ n members, members.Nodup → (settle n members).Nodup

/-- A kernel that leaves the bridge as it is. -/
def Kernel.still (faults : Nat → Call → Option String) : Kernel where
  faults := faults
  settle _ members := members
  settle_others _ _ := rfl
  settle_nodup _ _ h := h

/-- The gadget's files, the entries of its configuration directory (each with its target, when it
is a link), and the interfaces in `br-lan`. No directory has two entries of one name. -/
structure Device where
  files : String → Option String
  entries : List (String × Option String)
  members : List String
  entries_nodup : (entries.map Prod.fst).Nodup
  members_nodup : members.Nodup

namespace Device

/-- A file with a new content. -/
def setFile (path value : String) (d : Device) : Device :=
  { d with files := Function.update d.files path (some value) }

/-- An entry less. -/
def unlink (path : String) (d : Device) : Device :=
  { d with
    entries := d.entries.filter (·.1 ≠ path)
    entries_nodup := d.entries_nodup.sublist (List.filter_sublist.map Prod.fst) }

/-- A link more. -/
def link (path target : String) (d : Device) (hnew : path ∉ d.entries.map Prod.fst) : Device :=
  { d with
    entries := d.entries ++ [(path, some target)]
    entries_nodup := by
      rw [List.map_append, List.nodup_append]
      refine ⟨d.entries_nodup, List.nodup_singleton _, ?_⟩
      rintro old hold new hadded rfl
      rw [List.map_singleton, List.mem_singleton] at hadded
      subst hadded
      exact hnew hold }

/-- An interface less in the bridge. -/
def leave (member : String) (d : Device) : Device :=
  { d with
    members := d.members.filter (· ≠ member)
    members_nodup := d.members_nodup.filter _ }

/-- An interface more. -/
def join (member : String) (d : Device) (hnew : member ∉ d.members) : Device :=
  { d with
    members := d.members ++ [member]
    members_nodup := by
      rw [List.nodup_append]
      refine ⟨d.members_nodup, List.nodup_singleton _, ?_⟩
      rintro old hold new hadded rfl
      rw [List.mem_singleton] at hadded
      subst hadded
      exact hnew hold }

/-- The bridge after a write of the controller. -/
def settle (kernel : Kernel) (n : Nat) (d : Device) : Device :=
  { d with
    members := kernel.settle n d.members
    members_nodup := kernel.settle_nodup n _ d.members_nodup }

end Device

/-- Whether an entry of the configuration is a function: its name starts with `f`, and it is a
link. -/
def isFunction (e : String × Option String) : Bool := startsWith (fileName e.1) "f" && e.2.isSome

/-! ### The bridge -/

section Commands

variable (kernel : Kernel) (n : Nat)

/-- `checked_bridge_members("br-lan")`. -/
def checkedBridgeMembers (d : Device) : Except String (List String) :=
  match kernel.faults n .members, kernel.faults n .member with
  | some e, _ => .error s!"read /sys/class/net/br-lan/brif: {e}"
  | none, some e => .error e
  | none, none => .ok (d.members.insertionSort (· ≤ ·))

/-- `bridge_members("br-lan")`: nothing when they cannot be read. -/
def bridgeMembers (d : Device) : List String :=
  match checkedBridgeMembers kernel n d with
  | .ok members => members
  | .error _ => []

/-- `run_command`, where the kernel may refuse as well. -/
def runCommand (command : String) (args : List String) (refusal : Option String) :
    Except String Unit :=
  match kernel.faults n (.exec command) with
  | some e => .error s!"{command} exec: {e}"
  | none =>
    match (kernel.faults n (.status command)).or refusal with
    | some stderr =>
      .error (command ++ " " ++ " ".intercalate args ++ " failed: " ++ trim stderr)
    | none => .ok ()

/-- `add_bridge_member("br-lan", …)`. `brctl` refuses an interface that is in the bridge. -/
def addBridgeMember (ifname : String) (d : Device) : Except String Unit × Device :=
  if ifname ∈ bridgeMembers kernel n d then (.ok (), d)
  else if hin : ifname ∈ d.members then
    (runCommand kernel n "brctl" ["addif", "br-lan", ifname] (some "Device or resource busy"), d)
  else
    match runCommand kernel n "brctl" ["addif", "br-lan", ifname] none with
    | .error e => (.error e, d)
    | .ok () => (.ok (), d.join ifname hin)

/-- `remove_bridge_member("br-lan", …)`. -/
def removeBridgeMember (ifname : String) (d : Device) : Except String Unit × Device :=
  if ifname ∉ bridgeMembers kernel n d then (.ok (), d)
  else
    match runCommand kernel n "brctl" ["delif", "br-lan", ifname] none with
    | .error e => (.error e, d)
    | .ok () => (.ok (), d.leave ifname)

/-! ### The configuration -/

/-- The loop of `remove_config_links`. -/
def removeEach : List (String × Option String) → Device → Except String Unit × Device
  | [], d => (.ok (), d)
  | e :: rest, d =>
    if isFunction e ∧ kernel.faults n (.readLink e.1) = none then
      match kernel.faults n (.removeFile e.1) with
      | some text => (.error s!"remove {fileName e.1}: {text}", d)
      | none => removeEach rest (d.unlink e.1)
    else removeEach rest d

/-- `remove_config_links`: an entry that cannot be read is passed over. -/
def removeConfigLinks (d : Device) : Except String Unit × Device :=
  match kernel.faults n .readDir with
  | some e => (.error s!"read {configDir}: {e}", d)
  | none => removeEach kernel n (d.entries.filter fun e => kernel.faults n (.entry e.1) = none) d

/-- `wait_for_interface`, after its time. -/
def waitForInterface (ifname : String) : Option String :=
  match kernel.faults n .appears with
  | some _ => none
  | none => some ifname

end Commands

/-! ### The steps -/

/-- `RestoreIo`. -/
structure RestoreIo (σ : Type) where
  write : String → String → σ → Except String Unit × σ
  removeLinks : σ → Except String Unit × σ
  link : String → String → σ → Except String Unit × σ
  members : σ → Except String (List String) × σ
  removeMember : String → σ → Except String Unit × σ
  restoreMember : String → σ → Except String Unit × σ

namespace RestoreHardware

variable (kernel : Kernel) (n : Nat)

def write (path value : String) (d : Device) : Except String Unit × Device :=
  let settled := if path = udcPath then d.settle kernel n else d
  match kernel.faults n .write with
  | some e => (.error s!"restore {path}: {e}", settled)
  | none => (.ok (), settled.setFile path value)

/-- `link`. No link is made where there is something. -/
def link (target path : String) (d : Device) : Except String Unit × Device :=
  match kernel.faults n .symlink with
  | some e => (.error s!"restore {path}: {e}", d)
  | none =>
    if hin : path ∈ d.entries.map Prod.fst then
      (.error s!"restore {path}: File exists (os error 17)", d)
    else (.ok (), d.link path target hin)

def restoreMember (member : String) (d : Device) : Except String Unit × Device :=
  match waitForInterface kernel n member with
  | none => (.error s!"restore interface {member} did not appear", d)
  | some _ =>
    match runCommand kernel n "ifconfig" [member, "up"] none with
    | .error e => (.error e, d)
    | .ok () => addBridgeMember kernel n member d

end RestoreHardware

/-- `RestoreHardware`, in the step of a number. -/
def restoreHardware (kernel : Kernel) (n : Nat) : RestoreIo Device where
  write := RestoreHardware.write kernel n
  removeLinks := removeConfigLinks kernel n
  link := RestoreHardware.link kernel n
  members d := (checkedBridgeMembers kernel n d, d)
  removeMember := removeBridgeMember kernel n
  restoreMember := RestoreHardware.restoreMember kernel n

/-- A step of the restoration. -/
inductive Action where
  | write (path value : String)
  | removeLinks
  | link (target path : String)
  | members
  | removeMember (member : String)
  | restoreMember (member : String)
  deriving DecidableEq

/-- Steps of which a record is kept. -/
def logged {σ : Type} (io : Nat → RestoreIo σ) : RestoreIo (Bench Action String σ) where
  write path value := act (.write path value) fun n => (io n).write path value
  removeLinks := act .removeLinks fun n => (io n).removeLinks
  link target path := act (.link target path) fun n => (io n).link target path
  members := act .members fun n => (io n).members
  removeMember member := act (.removeMember member) fun n => (io n).removeMember member
  restoreMember member := act (.restoreMember member) fun n => (io n).restoreMember member

/-! ### Snapshots -/

/-- `GadgetSnapshot`. A link is its path and its target. -/
structure GadgetSnapshot where
  udc : String
  attributes : List (String × String)
  links : List (String × String)
  bridge : List String

/-- The attributes that `capture` reads, by their path in the gadget's directory. -/
def attributeSuffixes : List String :=
  ["idVendor", "idProduct", "strings/0x409/product", "configs/c.1/strings/0x409/configuration",
    "bDeviceClass", "os_desc/use", "os_desc/b_vendor_code", "os_desc/qw_sign"]

namespace GadgetSnapshot

section Capture

variable (fails : Call → Option String) (d : Device)

/-- One attribute, when its file exists. -/
def captureAttribute (suffix : String) : Except String (Option (String × String)) :=
  let path := gadgetDir ++ "/" ++ suffix
  match d.files path, fails (.stat path), fails (.readFile path) with
  | none, _, _ => .ok none
  | some _, some _, _ => .ok none
  | some _, none, some e => .error s!"snapshot {path}: {e}"
  | some text, none, none => .ok (some (path, trim text))

/-- One entry of the configuration, when it is a function. -/
def captureLink (e : String × Option String) : Except String (Option (String × String)) :=
  match fails (.entry e.1) with
  | some text => .error text
  | none =>
    if startsWith (fileName e.1) "f" then
      match fails (.fileType e.1), e.2 with
      | some text, _ => .error text
      | none, none => .ok none
      | none, some target =>
        match fails (.readLink e.1) with
        | some text => .error text
        | none => .ok (some (e.1, target))
    else .ok none

/-- The results of several reads, and the first error. -/
def collect {α β : Type} (read : α → Except String (Option β)) : List α → Except String (List β)
  | [] => .ok []
  | a :: rest =>
    match read a with
    | .error e => .error e
    | .ok found =>
      match collect read rest with
      | .error e => .error e
      | .ok more => .ok (found.toList ++ more)

/-- The controller the gadget is bound to. -/
def captureUdc : Except String String :=
  match fails (.readFile udcPath), d.files udcPath with
  | some e, _ => .error s!"snapshot UDC: {e}"
  | none, none => .error "snapshot UDC: No such file or directory (os error 2)"
  | none, some text => .ok (trim text)

/-- The functions of the configuration. -/
def captureLinks : Except String (List (String × String)) :=
  match fails .readDir with
  | some e => .error e
  | none =>
    match collect (captureLink fails) d.entries with
    | .error e => .error e
    | .ok [] => .error "cannot snapshot an empty USB composition"
    | .ok links => .ok links

/-- `checked_bridge_members("br-lan")`, of which the USB interfaces are kept. -/
def captureBridge : Except String (List String) :=
  match checkedBridgeMembers
      { faults := fun _ => fails, settle := fun _ members => members
        settle_others := fun _ _ => rfl, settle_nodup := fun _ _ h => h } 0 d with
  | .error e => .error e
  | .ok members => .ok (members.filter (isUsbInterface ·))

/-- `capture`. -/
def capture : Except String GadgetSnapshot := do
  let udc ← captureUdc fails d
  let attributes ← collect (captureAttribute fails d) attributeSuffixes
  let links ← captureLinks fails d
  let bridge ← captureBridge fails d
  return { udc, attributes, links, bridge }

end Capture

/-- `restore_with`. -/
def restoreWith {σ : Type} (snapshot : GadgetSnapshot) (io : RestoreIo σ) (s : σ) :
    Except String Unit × σ :=
  let gadget := attempts
    ([io.write udcPath "", io.removeLinks] ++
      snapshot.attributes.map (fun a => io.write a.1 a.2) ++
      snapshot.links.map (fun l => io.link l.2 l.1) ++
      [io.write udcPath snapshot.udc]) ([], s)
  let answer := io.members gadget.2
  let members := match answer.1 with
    | .ok members => members
    | .error _ => []
  let bridge := attempts
    ((members.filter fun member => isUsbInterface member && !snapshot.bridge.contains member).map
        io.removeMember ++
      snapshot.bridge.map io.restoreMember)
    (gadget.1 ++ (error? answer.1).toList, answer.2)
  (if bridge.1 = [] then .ok () else .error ("; ".intercalate bridge.1), bridge.2)

/-- `restore`, on a record that is empty. -/
def restore (snapshot : GadgetSnapshot) (kernel : Kernel) (d : Device) :
    Except String Unit × Bench Action String Device :=
  snapshot.restoreWith (logged (restoreHardware kernel)) { state := d, log := [] }

end GadgetSnapshot

end OpenUI.Agent.Usb
