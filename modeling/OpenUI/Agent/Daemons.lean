import OpenUI.Agent.Cell
import OpenUI.Json

/-!
# `OpenUI.Agent.Daemons`: stopping optional daemons

`kill_bloat` of `agent/src/system.rs`, against a process table that changes while it runs. It looks
at one process after the other in `/proc`, and then signals one after the other. Each of these
accesses concerns one PID and finds the table of its time.
-/

set_option autoImplicit false

namespace OpenUI.Agent.Daemons

open OpenUI.Text OpenUI.Json OpenUI.Agent.Cell

/-! ### The firmware's barrier -/

/-- `SAFE_OPTIONAL_DAEMONS`. -/
def safeOptionalDaemons : List String :=
  ["zte_topsw_tr069_sub", "zte_mqtt_sdk_st", "zte_topsw_diag", "zte_topsw_samba", "zte_topsw_nfc",
    "zte_topsw_get_brand", "zte_topsw_jwxk_query", "zte-topsw-tunnel", "zte_topsw_dua"]

/-- The daemon that a line of the barrier names. -/
def syncEntry (line : String) : Option String :=
  let cleaned := trim line
  let columns := (splitWhitespace cleaned).map String.ofList
  if cleaned = "" ∨ cleaned.toList.head? = some '#' then none
  else if columns.head? = some "sync" ∧ 3 ≤ columns.length then columns.getLast?
  else none

/-- `parse_daemon_sync_config`. -/
def parseDaemonSyncConfig (content : String) : List String := (lines content).filterMap syncEntry

/-- `protected_daemons`, from what reading the file gives. -/
def protectedDaemons (barrier : Except String String) : Except String (List String) :=
  match barrier with
  | .error e => .error ("cannot verify firmware daemon safety barrier: " ++ e)
  | .ok content =>
    if parseDaemonSyncConfig content = [] then
      .error "firmware daemon safety barrier contained no sync entries"
    else .ok (parseDaemonSyncConfig content)

/-- `is_safe_optional_daemon`. -/
def isSafeOptionalDaemon (name : String) (protectedNames : List String) : Bool :=
  safeOptionalDaemons.contains name && !protectedNames.contains name

/-! ### Processes -/

/-- The files of a process in `/proc`, where they can be read as text. -/
structure Process where
  stat : Option String
  cmdline : Option String

/-- The processes at one time. A PID is a positive `i32`. -/
structure Table where
  process : UInt32 → Option Process
  valid : ∀ pid, process pid ≠ none → 0 < pid.toNat ∧ pid.toNat < 2147483648

/-- What stands before the last closing parenthesis, and after it. -/
def splitLastParen (stat : String) : Option (List Char × List Char) :=
  match stat.toList.reverse.span (· ≠ ')') with
  | (after, _ :: before) => some (before.reverse, after.reverse)
  | (_, []) => none

/-- The base name of a command line, if it has one. -/
def commandName (cmdline : String) : Option String :=
  let clean := cmdline.toList.map fun c => if c = '\x00' then ' ' else c
  ((splitWhitespace (String.ofList clean)).head?).bind fun first =>
    let basename := (first.reverse.takeWhile (· ≠ '/')).reverse
    if basename = [] then none else some (String.ofList basename)

/-- `read_proc_name_rss` of the files of one process. The kernel writes the name of the program in
parentheses. -/
def nameRss (p : Process) : Option (String × Nat) :=
  p.stat.bind fun stat =>
    (splitLastParen stat).bind fun (comm, after) =>
      -- One character follows the parenthesis, of one byte.
      if after.head?.any (·.toNat < 0x80) then
        (((splitWhitespace (String.ofList after.tail))[21]?).bind
            (parseUnsigned 18446744073709551616)).map fun rssPages =>
          ((p.cmdline.bind commandName).getD (String.ofList ((comm.dropWhile (· ≠ '(')).drop 1)),
            rssPages * 4)
      else none

/-- `read_proc_name_rss`. -/
def readProcNameRss (table : Table) (pid : UInt32) : Option (String × Nat) :=
  (table.process pid).bind nameRss

/-! ### `kill_bloat` -/

/-- A process that was looked at. -/
structure Target where
  pid : UInt32
  name : String
  rssKb : Nat

/-- What goes on beside the agent: the entries of `/proc`, and the process table at the time of each
of its accesses to a PID. -/
structure Evolution where
  listing : Option (List String)
  table : Nat → Table

/-- The targets of the PIDs, looked at one after the other from the access `n` on. -/
def collect (e : Evolution) (wanted : String → Bool) : Nat → List UInt32 → List Target
  | _, [] => []
  | n, pid :: pids =>
    match readProcNameRss (e.table n) pid with
    | some (name, rss) =>
      if wanted name then ⟨pid, name, rss⟩ :: collect e wanted (n + 1) pids
      else collect e wanted (n + 1) pids
    | none => collect e wanted (n + 1) pids

/-- A signal, and the access that it is. -/
structure Signal where
  time : Nat
  pid : UInt32
  deriving DecidableEq

/-- `KillBloatResult`, with the signals on the way to it. -/
structure KillBloatResult where
  killed : List (UInt32 × String)
  skipped : List (UInt32 × String)
  freedRssKb : Nat
  signals : List Signal

/-- The second loop, from the access `n` on. -/
def signalTargets (e : Evolution) (protectedNames : List String) :
    Nat → List Target → KillBloatResult
  | _, [] => ⟨[], [], 0, []⟩
  | n, t :: targets =>
    if isSafeOptionalDaemon t.name protectedNames then
      let rest := signalTargets e protectedNames (n + 1) targets
      if ((e.table n).process t.pid).isSome then
        ⟨(t.pid, t.name) :: rest.killed, rest.skipped, t.rssKb + rest.freedRssKb,
          ⟨n, t.pid⟩ :: rest.signals⟩
      else
        ⟨rest.killed, (t.pid, t.name) :: rest.skipped, rest.freedRssKb,
          ⟨n, t.pid⟩ :: rest.signals⟩
    else
      let rest := signalTargets e protectedNames n targets
      ⟨rest.killed, (t.pid, t.name) :: rest.skipped, rest.freedRssKb, rest.signals⟩

/-- The PIDs that are looked at. -/
def lookedAt (pids : Option (List UInt32)) (e : Evolution) : List UInt32 :=
  match pids with
  | some pids => pids
  | none => (e.listing.getD []).filterMap fun name =>
      (parseUnsigned 4294967296 name.toList).map fun n => UInt32.ofNat n

/-- `kill_bloat`. -/
def killBloat (barrier : Except String String) (pids : Option (List UInt32)) (e : Evolution) :
    Except String KillBloatResult :=
  match protectedDaemons barrier with
  | .error error => .error error
  | .ok protectedNames =>
    let wanted : String → Bool := fun name =>
      pids.isSome || isSafeOptionalDaemon name protectedNames
    .ok (signalTargets e protectedNames (lookedAt pids e).length
      (collect e wanted 0 (lookedAt pids e)))

end OpenUI.Agent.Daemons
