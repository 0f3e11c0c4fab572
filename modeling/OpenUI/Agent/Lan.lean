import OpenUI.Concurrency.Interrupted
import OpenUI.Text

/-!
# `OpenUI.Agent.Lan`: confirmed LAN changes

`agent/src/lan.rs`: a LAN change is recorded in a journal before it is applied, and undone unless
the client confirms it in time. `LanManager`'s functions are programs over the calls of
`trait Backend`, the clock and the random source. Each holds the state mutex from its first call to
its last, so they run one after another; the process may die between any two calls.

`Router` is what outlives the process: the settings, the journal, and a record of what was done.
-/

set_option autoImplicit false

namespace OpenUI.Agent.Lan

open OpenUI.Text OpenUI.Concurrency

/-! ### Settings -/

/-- `LanSettings`. -/
structure LanSettings where
  ipaddr : String
  netmask : String
  dhcpEnabled : Bool
  dhcpStart : String
  dhcpEnd : String
  leaseSeconds : Nat
  deriving DecidableEq, Repr

/-- One number of an IPv4 address: up to 255, without leading zeros. -/
def parseOctet (s : List Char) : Option UInt32 :=
  let value : Nat := s.foldl (fun n c => 10 * n + (c.toNat - 0x30)) 0
  let plain : Bool := s.all isAsciiDigit && (s.head? != some '0' || s.length == 1)
  if s ≠ [] ∧ s.length ≤ 3 ∧ plain ∧ value ≤ 255 then some (UInt32.ofNat value) else none

/-- `str::parse::<Ipv4Addr>`, as the `u32` of the address. -/
def parseIpv4 (s : String) : Option UInt32 :=
  match (s.toList.splitOn '.').mapM parseOctet with
  | some [a, b, c, d] => some (a <<< 24 ||| b <<< 16 ||| c <<< 8 ||| d)
  | _ => none

/-- `Ipv4Addr::is_private`: 10/8, 172.16/12 and 192.168/16. -/
def isPrivate (ip : UInt32) : Bool :=
  ip >>> 24 == 10 || ip >>> 20 == 0xAC1 || ip >>> 16 == 0xC0A8

/-- `u32::count_ones`. -/
def countOnes (n : UInt32) : Nat := (List.range 32).countP (n.toNat.testBit ·)

/-- `router::validate_lan_settings`. -/
def validateLanSettings (settings : LanSettings) : Except String Unit :=
  match parseIpv4 settings.ipaddr, parseIpv4 settings.netmask, parseIpv4 settings.dhcpStart,
      parseIpv4 settings.dhcpEnd with
  | none, _, _, _ => .error "invalid LAN IPv4 address"
  | _, none, _, _ => .error "invalid IPv4 netmask"
  | _, _, none, _ => .error "invalid DHCP start address"
  | _, _, _, none => .error "invalid DHCP end address"
  | some ip, some mask, some start, some stop =>
    let inverse := ~~~mask
    let network := ip &&& mask
    let broadcast := network ||| inverse
    if !isPrivate ip then
      .error "LAN address must be a private IPv4 address"
    else if inverse &&& (inverse + 1) ≠ 0 ∨ countOnes mask < 8 ∨ 30 < countOnes mask then
      .error "netmask must be contiguous and between /8 and /30"
    else if ip = network ∨ ip = broadcast then
      .error "LAN address must be a usable host address"
    else if start &&& mask ≠ network ∨ stop &&& mask ≠ network then
      .error "DHCP range must be in the LAN subnet"
    else if stop ≤ start ∨ start = network ∨ stop = broadcast then
      .error "DHCP range must contain usable addresses in ascending order"
    else if start ≤ ip ∧ ip ≤ stop then
      .error "DHCP range must not include the router address"
    else if settings.leaseSeconds < 60 ∨ 604800 < settings.leaseSeconds then
      .error "lease_seconds must be between 60 and 604800"
    else .ok ()

/-! ### The manager's state -/

/-- `CONFIRM_SECONDS`, in milliseconds. -/
def confirmTime : Nat := 120000

/-- `Journal`. -/
structure Journal where
  previous : LanSettings
  proposed : LanSettings
  token : String
  deriving DecidableEq, Repr

/-- `Pending`. -/
structure Pending where
  journal : Journal
  deadline : Nat
  applied : Bool

/-- `Binding`: the address the server listens on. `fixed`: it was set by hand. -/
structure Binding where
  address : String
  generation : Nat := 0
  fixed : Bool := false

/-- `Binding::set`. -/
def Binding.set (ip : String) (b : Binding) : Binding :=
  if b.fixed then b
  else if b.address ≠ ip ++ ":9090" then
    { b with address := ip ++ ":9090", generation := b.generation + 1 }
  else b

/-- `LanManager`: its `State` and the binding. -/
structure LanManager where
  pending : Option Pending := none
  confirmed : Option Journal := none
  error : Option String := none
  binding : Binding

/-! ### The router -/

/-- The calls of `trait Backend`, the clock and `/dev/urandom`. `clear` notes which change it
confirms, if it is not part of a rollback. -/
inductive Call : Type → Type where
  | read : Call (Except String LanSettings)
  | apply (settings : LanSettings) : Call (Except String Unit)
  | load : Call (Except String (Option Journal))
  | save (journal : Journal) : Call (Except String Unit)
  | clear (confirms : Option Journal) : Call (Except String Unit)
  | random : Call (Except String String)
  | now : Call Nat

/-- What was done, for the record. -/
inductive Done where
  /-- The journal of a change was written at this time. -/
  | saved (journal : Journal) (time : Nat)
  /-- Settings were applied and read back. -/
  | applied (settings : LanSettings)
  /-- The journal of a confirmed change was removed. -/
  | confirmed (journal : Journal)
  deriving DecidableEq, Repr

/-- What outlives the agent. `confirmed` are the last confirmed settings and `log` what was done,
the latest first; no call depends on them. -/
structure Router where
  live : LanSettings
  journal : Option Journal := none
  now : Nat := 0
  confirmed : LanSettings
  log : List Done := []

/-- How a call ends. -/
inductive Fault where
  | none
  /-- It failed and did nothing. -/
  | failed (error : String)
  /-- An apply failed and left these settings. -/
  | partly (error : String) (left : LanSettings)
  /-- A save failed after the new journal was in place. -/
  | replaced (error : String)
  /-- A clear failed after the journal was gone. -/
  | removed (error : String)

/-- The environment's answer to a call: how it ends, how long it takes, and what the random source
gives. -/
structure Answer where
  fault : Fault := .none
  elapsed : Nat := 0
  token : String := ""

namespace Router

/-- Time passes. -/
def wait (d : Nat) (r : Router) : Router := { r with now := r.now + d }

/-- The settings are in force, and were read back. -/
def applied (settings : LanSettings) (r : Router) : Router :=
  { r with live := settings, log := .applied settings :: r.log }

/-- A journal is written. -/
def saved (journal : Journal) (r : Router) : Router :=
  { r with journal := some journal, log := .saved journal r.now :: r.log }

/-- The journal is removed, and the change it confirms is confirmed. -/
def cleared (confirms : Option Journal) (r : Router) : Router :=
  match confirms with
  | none => { r with journal := none }
  | some j =>
    { r with journal := none, confirmed := j.proposed, log := .confirmed j :: r.log }

/-- A call. -/
def exec : Effects Call Answer Router
  | _, .read, e, r => match e.fault with
    | .none => some (.ok r.live, r.wait e.elapsed)
    | .failed m => some (.error m, r.wait e.elapsed)
    | _ => none
  | _, .apply settings, e, r => match e.fault with
    | .none => some (.ok (), (r.wait e.elapsed).applied settings)
    | .failed m => some (.error m, r.wait e.elapsed)
    | .partly m live => some (.error m, { r.wait e.elapsed with live })
    | _ => none
  | _, .load, e, r => match e.fault with
    | .none => some (.ok r.journal, r.wait e.elapsed)
    | .failed m => some (.error m, r.wait e.elapsed)
    | _ => none
  | _, .save journal, e, r => match e.fault with
    | .none => some (.ok (), (r.wait e.elapsed).saved journal)
    | .failed m => some (.error m, r.wait e.elapsed)
    | .replaced m => some (.error m, (r.wait e.elapsed).saved journal)
    | _ => none
  | _, .clear confirms, e, r => match e.fault, r.journal with
    | .failed m, _ => some (.error m, r.wait e.elapsed)
    | _, none => some (.error "not found", r.wait e.elapsed)
    | .none, some _ => some (.ok (), (r.wait e.elapsed).cleared confirms)
    | .removed m, some _ => some (.error m, (r.wait e.elapsed).cleared none)
    | _, _ => none
  | _, .random, e, r => match e.fault with
    | .none => some (.ok e.token, r.wait e.elapsed)
    | .failed m => some (.error m, r.wait e.elapsed)
    | _ => none
  | _, .now, _, r => some (r.now, r)

end Router

/-! ### The functions

A function of the manager gives its result and the manager after it. -/

/-- What `begin` answers. -/
inductive Begun where
  | unchanged
  | changed (reconnectIp confirmationToken : String) (confirmWithin : Nat)
  deriving DecidableEq, Repr

namespace LanManager

/-- `LanManager::new`. -/
def new (binding : Binding) : LanManager := { binding }

/-- `self.binding.set`. -/
def bind (ip : String) (m : LanManager) : LanManager := { m with binding := m.binding.set ip }

/-- `recover`: before starting the listener, undo any change that was never confirmed. A failed
recovery remains recorded and blocks new changes. -/
def recover (m : LanManager) : Program Call (Unit × LanManager) := do
  let loaded ← Call.load
  match loaded with
  | .error e => pure ((), { m with error := some e })
  | .ok none => pure ((), { m with pending := none, error := none })
  | .ok (some journal) =>
    match validateLanSettings journal.previous with
    | .error e => pure ((), { m with error := some e })
    | .ok () => do
      let applied ← Call.apply journal.previous
      match applied with
      | .error e => pure ((), { m with error := some e })
      | .ok () => do
        let cleared ← Call.clear none
        match cleared with
        | .error e => pure ((), { m.bind journal.previous.ipaddr with error := some e })
        | .ok () =>
          pure ((), { m.bind journal.previous.ipaddr with pending := none, error := none })

/-- The refusal of `begin` while a change or a recovery is open. -/
def pendingError : String :=
  "a LAN change or recovery is pending; confirm it or restore connectivity first"

/-- `begin`, once the settings have been checked: the journal is written first. -/
def beginRecorded (previous proposed : LanSettings) (m : LanManager) :
    Program Call (Except String Begun × LanManager) := do
  let random ← Call.random
  match random with
  | .error e => pure (.error ("creating LAN confirmation token: " ++ e), m)
  | .ok token => do
    let journal : Journal := { previous, proposed, token }
    let saved ← Call.save journal
    match saved with
    | .error e => pure (.error ("saving LAN recovery record: " ++ e), m)
    | .ok () => do
      let now ← Call.now
      pure (.ok (.changed proposed.ipaddr token (confirmTime / 1000)), { m with
        confirmed := none
        pending := some { journal, deadline := now + confirmTime, applied := false } })

/-- `begin`. -/
def begin (proposed : LanSettings) (m : LanManager) :
    Program Call (Except String Begun × LanManager) :=
  if m.pending.isSome then pure (.error pendingError, m)
  else do
    let loaded ← Call.load
    match loaded with
    | .error e => pure (.error e, m)
    | .ok (some _) => pure (.error pendingError, m)
    | .ok none =>
      match validateLanSettings proposed with
      | .error e => pure (.error e, m)
      | .ok () => do
        let read ← Call.read
        match read with
        | .error e => pure (.error e, m)
        | .ok previous =>
          match validateLanSettings previous with
          | .error e => pure (.error e, m)
          | .ok () =>
            if previous = proposed then pure (.ok .unchanged, m)
            else if m.binding.fixed ∧ previous.ipaddr ≠ proposed.ipaddr then
              pure (.error ("LAN address changes require automatic LAN binding; remove the "
                ++ "ZTE_AGENT_BIND override first"), m)
            else beginRecorded previous proposed m

/-- `rollback_locked`. -/
def rollbackLocked (m : LanManager) : Program Call (Unit × LanManager) :=
  match m.pending with
  | none => pure ((), m)
  | some pending => do
    let applied ← Call.apply pending.journal.previous
    match applied with
    | .error e =>
      let error := "LAN restoration failed: " ++ e ++ "; recovery will be retried on agent restart"
      pure ((), { m with error := some error })
    | .ok () => do
      let cleared ← Call.clear none
      match cleared with
      | .error e =>
        let error := "LAN restored but recovery record could not be cleared: " ++ e
        pure ((), { m.bind pending.journal.previous.ipaddr with error := some error })
      | .ok () => pure ((), { m.bind pending.journal.previous.ipaddr with pending := none })

/-- `apply_pending`. -/
def applyPending (m : LanManager) : Program Call (Unit × LanManager) :=
  match m.pending with
  | none => pure ((), m)
  | some pending => do
    let applied ← Call.apply pending.journal.proposed
    match applied with
    | .ok () => pure ((), { m.bind pending.journal.proposed.ipaddr with
        pending := some { pending with applied := true } })
    | .error e => rollbackLocked { m with error := some e }

/-- `expire`: whether the change is still waiting to be confirmed. -/
def expire (now : Nat) (m : LanManager) : Program Call (Bool × LanManager) :=
  match m.pending with
  | none => pure (false, m)
  | some pending =>
    if pending.deadline ≤ now then do
      let (_, m) ← rollbackLocked { m with
        error := some "LAN change was not confirmed; restoring previous settings" }
      pure (false, m)
    else pure (true, m)

/-- `confirm`, with a change pending. -/
def confirmPending (token : String) (pending : Pending) (m : LanManager) :
    Program Call (Except String Unit × LanManager) := do
  let now ← Call.now
  if !pending.applied ∨ pending.deadline ≤ now ∨ token ≠ pending.journal.token then
    pure (.error "LAN confirmation is invalid or expired", m)
  else do
    let read ← Call.read
    match read with
    | .error e => pure (.error e, m)
    | .ok live =>
      if live ≠ pending.journal.proposed then
        pure (.error "LAN settings no longer match the proposed change", m)
      else do
        let cleared ← Call.clear (some pending.journal)
        match cleared with
        | .error e => pure (.error e, m)
        | .ok () => pure (.ok (), { m with
            confirmed := some pending.journal, pending := none, error := none })

/-- `confirm`. A confirmation may be repeated, in case its answer was lost. -/
def confirm (token : String) (m : LanManager) : Program Call (Except String Unit × LanManager) :=
  match m.pending, m.confirmed with
  | some pending, _ => confirmPending token pending m
  | none, none => pure (.error "no LAN change is pending", m)
  | none, some confirmed =>
    if token ≠ confirmed.token then pure (.error "no LAN change is pending", m)
    else do
      let read ← Call.read
      match read with
      | .error e => pure (.error e, m)
      | .ok live =>
        pure (if live = confirmed.proposed then .ok () else .error "no LAN change is pending", m)

end LanManager

/-! ### Runs -/

/-- The functions of the manager, with their arguments. `expire` is called with the time. -/
inductive Op where
  | recover
  | begin (proposed : LanSettings)
  | applyPending
  | expire (now : Nat)
  | confirm (token : String)

/-- What they return. -/
inductive Result where
  | done
  | begun (r : Except String Begun)
  | waiting (b : Bool)
  | confirmed (r : Except String Unit)

/-- The program of a function. -/
def Op.run (m : LanManager) : Op → Program Call (Result × LanManager)
  | .recover => do return (.done, (← m.recover).2)
  | .begin proposed => do
    let (r, m) ← m.begin proposed
    return (.begun r, m)
  | .applyPending => do return (.done, (← m.applyPending).2)
  | .expire now => do
    let (b, m) ← m.expire now
    return (.waiting b, m)
  | .confirm token => do
    let (r, m) ← m.confirm token
    return (.confirmed r, m)

/-- The agent's process and the router. -/
structure World where
  manager : LanManager
  router : Router

/-- What happens next: a function runs to its end, or is cut off because the process dies, and a new
one starts; the process dies between two functions; or time passes. -/
inductive Event where
  | call (op : Op) (answers : List Answer)
  | cut (op : Op) (answers : List Answer) (binding : Binding)
  | restart (binding : Binding)
  | wait (duration : Nat)

/-- The environment's answers of an event. -/
def Event.answers : Event → List Answer
  | .call _ answers | .cut _ answers _ => answers
  | _ => []

/-- One event. -/
def World.step (w : World) : Event → Option World
  | .call op answers => match (op.run w.manager).play Router.exec answers w.router with
    | some (some (_, m), r) => some ⟨m, r⟩
    | _ => none
  | .cut op answers binding => match (op.run w.manager).play Router.exec answers w.router with
    | some (none, r) => some ⟨.new binding, r⟩
    | _ => none
  | .restart binding => some ⟨.new binding, w.router⟩
  | .wait d => some ⟨w.manager, w.router.wait d⟩

/-- The worlds a router reaches whose calls are answered as `K` says. -/
inductive Reaches (K : Answer → Bool) : World → Prop where
  | start (live : LanSettings) (binding : Binding) (now : Nat) :
      Reaches K ⟨.new binding, { live, now, confirmed := live }⟩
  | step {w w' : World} (event : Event) (h : Reaches K w)
      (hK : ∀ e ∈ event.answers, K e = true) (hs : w.step event = some w') : Reaches K w'

end OpenUI.Agent.Lan
