import OpenUI.Concurrency.Machine
import OpenUI.Euicc.Coding
import OpenUI.Text

/-!
# `OpenUI.Agent.AtCmd`: commands to the modem's AT ports

`agent/src/at_cmd.rs`. A request thread sends a command, or looks for a port that answers. Both hold
the lock of `AtPort`. Every command has a thread of its own that reads the port into a buffer until
it is told to stop. It is not waited for: it may still read when the next command has been sent.

A port is a queue of bytes, and a byte goes to the thread that reads it. The modem writes to the
queues from outside. For each byte the model remembers for which command the modem wrote it, and for
each command what the modem wrote for it in all. No thread looks at this.

The clock counts milliseconds. A thread that sleeps goes on at the end of its time or later.
-/

set_option autoImplicit false

namespace OpenUI.Agent.AtCmd

open OpenUI.Text OpenUI.Euicc OpenUI.Concurrency

/-! ### Ports and answers -/

/-- `PORTS`. -/
def ports : List String :=
  ["/dev/at_mdm0", "/dev/at_mdm1", "/dev/at_usb0", "/dev/smd7", "/dev/smd11"]

/-- `PROBE_BACKOFF`. -/
def probeBackoff : Nat := 60000

/-- `PortState`. -/
inductive PortState where
  | unknown
  | found (port : String)
  /-- Nothing answered; no sweep again before this instant. -/
  | notFound (instant : Nat)

/-- A byte in a port, with the command for which the modem wrote it, if that was for one. -/
structure Written where
  byte : UInt8
  source : Option Nat

/-- The end of an answer, as the loop of `raw_send` recognises it. -/
def isAnswered (text : String) : Bool := contains text "OK" || contains text "ERROR"

/-- A final result line, without its end: `OK`, or `ERROR`, which may come with its reason. -/
def isFinalResult (line : Bytes) : Bool :=
  line == utf8 "OK" || line == utf8 "ERROR" ||
    (utf8 "+CME ERROR:").isPrefixOf line || (utf8 "+CMS ERROR:").isPrefixOf line

/-- What there is up to the end of the first final result line, after the beginning of a line. -/
def throughFinalFrom (begun : Bytes) : Bytes → Option Bytes
  | [] => none
  | b :: rest =>
    if b = 0x0A then
      if isFinalResult (begun.filter (· ≠ 0x0D)) then some [b]
      else (throughFinalFrom [] rest).map (b :: ·)
    else (throughFinalFrom (begun ++ [b]) rest).map (b :: ·)

/-- What there is up to the end of the first final result line. -/
def throughFinal (bytes : Bytes) : Option Bytes := throughFinalFrom [] bytes

/-! ### Actions -/

/-- What `poll` says. -/
inductive Polled where
  | readable
  /-- The time is over, or something else than input happened. -/
  | nothing
  | failed

/-- The actions of the threads. A command is known by its number. -/
inductive Act : Type → Type where
  /-- `lock.safe_lock()`, and the end of its guard. -/
  | lock : Act Unit
  | unlock : Act Unit
  | readState : Act PortState
  | writeState (state : PortState) : Act Unit
  /-- `Instant::now`. -/
  | now : Act Nat
  | sleepUntil (instant : Nat) : Act Unit
  /-- `Path::exists`. -/
  | exists (port : String) : Act Bool
  | openRead (port : String) : Act (Except String Unit)
  | openWrite (port : String) : Act (Except String Unit)
  /-- A new buffer and a new flag, and `thread::spawn`. -/
  | spawn (port : String) : Act Nat
  | write (id : Nat) (text : String) : Act (Except String Unit)
  /-- What is in the buffer. -/
  | peek (id : Nat) : Act String
  /-- `stop.store(true)`. -/
  | stop (id : Nat) : Act Unit
  /-- `buffer.lock().clone()`, after the loop. -/
  | collect (id : Nat) : Act String
  /-- `stop_clone.load()`. -/
  | stopped (id : Nat) : Act Bool
  /-- `poll`, up to an instant. -/
  | poll (id : Nat) (instant : Nat) : Act Polled
  /-- `rd.read`. -/
  | read (id : Nat) : Act (Option Bytes)
  /-- `buf.push_str`. -/
  | append (id : Nat) (text : String) : Act Unit

/-- `thread::sleep`. -/
def sleep (milliseconds : Nat) : Program Act Unit := do
  let instant ← Act.now
  Act.sleepUntil (instant + milliseconds)

/-! ### Threads -/

/-- Who looks for a port. -/
inductive Caller where
  /-- `detect_serialized`. -/
  | probe
  | send (command : String) (timeoutSecs : Nat)

/-- What `raw_send` is called for. -/
inductive Purpose where
  /-- The command of `send`. -/
  | reply
  /-- A port is tried; others remain. -/
  | probe (port : String) (rest : List String) (caller : Caller)

/-- What a thread does up to its next turn of a loop. -/
inductive Body where
  | request (caller : Caller)
  /-- The loop of `raw_send`. -/
  | await (id deadline : Nat) (purpose : Purpose)
  /-- The thread that reads. -/
  | reader (id : Nat)

/-- `raw_send`, up to its loop. -/
def rawSend (port command : String) (timeoutSecs : Nat) (purpose : Purpose)
    (failed : String → Program Act (Next Body)) : Program Act (Next Body) := do
  let rd ← Act.openRead port
  match rd with
  | .error e => failed ("open read " ++ port ++ ": " ++ e)
  | .ok () => do
    let wr ← Act.openWrite port
    match wr with
    | .error e => failed ("open write " ++ port ++ ": " ++ e)
    | .ok () => do
      let id ← Act.spawn port
      sleep 50
      let written ← Act.write id (command ++ "\r\n")
      match written with
      | .error e => do
        Act.stop id
        failed ("write: " ++ e)
      | .ok () => do
        let instant ← Act.now
        return .goto (.await id (instant + 1000 * max timeoutSecs 1) purpose)

/-- The guard of the lock is dropped. The answer of a probe is the port, that of `send` the result of
`raw_send`, or its error. -/
def finish : Program Act (Next Body) := do
  Act.unlock
  return .stop

/-- `send` and `detect_serialized` after `detect`. -/
def detected (caller : Caller) (port : Option String) : Program Act (Next Body) :=
  match caller, port with
  | .probe, _ => finish
  | .send _ _, none => finish
  | .send command timeoutSecs, some port => rawSend port command timeoutSecs .reply fun _ => finish

/-- The loop of `detect`. -/
def sweep (caller : Caller) : List String → Program Act (Next Body)
  | [] => do
    let instant ← Act.now
    Act.writeState (.notFound (instant + probeBackoff))
    detected caller none
  | port :: rest => do
    let there ← Act.exists port
    if there then rawSend port "AT" 2 (.probe port rest caller) fun _ => sweep caller rest
    else sweep caller rest

/-- `detect`, once its lock is held. -/
def detect (caller : Caller) : Program Act (Next Body) := do
  let state ← Act.readState
  match state with
  | .found port => detected caller (some port)
  | .unknown => sweep caller ports
  | .notFound instant => do
    let now ← Act.now
    if now < instant then detected caller none else sweep caller ports

/-- After `raw_send`. -/
def answered (response : String) : Purpose → Program Act (Next Body)
  | .reply => finish
  | .probe port rest caller =>
    if contains response "OK" then do
      Act.writeState (.found port)
      detected caller (some port)
    else sweep caller rest

/-- `raw_send` after its loop. The guard stops the reader once more. -/
def conclude (id : Nat) (purpose : Purpose) : Program Act (Next Body) := do
  Act.stop id
  sleep 50
  let response ← Act.collect id
  Act.stop id
  answered response purpose

/-- One turn of the loop of `raw_send`. -/
def await (id deadline : Nat) (purpose : Purpose) : Program Act (Next Body) := do
  let now ← Act.now
  if deadline ≤ now then conclude id purpose
  else do
    let buf ← Act.peek id
    if isAnswered buf then conclude id purpose
    else do
      sleep 20
      return .goto (.await id deadline purpose)

/-- One turn of the thread that reads. -/
def reader (id : Nat) : Program Act (Next Body) := do
  let stopped ← Act.stopped id
  if stopped then return .stop
  else do
    let instant ← Act.now
    let n ← Act.poll id (instant + 50)
    match n with
    | .failed => return .stop
    | .nothing => return .goto (.reader id)
    | .readable => do
      let tmp ← Act.read id
      match tmp with
      | none => return .goto (.reader id)
      | some bytes => do
        Act.append id (fromUtf8Lossy bytes)
        return .goto (.reader id)

/-- The program of a thread. -/
def program : Body → Program Act (Next Body)
  | .request caller => do
    Act.lock
    detect caller
  | .await id deadline purpose => await id deadline purpose
  | .reader id => reader id

/-! ### The world -/

/-- A command that was sent: its port, the flag and the buffer it shares with its reader, whether
anything was written to the port, what the modem wrote for it, and what its own reader has read. -/
structure Sending where
  port : String
  stop : Bool
  buffer : String
  written : Bool
  emitted : Bytes
  taken : Bytes

/-- What `raw_send` returned, and whether it ran into its timeout. -/
structure Reply where
  id : Nat
  text : String
  timedOut : Bool

/-- What a run notes of the ports. -/
inductive Note where
  | opened (port : String) (clock : Nat)
  | settled (port : String) (clock : Nat)
  /-- A sweep ended at this instant, and nothing had answered. -/
  | gaveUp (instant : Nat)
  deriving DecidableEq

/-- The ports, the threads' shared memory, and the notes, the latest first. -/
structure World where
  clock : Nat
  locked : Bool
  state : PortState
  /-- The number of the next command. -/
  next : Nat
  sends : Nat → Sending
  queue : String → List Written
  /-- The command whose answer is awaited. -/
  current : Option Nat
  replies : List Reply
  log : List Note

/-- A command is replaced. -/
def World.setSend (w : World) (id : Nat) (f : Sending → Sending) : World :=
  { w with sends := fun n => if n = id then f (w.sends n) else w.sends n }

/-- The queue of a port is replaced. -/
def World.setQueue (w : World) (port : String) (bytes : List Written) : World :=
  { w with queue := fun p => if p = port then bytes else w.queue p }

/-- What the thread that holds the lock has learnt of the ports. -/
inductive View where
  | blank
  | wait (instant : Nat)
  /-- It sweeps, and last looked at the clock at this instant. -/
  | sweep (instant : Nat)
  | settled (port : String)

/-- How far the command of a thread is. -/
inductive Watch where
  | open
  /-- The loop has seen the end of the answer. -/
  | matched
  /-- So it has, and the reader was told to stop. -/
  | closing
  deriving DecidableEq

/-- Where a thread stands. -/
inductive Ctx where
  | idle
  | holding (view : View)
  | sending (id : Nat) (view : View) (watch : Watch)
  /-- A reader, and what it has read and not yet put into the buffer. -/
  | reader (id : Nat) (pending : Bytes)

/-- The environment's part in an action. -/
inductive Choice where
  | go
  | there (b : Bool)
  | result (r : Except String Unit)
  | polled (p : Polled)
  /-- So many bytes, or none (the end of the file or an error). -/
  | bytes (n : Option Nat)

/-- The bytes that a read of `n` bytes takes. -/
def World.front (w : World) (id n : Nat) : List Written := (w.queue (w.sends id).port).take n

/-- The command goes on to be awaited only if the loop has seen the end of its answer. -/
def Ctx.gaveUp : Ctx → Bool
  | .sending _ _ .open => true
  | _ => false

/-- The loop of the thread's command has seen the end of the answer. -/
def Ctx.matched : Ctx → Bool
  | .sending _ _ .closing => true
  | _ => false

/-- One action. -/
def exec {β : Type} : Act β → Ctx → Choice → World → Option (β × World)
  | .lock, _, _, w => if w.locked then none else some ((), { w with locked := true })
  | .unlock, _, _, w => some ((), { w with locked := false })
  | .readState, _, _, w => some (w.state, w)
  | .writeState state, _, _, w =>
    some ((), { w with
      state
      log := match state with
        | .found port => .settled port w.clock :: w.log
        | .notFound instant => .gaveUp (instant - probeBackoff) :: w.log
        | .unknown => w.log })
  | .now, _, _, w => some (w.clock, w)
  | .sleepUntil instant, _, _, w => if instant ≤ w.clock then some ((), w) else none
  | .exists _, _, .there b, w => some (b, w)
  | .openRead port, _, .result r, w => some (r, { w with log := .opened port w.clock :: w.log })
  | .openWrite _, _, .result r, w => some (r, w)
  | .spawn port, _, _, w =>
    some (w.next, { w.setSend w.next fun _ => ⟨port, false, "", false, [], []⟩ with
      next := w.next + 1
      current := some w.next })
  | .write id _, _, .result r, w => some (r, w.setSend id fun s => { s with written := true })
  | .peek id, _, _, w => some ((w.sends id).buffer, w)
  | .stop id, c, _, w =>
    some ((), { w.setSend id fun s => { s with stop := true } with
      current := if c.gaveUp then none else w.current })
  | .collect id, c, _, w =>
    some ((w.sends id).buffer, { w with
      current := none
      replies := ⟨id, (w.sends id).buffer, !c.matched⟩ :: w.replies })
  | .stopped id, _, _, w => some ((w.sends id).stop, w)
  | .poll id _, _, .polled p, w =>
    match p with
    | .readable => if w.queue (w.sends id).port = [] then none else some (.readable, w)
    | p => some (p, w)
  | .read id, _, .bytes n, w =>
    match n with
    | none => some (none, w)
    | some n =>
      -- A port without input blocks.
      if 0 < n ∧ n ≤ 4096 ∧ n ≤ (w.queue (w.sends id).port).length then
        let bytes := (w.front id n).map Written.byte
        some (some bytes,
          (w.setSend id fun s => { s with taken := s.taken ++ bytes }).setQueue (w.sends id).port
            ((w.queue (w.sends id).port).drop n))
      else none
  | .append id text, _, _, w =>
    some ((), w.setSend id fun s => { s with buffer := s.buffer ++ text })
  | _, _, _, _ => none

/-- What the state of the port means to a thread. -/
def PortState.view : PortState → View
  | .unknown => .sweep 0
  | .found port => .settled port
  | .notFound instant => .wait instant

/-- What a look at the clock means to a thread. -/
def View.look (now : Nat) : View → View
  | .wait instant => if now < instant then .blank else .sweep now
  | .sweep _ => .sweep now
  | view => view

/-- Where a thread stands after an action, at an instant. -/
def Ctx.after (c : Ctx) (clock : Nat) : {β : Type} → Act β → β → Ctx
  | _, .lock, _ => .holding .blank
  | _, .unlock, _ => .idle
  | _, .readState, state => match c with
    | .holding _ => .holding state.view
    | c => c
  | _, .writeState state, _ => match c with
    | .holding _ => match state with
      | .found port => .holding (.settled port)
      | _ => .holding .blank
    | c => c
  | _, .openRead _, _ => match c with
    | .holding view => .holding (view.look clock)
    | c => c
  | _, .now, now => match c with
    | .holding view => .holding (view.look now)
    | .sending id view watch => .sending id (view.look now) watch
    | c => c
  | _, .spawn _, id => match c with
    | .holding view => .sending id view .open
    | c => c
  | _, .peek _, text => match c with
    | .sending id view _ => .sending id view (if isAnswered text then .matched else .open)
    | c => c
  | _, .stop _, _ => match c with
    | .sending _ view .open => .holding view
    | .sending id view _ => .sending id view .closing
    | c => c
  | _, .collect _, _ => match c with
    | .sending _ view _ => .holding view
    | c => c
  | _, .read _, bytes => match c with
    | .reader id _ => .reader id (bytes.getD [])
    | c => c
  | _, .append _ _, _ => match c with
    | .reader id _ => .reader id []
    | c => c
  | _, _, _ => c

/-- What happens outside. -/
inductive Outside where
  | tick (milliseconds : Nat)
  | request (caller : Caller)
  /-- The modem answers a command, at any time after it was written. -/
  | emit (id : Nat) (chunk : Bytes)
  /-- The modem writes something else. -/
  | unsolicited (port : String) (chunk : Bytes)

/-- The threads. A request has a thread of its own, and so has every reader. -/
def machine : Machine Act Ctx World Body Choice Outside where
  exec := exec
  after c a r w := c.after w.clock a r
  spawns _ a id := match a with
    | .spawn _ => [(.reader id, .reader id [])]
    | _ => []
  body := program
  occur x w := match x with
    | .tick milliseconds => some ⟨{ w with clock := w.clock + milliseconds }, false, []⟩
    | .request caller => some ⟨w, false, [(.request caller, .idle)]⟩
    | .emit id chunk =>
      if id < w.next ∧ (w.sends id).written = true then
        let port := (w.sends id).port
        some ⟨(w.setSend id fun s => { s with emitted := s.emitted ++ chunk }).setQueue port
          (w.queue port ++ chunk.map fun b => ⟨b, some id⟩), false, []⟩
      else none
    | .unsolicited port chunk =>
      some ⟨w.setQueue port (w.queue port ++ chunk.map fun b => ⟨b, none⟩), false, []⟩

/-- Before the first request. -/
def start : State Act Ctx World Body where
  world := ⟨0, false, .unknown, 0, fun _ => ⟨"", true, "", false, [], []⟩, fun _ => [], none, [], []⟩
  threads := []

end OpenUI.Agent.AtCmd
