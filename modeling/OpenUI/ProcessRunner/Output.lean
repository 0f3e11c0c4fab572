import OpenUI.Concurrency.History
import OpenUI.Concurrency.Interpreter

/-!
# `OpenUI.ProcessRunner.Output`: a child process under a deadline

`output_with_grace` of `process-runner/src/lib.rs`. One loop writes a child's input, reads what it
prints on two pipes, waits for it to exit and watches the clock. At the deadline the child's process
group gets SIGTERM and some more time, and whoever fails to be done then is killed.

What the child and its own children do meanwhile is up to the environment. It says before each call
what they print, which pipes are closed, whether the child exits and how much time passes, and how
the call ends. A read never ends otherwise than the pipe allows.
-/

set_option autoImplicit false

namespace OpenUI.ProcessRunner

open OpenUI.Concurrency

/-- Bytes as a child prints them. -/
abbrev Bytes := List UInt8

/-- An error of the runner, or one that the operating system reports. -/
inductive IoError where
  | timedOut (text : String)
  | other (text : String)
  | os (text : String)
  deriving DecidableEq

/-- `KILLED_AFTER_GRACE`. -/
def killedAfterGrace : IoError := .timedOut "subprocess killed after its grace period"

/-- The two pipes that are read. -/
inductive Stream where
  | stdout
  | stderr
  deriving DecidableEq

/-- The result of a call on a pipe that does not block. -/
inductive IoResult (α : Type) where
  | ok (value : α)
  | wouldBlock
  | interrupted
  | failed (e : IoError)

/-- The calls of the runner. -/
inductive Call : Type → Type where
  | instantNow : Call Nat
  /-- `Instant::now()` at the beginning of a turn of the loop. -/
  | beginTurn : Call Nat
  | spawn : Call (Except IoError Unit)
  /-- `fcntl` with `O_NONBLOCK`; none of the pipes but the input's. -/
  | setNonblocking (stream : Option Stream) : Call (Except IoError Unit)
  | write (bytes : Bytes) : Call (IoResult Nat)
  | read (stream : Stream) (size : Nat) : Call (IoResult Bytes)
  | tryWait : Call (Except IoError (Option Int))
  | poll (stdin stdout stderr : Bool) (wait : Nat) : Call (IoResult Unit)
  /-- SIGTERM to the process group. -/
  | terminate : Call Unit
  /-- SIGKILL to the process group. -/
  | kill : Call Unit
  | killChild : Call Unit
  | sleep (millis : Nat) : Call Unit
  /-- A thread that waits for the child. -/
  | spawnWaiter : Call Unit

/-! ### Durations, in nanoseconds -/

/-- The first instant that there is not. -/
def instantEnd : Nat := 9223372036854775808 * 1000000000

/-- `Instant + Duration`, which panics beyond the last instant. -/
def addDuration (now duration : Nat) : Option Nat :=
  if now + duration < instantEnd then some (now + duration) else none

/-- `Duration::as_millis`. -/
def asMillis (duration : Nat) : Nat := duration / 1000000

/-! ### One turn -/

/-- What a command is run with. -/
structure Command where
  input : Option Bytes
  timeout : Nat
  grace : Nat
  limit : Nat

/-- `input.unwrap_or_default()`. -/
def Command.bytes (c : Command) : Bytes := c.input.getD []

/-- A pipe that is read, until its end, and what was read. -/
structure Reader where
  isOpen : Bool
  output : Bytes

/-- The variables of the loop. -/
structure Locals where
  stdin : Bool
  stdout : Reader
  stderr : Reader
  offset : Nat
  status : Option Int
  stopBy : Option Nat

/-- `Output`. -/
structure Output where
  status : Int
  stdout : Bytes
  stderr : Bytes
  deriving DecidableEq

/-- Why the loop ends without an output. -/
inductive Stop where
  | error (e : IoError)
  | panicked
  deriving DecidableEq

/-- A part of the runner that may end it. -/
abbrev Run (α : Type) := ExceptT Stop (Program Call) α

/-- One call. -/
def call {α : Type} (c : Call α) : Run α := ExceptT.lift (liftM c)

/-- One call whose error ends the loop. -/
def tryCall {α : Type} (c : Call (Except IoError α)) : Run α := do
  match ← call c with
  | .ok a => pure a
  | .error e => throw (.error e)

/-- The rounds of `drain`: it reads until the pipe has nothing more, or ends. -/
def drainRounds (limit : Nat) (stream : Stream) : Nat → Reader → Run Reader
  | 0, r => pure r
  | rounds + 1, r => do
    match ← call (.read stream 8192) with
    | .ok [] => pure { r with isOpen := false }
    | .ok (b :: bytes) =>
      if limit < r.output.length + (b :: bytes).length then
        throw (.error (.other "subprocess output limit exceeded"))
      else drainRounds limit stream rounds { r with output := r.output ++ b :: bytes }
    | .wouldBlock => pure r
    | .interrupted => drainRounds limit stream rounds r
    | .failed e => throw (.error e)

/-- `drain`. -/
def drain (limit : Nat) (stream : Stream) (r : Reader) : Run Reader :=
  if r.isOpen then drainRounds limit stream 8 r else pure r

/-- The clocks, at the beginning of a turn. -/
def checkClocks (c : Command) (deadline : Nat) (l : Locals) : Run Locals := do
  let now ← call .beginTurn
  match l.stopBy with
  | none =>
    if deadline ≤ now then
      if c.grace = 0 then throw (.error (.timedOut "subprocess deadline exceeded"))
      else do
        call .terminate
        match addDuration now c.grace with
        | none => throw .panicked
        | some limit => pure { l with stdin := false, stopBy := some limit }
    else pure l
  | some limit => if limit ≤ now then throw (.error killedAfterGrace) else pure l

/-- Some of the input is written. -/
def writeSome (c : Command) (l : Locals) : Run Locals :=
  if l.offset < c.bytes.length then do
    match ← call (.write ((c.bytes.drop l.offset).take 65536)) with
    | .ok n => pure { l with offset := l.offset + n }
    | .wouldBlock => pure l
    | .interrupted => pure l
    | .failed e => throw (.error e)
  else pure l

/-- The input, until all of it is written. -/
def feed (c : Command) (l : Locals) : Run Locals :=
  if l.stdin then do
    let l ← writeSome c l
    pure { l with stdin := decide (l.offset ≠ c.bytes.length) }
  else pure l

/-- `try_wait`, until there is a status. -/
def collectStatus (l : Locals) : Run Locals :=
  match l.status with
  | some _ => pure l
  | none => do
    let status ← tryCall .tryWait
    pure { l with status }

/-- What is returned, once everything has ended. -/
def finished (l : Locals) : Option Output :=
  match l.status with
  | some status =>
    if !l.stdin && !l.stdout.isOpen && !l.stderr.isOpen then
      some ⟨status, l.stdout.output, l.stderr.output⟩
    else none
  | none => none

/-- `poll`, for 10 milliseconds at most. -/
def pollPipes (deadline : Nat) (l : Locals) : Run Unit := do
  let now ← call .instantNow
  let wait := min (asMillis (l.stopBy.getD deadline - now)) 10
  match ← call (.poll l.stdin l.stdout.isOpen l.stderr.isOpen wait) with
  | .failed e => throw (.error e)
  | _ => pure ()

/-- The loop. Without fuel there is no result yet. -/
def loop (c : Command) (deadline : Nat) : Nat → Locals → Run (Option Output)
  | 0, _ => pure none
  | fuel + 1, l => do
    let l ← checkClocks c deadline l
    let l ← feed c l
    let stdout ← drain c.limit .stdout l.stdout
    let l := { l with stdout }
    let stderr ← drain c.limit .stderr l.stderr
    let l := { l with stderr }
    let l ← collectStatus l
    match finished l with
    | some output => pure (some output)
    | none => do
      pollPipes deadline l
      loop c deadline fuel l

/-! ### The whole call -/

/-- The variables before the first turn. -/
def Command.start (c : Command) : Locals where
  stdin := c.input.isSome
  stdout := ⟨true, []⟩
  stderr := ⟨true, []⟩
  offset := 0
  status := none
  stopBy := none

/-- The closure whose result is looked at afterwards. -/
def supervise (c : Command) (deadline fuel : Nat) : Run (Option Output) := do
  if c.input.isSome then tryCall (.setNonblocking none) else pure ()
  tryCall (.setNonblocking (some .stdout))
  tryCall (.setNonblocking (some .stderr))
  loop c deadline fuel c.start

/-- The loop after a kill. Whether it came to its end. -/
def reap (cleanup : Nat) : Nat → Program Call Bool
  | 0 => pure false
  | fuel + 1 => do
    match ← Call.tryWait with
    | .ok none => do
      let now ← Call.instantNow
      if now < cleanup then do
        Call.sleep 5
        reap cleanup fuel
      else pure true
    | _ => pure true

/-- How the call ends. -/
inductive Result where
  | ok (output : Output)
  | err (e : IoError)
  | panicked
  deriving DecidableEq

/-- What is done after an error. -/
def cleanUp (e : IoError) (fuel : Nat) : Program Call (Option Result) := do
  Call.kill
  Call.killChild
  let now ← Call.instantNow
  match addDuration now 250000000 with
  | none => pure (some .panicked)
  | some cleanup => do
    let ended ← reap cleanup fuel
    if ended then do
      match ← Call.tryWait with
      | .ok none => do
        Call.spawnWaiter
        pure (some (.err e))
      | _ => pure (some (.err e))
    else pure none

/-- `output_with_grace`. -/
def outputWithGrace (c : Command) (fuel : Nat) : Program Call (Option Result) := do
  let now ← Call.instantNow
  match addDuration now c.timeout with
  | none => pure (some .panicked)
  | some deadline => do
    let spawned ← Call.spawn
    match spawned with
    | .error e => pure (some (.err e))
    | .ok () => do
      let result ← (supervise c deadline fuel).run
      match result with
      | .ok output => pure (output.map .ok)
      | .error .panicked => pure (some .panicked)
      | .error (.error e) => cleanUp e fuel

/-! ### The environment -/

/-- A pipe: what was ever written to it, what of that was not read yet, and whether a process can
still write to it. -/
structure Pipe where
  written : Bytes
  unread : Bytes
  isOpen : Bool

/-- A pipe just made. -/
def Pipe.new : Pipe := ⟨[], [], true⟩

/-- What is noted of a run, the latest first. -/
inductive Note where
  | spawned
  | turn (t : Nat)
  | terminated (t : Nat)
  | killed
  /-- Some of the input was offered. -/
  | wrote
  | read
  | waited
  | polled
  deriving DecidableEq

/-- The child with its pipes, the clock, and the notes. -/
structure World where
  clock : Nat
  stdout : Pipe
  stderr : Pipe
  exited : Option Int
  log : List Note

/-- What happens between two calls. -/
inductive Act where
  | tick (duration : Nat)
  | print (stream : Stream) (bytes : Bytes)
  | close (stream : Stream)
  | exit (status : Int)

/-- How a call ends. A read or a write takes so many bytes, as far as there are. -/
inductive Answer where
  | done (count : Nat)
  | interrupted
  | failed (e : IoError)

/-- The environment's part in a call. -/
structure Input where
  before : List Act
  answer : Answer

/-- Bytes are written to a pipe, if a process has it open. -/
def Pipe.print (p : Pipe) (bytes : Bytes) : Pipe :=
  if p.isOpen then { p with written := p.written ++ bytes, unread := p.unread ++ bytes } else p

/-- A read: bytes, as many as the caller has room for, or the end, or nothing yet. -/
def Pipe.read (p : Pipe) (size : Nat) : Answer → IoResult Bytes × Pipe
  | .interrupted => (.interrupted, p)
  | .failed e => (.failed e, p)
  | .done count =>
    if p.unread = [] then
      if p.isOpen then (.wouldBlock, p) else (.ok [], p)
    else
      let n := min (count + 1) size
      (.ok (p.unread.take n), { p with unread := p.unread.drop n })

namespace World

/-- The world before a child is spawned. -/
def start (clock : Nat) : World := ⟨clock, .new, .new, none, []⟩

def note (w : World) (n : Note) : World := { w with log := n :: w.log }

def pipe (w : World) : Stream → Pipe
  | .stdout => w.stdout
  | .stderr => w.stderr

def setPipe (w : World) (stream : Stream) (p : Pipe) : World :=
  match stream with
  | .stdout => { w with stdout := p }
  | .stderr => { w with stderr := p }

def act (w : World) : Act → World
  | .tick duration => { w with clock := w.clock + duration }
  | .print stream bytes => w.setPipe stream ((w.pipe stream).print bytes)
  | .close stream => w.setPipe stream { w.pipe stream with isOpen := false }
  | .exit status => { w with exited := w.exited.or (some status) }

end World

/-- A call that fails or not. -/
def Answer.outcome {α : Type} (value : α) : Answer → Except IoError α
  | .done _ => .ok value
  | .interrupted => .error (.os "interrupted")
  | .failed e => .error e

/-- One call. -/
def perform : {β : Type} → Call β → Answer → World → β × World
  | _, .instantNow, _, w => (w.clock, w)
  | _, .beginTurn, _, w => (w.clock, w.note (.turn w.clock))
  | _, .spawn, a, w => match a with
    | .done _ => (.ok (), { w with stdout := .new, stderr := .new, exited := none }.note .spawned)
    | a => (a.outcome (), w)
  | _, .setNonblocking _, a, w => (a.outcome (), w)
  | _, .write bytes, a, w => (match a with
    | .done 0 => .wouldBlock
    | .done count => .ok (min count bytes.length)
    | .interrupted => .interrupted
    | .failed e => .failed e, w.note .wrote)
  | _, .read stream size, a, w =>
    (((w.pipe stream).read size a).1,
      (w.setPipe stream ((w.pipe stream).read size a).2).note .read)
  | _, .tryWait, a, w => (a.outcome w.exited, w.note .waited)
  | _, .poll _ _ _ _, a, w => (match a with
    | .done _ => .ok ()
    | .interrupted => .interrupted
    | .failed e => .failed e, w.note .polled)
  | _, .terminate, _, w => ((), w.note (.terminated w.clock))
  | _, .kill, _, w => ((), w.note .killed)
  | _, .killChild, _, w => ((), w)
  | _, .sleep _, _, w => ((), w)
  | _, .spawnWaiter, _, w => ((), w)

/-- The environment that plays its parts in this order. -/
def env (inputs : Nat → Input) : Handler Call (Nat × World) := fun call s =>
  let w := (inputs s.1).before.foldl World.act s.2
  ((perform call (inputs s.1).answer w).1, s.1 + 1, (perform call (inputs s.1).answer w).2)

/-- The call, from the beginning, and the world that it leaves. -/
def runOutput (c : Command) (fuel : Nat) (inputs : Nat → Input) (clock : Nat) :
    Option Result × World :=
  let r := (outputWithGrace c fuel).interpret (env inputs) (0, .start clock)
  (r.1, r.2.2)

/-- The deadline, from the clock at the first call. -/
def deadlineOf (c : Command) (inputs : Nat → Input) (clock : Nat) : Nat :=
  ((inputs 0).before.foldl World.act (.start clock)).clock + c.timeout

end OpenUI.ProcessRunner
