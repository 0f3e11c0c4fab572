import OpenUI.Agent.Auth
import OpenUI.Agent.NetworkLogs
import OpenUI.Concurrency.Machine

/-!
# `OpenUI.Agent.Logging`: sessions of the CSV loggers

`agent/src/logging.rs`. Requests start, stop and read a session, and download its log. A session
that was started has a thread of its own, `run`. It writes to a new file, which takes the place of
the log once it has its header. What the rows of a sample are is up to the logger (`Rows`).

The model has one session and its two file names. A write may take a part of its bytes, or fail, and
the agent may end at any moment: then its threads and buffers are lost, and the files stay. The
clock counts milliseconds.

For each file the model remembers the samples since it was last opened for writing. No thread looks
at this, nor at the contexts and the notes.
-/

set_option autoImplicit false

namespace OpenUI.Agent.Logging

open OpenUI.Text OpenUI.Json OpenUI.Euicc OpenUI.Concurrency
open OpenUI.Agent.Auth (refusal)
open OpenUI.Agent.CsvUtils (Info)

/-! ### Sessions and samples -/

/-- `MAX_BYTES`. -/
def maxBytes : Nat := 8388608

/-- The capacity of the buffer, which is also the limit on one row. -/
def capacity : Nat := 65536

/-- `FLUSH_INTERVAL`. -/
def flushInterval : Nat := 30000

/-- `State`. -/
structure Session where
  running : Bool := false
  stop : Bool := false
  started : Option Nat := none
  duration : Nat := 0
  interval : Nat := 0
  rows : Nat := 0
  error : Option String := none

/-- What `read_radio` returns, and what `now_secs` shows after it. -/
structure Sample where
  value : Option Info
  sampledAtMs : Option Nat
  error : Option String
  nowSecs : UInt64

/-- The time in the rows of a sample. -/
def Sample.ts (s : Sample) : UInt64 :=
  (s.sampledAtMs.map fun ms => UInt64.ofNat (ms / 1000)).getD s.nowSecs

/-- `Rows`: the rows of a sample, and the value to compare the next one with. -/
abbrev Rows := UInt64 → Info → Option Info → List String × Option Info

/-- What the loop remembers of the samples before. -/
structure Memory where
  previous : Option Info := none
  lastSample : Option Nat := none

/-! ### Actions -/

/-- The critical sections, and the calls to the system. Files are known by their numbers. -/
inductive Call : Type → Type where
  /-- The section of `start`. It spawns the thread if no session is running. -/
  | tryStart (duration interval : Nat) : Call Bool
  | requestStop : Call Unit
  /-- The section of `status`, with the time it is. -/
  | readState : Call (Session × Nat)
  | openLog : Call (Option Nat)
  | length (file : Nat) : Call (Option Nat)
  | openNew : Call (Except String Nat)
  /-- How many of the bytes were written. -/
  | write (file : Nat) (bytes : Bytes) : Call (Except String Nat)
  | rename : Call (Except String Unit)
  | now : Call Nat
  | checkStop : Call Bool
  | readRadio : Call Sample
  | setError (error : Option String) : Call Unit
  | addRow : Call Unit
  | sleepUntil (instant : Nat) : Call Unit
  /-- The last section of `run`. -/
  | finish (error : Option String) : Call Unit

/-! ### The writer -/

/-- `CsvWriter`, with the buffer of its `BufWriter` and the time of its last flush. -/
structure Writer where
  buffer : Bytes := []
  bytes : Nat := 0
  flushed : Nat := 0

/-- Writes until nothing remains, or an error; what remains comes back. A write that was interrupted
is made again. Each write takes at least one byte, so `fuel` is the number of bytes. -/
def writeOut (file : Nat) (writeZero : String) : Nat → Bytes →
    Program Call (Option String × Bytes)
  | 0, rest => return (none, rest)
  | fuel + 1, rest =>
    if rest.isEmpty then return (none, rest)
    else do
      let written ← Call.write file rest
      match written with
      | .error e => return (some e, rest)
      | .ok n =>
        if n == 0 then return (some writeZero, rest)
        else writeOut file writeZero fuel (rest.drop n)

/-- `BufWriter::flush_buf`. -/
def flushBuf (file : Nat) (buffer : Bytes) : Program Call (Option String × Bytes) :=
  writeOut file "failed to write the buffered data" buffer.length buffer

/-- The part of `BufWriter::write_all` that follows the flush. -/
def writeAllFlushed (file : Nat) (data buffer : Bytes) : Program Call (Option String × Bytes) :=
  if capacity ≤ data.length then do
    let (e, _) ← writeOut file "failed to write whole buffer" data.length data
    return (e, buffer)
  else return (none, buffer ++ data)

/-- `BufWriter::write_all`. -/
def writeAll (file : Nat) (data buffer : Bytes) : Program Call (Option String × Bytes) :=
  if data.length < capacity - buffer.length then return (none, buffer ++ data)
  else if capacity - buffer.length < data.length then do
    let (e, buffer) ← flushBuf file buffer
    match e with
    | some e => return (some e, buffer)
    | none => writeAllFlushed file data buffer
  else writeAllFlushed file data buffer

/-- `CsvWriter::row`. -/
def Writer.row (file : Nat) (line : String) (w : Writer) : Program Call (Option String × Writer) :=
  let size := (utf8 line).length
  if capacity < size || maxBytes < w.bytes + (size + 1) then
    return (some "CSV size limit reached; logging stopped", w)
  else do
    let (e, buffer) ← writeAll file (utf8 line) w.buffer
    match e with
    | some e => return (some e, { w with buffer })
    | none => do
      let (e, buffer) ← writeAll file [0x0A] buffer
      match e with
      | some e => return (some e, { w with buffer })
      | none => return (none, { w with buffer, bytes := w.bytes + (size + 1) })

/-- `CsvWriter::flush`. -/
def Writer.flush (file : Nat) (w : Writer) : Program Call (Option String × Writer) := do
  let (e, buffer) ← flushBuf file w.buffer
  match e with
  | some e => return (some e, { w with buffer })
  | none => do
    let flushed ← Call.now
    return (none, { w with buffer, flushed })

/-- The rows of a sample. Each is counted when it was written. -/
def Writer.push (file : Nat) : List String → Writer → Program Call (Option String × Writer)
  | [], w => return (none, w)
  | line :: lines, w => do
    let (e, w) ← w.row file line
    match e with
    | some e => return (some e, w)
    | none => do
      Call.addRow
      push file lines w

/-! ### Threads -/

/-- The variables of the sampling loop. -/
structure Local where
  file : Nat
  writer : Writer
  start : Nat
  duration : Nat
  interval : Nat
  memory : Memory := {}

/-- What a thread does up to its next turn of a loop. -/
inductive Body where
  | start (request : Except String (Option Nat × Option Nat))
  | stop
  | status (countKey : String)
  | download
  | run (duration interval : Nat)
  /-- A turn of the sampling loop. -/
  | sample (l : Local)
  /-- A turn of the loop that waits. -/
  | pause (l : Local) (sleepStart : Nat)

section Programs

variable (header : String) (rows : Rows)

/-- `start`, of the request that serde reads. -/
def start (request : Except String (Option Nat × Option Nat)) : Program Call (Nat × Value) :=
  match request with
  | .error e => return refusal 400 e
  | .ok (durationSecs, intervalSecs) =>
    let duration := durationSecs.getD 3600
    let interval := intervalSecs.getD 3
    if duration < 1 || 86400 < duration || interval < 1 || 60 < interval then
      return refusal 400 "duration must be 1–86400 seconds and interval 1–60 seconds"
    else do
      let started ← Call.tryStart duration interval
      if started then
        return (200, .obj [("ok", .bool true), ("data", .obj
          [("duration_secs", .num duration), ("interval_secs", .num interval)])])
      else return refusal 409 "logger already running"

/-- `stop`. -/
def stop : Program Call (Nat × Value) := do
  Call.requestStop
  return (200, .obj [("ok", .bool true)])

/-- `status`. -/
def status (countKey : String) : Program Call (Nat × Value) := do
  let (state, now) ← Call.readState
  return (200, .obj [("ok", .bool true), ("data", .obj
    [("running", .bool state.running), (countKey, .num state.rows),
      ("elapsed_secs", .num ((state.started.map fun t =>
        min ((now - t) / 1000) state.duration).getD 0)),
      ("duration_secs", .num state.duration), ("interval_secs", .num state.interval),
      ("last_error", .ofOption state.error), ("max_bytes", .num maxBytes),
      ("flush_interval_secs", .num (flushInterval / 1000))])])

/-- `open_download`: the file, and how many of its bytes are sent. -/
def openDownload : Program Call (Option (Nat × Nat)) := do
  let file ← Call.openLog
  match file with
  | none => return none
  | some file => do
    let len ← Call.length file
    return len.map fun len => (file, min len maxBytes)

/-- The end of `run`. The buffer is flushed once more when the writer is dropped. -/
def finish (file : Nat) (w : Writer) (error : Option String) : Program Call (Next Body) := do
  let _ ← flushBuf file w.buffer
  Call.finish error
  return .stop

/-- `run` up to its sampling loop. -/
def run (duration interval : Nat) : Program Call (Next Body) := do
  let opened ← Call.openNew
  match opened with
  | .error e => do
    Call.finish (some e)
    return .stop
  | .ok file => do
    let flushed ← Call.now
    let (e, w) ← Writer.row file header { flushed }
    match e with
    | some e => finish file w (some e)
    | none => do
      let (e, w) ← w.flush file
      match e with
      | some e => finish file w (some e)
      | none => do
        let renamed ← Call.rename
        match renamed with
        | .error e => finish file w (some e)
        | .ok () => do
          let start ← Call.now
          return .goto (.sample { file, writer := w, start, duration, interval })

/-- The sampling loop is over. -/
def close (file : Nat) (w : Writer) (error : Option String) : Program Call (Next Body) := do
  let (flushed, w) ← w.flush file
  finish file w (error.or flushed)

/-- The part of a turn that follows the sample. -/
def settle (l : Local) : Program Call (Next Body) := do
  let now ← Call.now
  if l.writer.flushed + flushInterval ≤ now then do
    let (e, writer) ← l.writer.flush l.file
    match e with
    | some e => close l.file writer (some e)
    | none => do
      let sleepStart ← Call.now
      return .goto (.pause { l with writer } sleepStart)
  else do
    let sleepStart ← Call.now
    return .goto (.pause l sleepStart)

/-- A sample with a value that was not seen before. -/
def record (l : Local) (sample : Sample) (data : Info) : Program Call (Next Body) := do
  let (lines, previous) := rows sample.ts data l.memory.previous
  let (e, writer) ← l.writer.push l.file lines
  match e with
  | some e => close l.file writer (some e)
  | none => do
    Call.setError none
    settle { l with writer, memory := { previous, lastSample := sample.sampledAtMs } }

/-- A turn of the sampling loop. -/
def sample (l : Local) : Program Call (Next Body) := do
  let now ← Call.now
  if l.start + 1000 * l.duration ≤ now then close l.file l.writer none
  else do
    let stopped ← Call.checkStop
    if stopped then close l.file l.writer none
    else do
      let sample ← Call.readRadio
      match sample.error with
      | some error => do
        Call.setError (some ("radio sample unavailable: " ++ error))
        settle l
      | none =>
        if sample.sampledAtMs == l.memory.lastSample then settle l
        else
          match sample.value with
          | none => settle l
          | some data => record rows l sample data

/-- A turn of the loop that waits. -/
def pause (l : Local) (sleepStart : Nat) : Program Call (Next Body) := do
  let now ← Call.now
  if sleepStart + 1000 * l.interval ≤ now then return .goto (.sample l)
  else do
    let now ← Call.now
    if l.start + 1000 * l.duration ≤ now then return .goto (.sample l)
    else do
      let stopped ← Call.checkStop
      if stopped then return .goto (.sample l)
      else do
        let now ← Call.now
        Call.sleepUntil (now + 100)
        return .goto (.pause l sleepStart)

/-- The program of a thread. -/
def program : Body → Program Call (Next Body)
  | .start request => do
    let _ ← start request
    return .stop
  | .stop => do
    let _ ← stop
    return .stop
  | .status countKey => do
    let _ ← status countKey
    return .stop
  | .download => do
    let _ ← openDownload
    return .stop
  | .run duration interval => run header duration interval
  | .sample l => sample rows l
  | .pause l sleepStart => pause l sleepStart

end Programs

/-! ### The world -/

/-- How far a session's thread is with its file. -/
inductive Stage where
  | opening
  | preparing
  | logging
  deriving DecidableEq

/-- Where a session's thread stands: its file, the samples it took, the latest first, how many bytes
it has written and how many rows it has counted, its times, and whether it found no stop since its
last sample. -/
structure Runner where
  stage : Stage := .opening
  file : Nat := 0
  samples : List Sample := []
  written : Nat := 0
  counted : Nat := 0
  limit : Nat
  begun : Option Nat := none
  looked : Nat := 0
  cleared : Bool := false

/-- Where a thread stands. A request may have opened the log. -/
inductive Ctx where
  | request (opened : Option Nat)
  | runner (r : Runner)
  | ended

/-- What was done. -/
inductive Note where
  | started
  | stopped
  /-- A sample was taken after a look at the clock, in a session that began then, for so many
  seconds. -/
  | sampled (begun looked limit : Nat)
  /-- These bytes of a file were promised to a download. -/
  | served (file : Nat) (bytes : Bytes)
  /-- A session ended, with its rows counted and its file as they were. -/
  | finished (samples : List Sample) (counted : Nat) (content : Bytes) (error : Option String)
  /-- The agent ended, and was started again. -/
  | restarted

/-- The session, the files, and the notes, the latest first. `log` and `new` are the files with the
two names. -/
structure World where
  clock : Nat
  session : Session
  content : Nat → Bytes
  log : Option Nat
  new : Option Nat
  next : Nat
  samples : Nat → Option (List Sample)
  notes : List Note

/-- The environment's part in an action. -/
inductive Choice where
  | go
  | result (r : Except String Unit)
  | found (b : Bool)
  | written (r : Except String Nat)
  | sample (s : Sample)

/-- A file has this content, and these samples. -/
def World.setFile (w : World) (file : Nat) (content : Bytes) (samples : Option (List Sample)) :
    World :=
  { w with
    content := fun n => if n = file then content else w.content n
    samples := fun n => if n = file then samples else w.samples n }

/-- The file that a thread opens for writing: the one with the name, emptied, or a new one. -/
def World.created (w : World) : Nat × World :=
  let file := w.new.getD w.next
  (file, { w.setFile file [] (some []) with new := some file, next := max w.next (file + 1) })

/-- One action. -/
def exec {β : Type} : Call β → Ctx → Choice → World → Option (β × World)
  | .tryStart duration interval, _, _, w =>
    if w.session.running then some (false, w)
    else some (true, { w with
      session := { running := true, started := some w.clock, duration, interval }
      notes := .started :: w.notes })
  | .requestStop, _, _, w =>
    some ((), { w with session := { w.session with stop := true }, notes := .stopped :: w.notes })
  | .readState, _, _, w => some ((w.session, w.clock), w)
  | .openLog, _, .found b, w => some (if b then w.log else none, w)
  | .length file, _, .found b, w =>
    if b then some (some (w.content file).length,
      { w with notes := .served file ((w.content file).take maxBytes) :: w.notes })
    else some (none, w)
  | .openNew, _, .result r, w =>
    match r with
    | .error e => some (.error e, w)
    | .ok () => some (.ok w.created.1, w.created.2)
  | .write file bytes, _, .written r, w =>
    match r with
    | .error e => some (.error e, w)
    | .ok n =>
      if n ≤ bytes.length then
        some (.ok n, w.setFile file (w.content file ++ bytes.take n) (w.samples file))
      else none
  | .rename, _, .result r, w =>
    match r with
    | .error e => some (.error e, w)
    | .ok () => if w.new.isSome then some (.ok (), { w with log := w.new, new := none }) else none
  | .now, _, _, w => some (w.clock, w)
  | .checkStop, _, _, w => some (w.session.stop, w)
  | .readRadio, c, .sample s, w =>
    match c with
    | .runner r =>
      some (s, { w.setFile r.file (w.content r.file) (some (s :: r.samples)) with
        notes := .sampled (r.begun.getD 0) r.looked r.limit :: w.notes })
    | _ => some (s, w)
  | .setError error, _, _, w => some ((), { w with session := { w.session with error } })
  | .addRow, _, _, w =>
    some ((), { w with session := { w.session with rows := w.session.rows + 1 } })
  | .sleepUntil instant, _, _, w => if instant ≤ w.clock then some ((), w) else none
  | .finish error, c, _, w =>
    let session := { w.session with running := false, error := error.or w.session.error }
    match c with
    | .runner r => some ((), { w with
        session
        notes := .finished r.samples w.session.rows (w.content r.file) error :: w.notes })
    | _ => some ((), { w with session })
  | _, _, _, _ => none

/-- What an action means to a session's thread. -/
def Runner.after (r : Runner) : {β : Type} → Call β → β → Runner
  | _, .openNew, .ok file => { r with stage := .preparing, file }
  | _, .write _ _, .ok n => { r with written := r.written + n }
  | _, .rename, .ok () => { r with stage := .logging }
  | _, .now, t =>
    { r with looked := t, begun := if r.stage = .logging then r.begun.or (some t) else r.begun }
  | _, .checkStop, stopped => { r with cleared := !stopped }
  | _, .readRadio, s => { r with samples := s :: r.samples, cleared := false }
  | _, .addRow, _ => { r with counted := r.counted + 1 }
  | _, _, _ => r

/-- Where a thread stands after an action. -/
def Ctx.after (c : Ctx) : {β : Type} → Call β → β → Ctx
  | _, .openLog, file => match c with
    | .request _ => .request file
    | c => c
  | _, .finish _, _ => match c with
    | .runner _ => .ended
    | c => c
  | _, a, result => match c with
    | .runner r => .runner (r.after a result)
    | c => c

/-- What happens outside. -/
inductive Outside where
  | tick (milliseconds : Nat)
  | request (body : Body)
  | restart

/-- What a request may ask for. -/
def Body.isRequest : Body → Bool
  | .start _ | .stop | .status _ | .download => true
  | _ => false

/-- The threads of a logger. -/
def machine (header : String) (rows : Rows) : Machine Call Ctx World Body Choice Outside where
  exec := exec
  after c a r _ := c.after a r
  spawns _ a r := match a with
    | .tryStart duration interval =>
      if r then [(.run duration interval, .runner { limit := duration })] else []
    | _ => []
  body := program header rows
  occur x w := match x with
    | .tick milliseconds => some ⟨{ w with clock := w.clock + milliseconds }, false, []⟩
    | .request body => if body.isRequest then some ⟨w, false, [(body, .request none)]⟩ else none
    | .restart => some ⟨{ w with session := {}, notes := .restarted :: w.notes }, true, []⟩

/-- `signal_logger.rs`: a row for every sample. -/
def signalLogger : Machine Call Ctx World Body Choice Outside :=
  machine NetworkLogs.SignalLogger.header fun ts data previous =>
    ([NetworkLogs.SignalLogger.formatRow ts data], previous)

/-- `connection_logger.rs`: a row for every change from one sample to the next. -/
def connectionLogger : Machine Call Ctx World Body Choice Outside :=
  machine NetworkLogs.ConnectionLogger.header NetworkLogs.ConnectionLogger.rows

/-- The agent starts, and finds the files of earlier runs. -/
def start₀ (log new : Option Bytes) : State Call Ctx World Body where
  world :=
    { clock := 0
      session := {}
      content := fun file => if file = 0 then log.getD [] else new.getD []
      log := log.map fun _ => 0
      new := new.map fun _ => 1
      next := 2
      samples := fun _ => none
      notes := [] }
  threads := []

end OpenUI.Agent.Logging
