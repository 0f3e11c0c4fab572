import OpenUI.Agent.CsvUtils
import OpenUI.Euicc.Coding
import OpenUI.Text

/-!
# `OpenUI.Agent.DiagLog`: the agent's diagnostics log

`agent/src/diag_log.rs`: lines are appended to a file on flash, and when it would grow beyond a
maximum it becomes the rotated copy and a new one is begun. The size is kept in a counter beside
the file.

`Disk` holds the two files and what the open file is by now; `Env` is what the environment does
during a write: the clocks, and which calls fail.
-/

set_option autoImplicit false

namespace OpenUI.Agent.DiagLog

open OpenUI.Text OpenUI.Euicc OpenUI.Agent.CsvUtils

/-- `MAX_BYTES`. -/
def maxBytes : Nat := 256 * 1024

/-! ### The disk -/

/-- What the open file is: the log, its rotated copy, or a file without a name. -/
inductive Handle where
  | log
  | rotated
  | unlinked
  deriving DecidableEq

structure Disk where
  log : Option Bytes
  rotated : Option Bytes
  file : Handle

namespace Disk

/-- `fs::rename` of the log. The copy before is gone, and an open file keeps what it is. -/
def rename (d : Disk) : Disk where
  log := none
  rotated := d.log
  file := match d.file with
    | .log => .rotated
    | .rotated => .unlinked
    | .unlinked => .unlinked

/-- `open_append`. -/
def openAppend (d : Disk) : Disk := { d with log := some (d.log.getD []), file := .log }

/-- Bytes that are appended to the open file. -/
def append (bytes : Bytes) (d : Disk) : Disk :=
  match d.file with
  | .log => { d with log := d.log.map (· ++ bytes) }
  | .rotated => { d with rotated := d.rotated.map (· ++ bytes) }
  | .unlinked => d

end Disk

/-! ### The log -/

structure Log where
  written : Nat
  max : Nat
  previous : Option String := none
  repeats : Nat := 0

/-- What the environment does during a write. `fault` is the number of bytes after which `write_all`
fails, which are fewer than it was given. -/
structure Env where
  now : UInt64
  uptime : Nat
  renames : Bool := true
  opens : Bool := true
  fault : Option Nat := none

/-- The process and the disk. -/
structure World where
  log : Log
  disk : Disk

/-- `Log::open`, which reads the size of the log. -/
def openLog (max : Nat) (d : Disk) : World where
  log := { written := (d.openAppend.log.getD []).length, max }
  disk := d.openAppend

/-- The bytes of a line. -/
def entryOf (text : String) (e : Env) : Bytes :=
  utf8 (deviceDatetime e.now ++ " up=" ++ toString e.uptime ++ "s " ++ text ++ "\n")

/-- The log is there and can be renamed. -/
def Env.moves (e : Env) (d : Disk) : Bool := e.renames && d.log.isSome

/-- `rotate`. -/
def rotate (e : Env) (w : World) : World :=
  let disk := if e.moves w.disk then w.disk.rename else w.disk
  if e.opens then { log := { w.log with written := 0 }, disk := disk.openAppend }
  else { w with disk }

/-- `write_all`, and the counter. -/
def writeAll (entry : Bytes) (e : Env) (w : World) : World :=
  match e.fault with
  | none =>
    { log := { w.log with written := w.log.written + entry.length }, disk := w.disk.append entry }
  | some n => { w with disk := w.disk.append (entry.dropLast.take n) }

/-- The entry does not fit any more, as far as the counter tells. -/
def Full (text : String) (e : Env) (w : World) : Prop :=
  w.log.max < w.log.written + (entryOf text e).length

instance (text : String) (e : Env) (w : World) : Decidable (Full text e w) :=
  inferInstanceAs (Decidable (_ < _))

/-- `write`. -/
def write (text : String) (e : Env) (w : World) : World :=
  writeAll (entryOf text e) e (if Full text e w then rotate e w else w)

/-! ### Lines -/

/-- What is left of a line of the output. -/
def drainText (line : Bytes) : String :=
  String.ofList (((fromUtf8Lossy line).toList.reverse.dropWhile isWhitespace).reverse)

/-- `line`: the texts that it writes, and the log with its last text. Consecutive identical lines
are counted, not written. -/
def line (text : String) (log : Log) : List String × Log :=
  if text = "" then ([], log)
  else if log.previous = some text then ([], { log with repeats := log.repeats + 1 })
  else
    let note := "[log] previous message repeated " ++ toString log.repeats ++ " times"
    ((if 0 < log.repeats then [note] else []) ++ [text],
      { log with previous := some text, repeats := 0 })

/-- From a world, some lines of output lead to another, in which `texts` are still to be written of
the last one. `K` limits what the environment does at a write. -/
inductive Reaches (K : String → Env → World → Prop) (first : World) : World → List String → Prop where
  | start : Reaches K first first []
  /-- The next line of the output comes. -/
  | line {w : World} (bytes : Bytes) (h : Reaches K first w []) :
      Reaches K first { w with log := (line (drainText bytes) w.log).2 }
        (DiagLog.line (drainText bytes) w.log).1
  /-- The next text is written. -/
  | write {w : World} {text : String} {texts : List String} (e : Env)
      (h : Reaches K first w (text :: texts)) (hK : K text e w) :
      Reaches K first (write text e w) texts

end OpenUI.Agent.DiagLog
