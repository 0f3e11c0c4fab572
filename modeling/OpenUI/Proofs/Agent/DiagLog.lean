import OpenUI.Agent.DiagLog

/-!
# `OpenUI.Proofs.Agent.DiagLog`: the cap of the diagnostics log

The counter says how large the file is only as long as every rotation works and every write is all
or nothing. `Inv` is what holds then, `Inv.write` that a write keeps it, and
`capped_of_reaches` the cap over a whole run. `cap_broken` is a rename that fails: the counter
starts again at zero on a file that is full.
-/

set_option autoImplicit false

namespace OpenUI.Agent.DiagLog

open OpenUI.Text OpenUI.Euicc

/-- Neither file is longer than the maximum. -/
def Capped (max : Nat) (d : Disk) : Prop :=
  (∀ bytes, d.log = some bytes → bytes.length ≤ max) ∧
    ∀ bytes, d.rotated = some bytes → bytes.length ≤ max

/-- A write that does what it should: a rotation that is needed works, the entry is no longer than
a whole file, and either all of it is written or nothing. -/
structure Steady (text : String) (e : Env) (w : World) : Prop where
  rotates : Full text e w → e.renames = true ∧ e.opens = true
  whole : ∀ n, e.fault = some n → n = 0
  fits : e.fault = none → (entryOf text e).length ≤ w.log.max

/-- The open file is the log, the counter is its length, and both files are within the maximum. -/
structure Inv (w : World) : Prop where
  file : w.disk.file = .log
  counter : ∃ bytes, w.disk.log = some bytes ∧ bytes.length = w.log.written
  capped : Capped w.log.max w.disk

/-- A log that is opened on files within the maximum. -/
theorem inv_openLog {max : Nat} {d : Disk} (h : Capped max d) : Inv (openLog max d) where
  file := rfl
  counter := ⟨d.log.getD [], rfl, rfl⟩
  capped := by
    refine ⟨fun bytes hbytes => ?_, h.2⟩
    obtain rfl : d.log.getD [] = bytes := Option.some.inj hbytes
    cases hlog : d.log with
    | none => exact Nat.zero_le _
    | some bytes => exact h.1 bytes hlog

namespace Inv

variable {w : World}

/-- A line is counted or noted in the process only. -/
theorem line (h : Inv w) (text : String) :
    Inv { w with log := (DiagLog.line text w.log).2 } := by
  have hsame : (DiagLog.line text w.log).2.written = w.log.written ∧
      (DiagLog.line text w.log).2.max = w.log.max := by
    unfold DiagLog.line
    split_ifs <;> exact ⟨rfl, rfl⟩
  exact ⟨h.file, by simpa only [hsame.1] using h.counter, by simpa only [hsame.2] using h.capped⟩

/-- A rotation that works leaves an empty log, and the log as the copy. -/
theorem rotate (h : Inv w) {e : Env} (hrenames : e.renames = true) (hopens : e.opens = true) :
    Inv (DiagLog.rotate e w) ∧ (DiagLog.rotate e w).log.written = 0 ∧
      (DiagLog.rotate e w).log.max = w.log.max := by
  obtain ⟨bytes, hlog, -⟩ := h.counter
  have hmoves : e.moves w.disk = true := by
    rw [Env.moves, hrenames, hlog]
    rfl
  have heq : DiagLog.rotate e w =
      { log := { w.log with written := 0 }, disk := w.disk.rename.openAppend } := by
    rw [DiagLog.rotate, if_pos hopens, if_pos hmoves]
  rw [heq]
  refine ⟨⟨rfl, ⟨[], rfl, rfl⟩, ?_, ?_⟩, rfl, rfl⟩
  · intro bytes hbytes
    obtain rfl : [] = bytes := Option.some.inj hbytes
    exact Nat.zero_le _
  · intro bytes hbytes
    exact h.capped.1 bytes hbytes

/-- Bytes that fit are appended to the log. -/
theorem append (h : Inv w) {bytes : Bytes} (hfits : w.log.written + bytes.length ≤ w.log.max) :
    Inv { log := { w.log with written := w.log.written + bytes.length }
          disk := w.disk.append bytes } := by
  obtain ⟨old, hlog, hcount⟩ := h.counter
  have happend : w.disk.append bytes = { w.disk with log := some (old ++ bytes) } := by
    rw [Disk.append, h.file, hlog, Option.map_some]
    simp only [h.file]
  rw [happend]
  refine ⟨h.file, ⟨old ++ bytes, rfl, ?_⟩, ?_, h.capped.2⟩
  · rw [List.length_append, hcount]
  · intro new hnew
    obtain rfl : old ++ bytes = new := Option.some.inj hnew
    rw [List.length_append, hcount]
    exact hfits

/-- Nothing is appended. -/
theorem append_nil (h : Inv w) : Inv { w with disk := w.disk.append [] } := by
  have happend := @Inv.append w h [] (by
    obtain ⟨old, hlog, hcount⟩ := h.counter
    rw [← hcount]
    exact h.capped.1 old hlog)
  exact happend

/-- A write, wherever there is room for it. -/
theorem writeAll (h : Inv w) {entry : Bytes} {e : Env} (hwhole : ∀ n, e.fault = some n → n = 0)
    (hfits : e.fault = none → w.log.written + entry.length ≤ w.log.max) :
    Inv (DiagLog.writeAll entry e w) := by
  unfold DiagLog.writeAll
  split
  · rename_i hfault
    exact h.append (hfits hfault)
  · rename_i n hfault
    obtain rfl := hwhole n hfault
    rw [List.take_zero]
    exact h.append_nil

/-- A write that does what it should. -/
theorem write (h : Inv w) {text : String} {e : Env} (hsteady : Steady text e w) :
    Inv (DiagLog.write text e w) := by
  unfold DiagLog.write
  split_ifs with hfull
  · obtain ⟨hrenames, hopens⟩ := hsteady.rotates hfull
    obtain ⟨hinv, hzero, hmax⟩ := h.rotate hrenames hopens
    refine hinv.writeAll hsteady.whole fun hfault => ?_
    rw [hzero, hmax, Nat.zero_add]
    exact hsteady.fits hfault
  · exact h.writeAll hsteady.whole fun _ => Nat.not_lt.mp hfull

end Inv

/-- The maximum does not change. -/
theorem max_write (text : String) (e : Env) (w : World) :
    (write text e w).log.max = w.log.max := by
  unfold write writeAll rotate
  split <;> split_ifs <;> rfl

theorem inv_of_reaches {first w : World} {texts : List String} (h : Inv first)
    (hrun : Reaches Steady first w texts) : Inv w ∧ w.log.max = first.log.max := by
  induction hrun with
  | start => exact ⟨h, rfl⟩
  | line bytes _ ih =>
    refine ⟨ih.1.line _, Eq.trans ?_ ih.2⟩
    unfold line
    split_ifs <;> rfl
  | write e _ hK ih =>
    exact ⟨ih.1.write hK, (max_write _ _ _).trans ih.2⟩

/-- **The cap of the log**: whatever is written, line after line, on files that are within the
maximum, neither of them is longer in any state that is reached, as long as every write does what it
should. -/
theorem capped_of_reaches (max : Nat) (log rotated : Option Bytes)
    (hfirst : Capped max { log, rotated, file := .unlinked }) (w : World) (texts : List String)
    (hrun : Reaches Steady (openLog max { log, rotated, file := .unlinked }) w texts) :
    Capped max w.disk := by
  obtain ⟨hinv, hmax⟩ := inv_of_reaches (inv_openLog hfirst) hrun
  have hcapped := hinv.capped
  rw [hmax] at hcapped
  exact hcapped

/-! ### Two runs -/

/-- A clock that has just been started. -/
def boot : Env := { now := 0, uptime := 0 }

/-- The log has room for a line. -/
theorem capped_of_reaches_sample : ∃ w : World,
    w.disk.log = some (entryOf "up" boot) ∧ Capped 64 w.disk := by
  have hfirst : Capped 64 { log := none, rotated := none, file := .unlinked } := by
    constructor
    · intro bytes hbytes
      cases hbytes
    · intro bytes hbytes
      cases hbytes
  have htext : drainText (utf8 "up") = "up" := by decide +kernel
  have hlength : (entryOf "up" boot).length = 29 := by decide +kernel
  let first := openLog 64 { log := none, rotated := none, file := .unlinked }
  have hline : Reaches Steady first _ (line (drainText (utf8 "up")) first.log).1 :=
    .line (utf8 "up") .start
  rw [htext] at hline
  have hsteady : Steady "up" boot { first with log := (line "up" first.log).2 } :=
    { rotates := fun _ => ⟨rfl, rfl⟩
      whole := fun n hn => by cases hn
      fits := fun _ => by
        show (entryOf "up" boot).length ≤ 64
        rw [hlength]
        decide }
  have hwrite := Reaches.write boot hline hsteady
  refine ⟨_, ?_, capped_of_reaches 64 none none hfirst _ _ hwrite⟩
  have hroom : ¬Full "up" boot { first with log := (line "up" first.log).2 } := by
    show ¬64 < 0 + (entryOf "up" boot).length
    rw [hlength]
    decide
  rw [write, if_neg hroom]
  rfl

/-- The log is full, and cannot be renamed. -/
def stuck : Env := { boot with renames := false }

/-- A line for a full log that cannot be renamed is written all the same. -/
theorem cap_broken : ¬∀ max log rotated, Capped max { log, rotated, file := .unlinked } →
    ∀ w texts, Reaches (fun _ _ _ => True) (openLog max { log, rotated, file := .unlinked }) w texts →
      Capped max w.disk := by
  intro hall
  let full : Bytes := List.replicate maxBytes 0x2E
  let first := openLog maxBytes { log := some full, rotated := none, file := .unlinked }
  have hsize : full.length = maxBytes := List.length_replicate
  have hfirst : Capped maxBytes { log := some full, rotated := none, file := .unlinked } := by
    constructor
    · intro bytes hbytes
      obtain rfl := Option.some.inj hbytes
      exact Nat.le_of_eq hsize
    · intro bytes hbytes
      cases hbytes
  have htext : drainText (utf8 "up") = "up" := by decide +kernel
  have hlength : (entryOf "up" stuck).length = 29 := by decide +kernel
  have hline : Reaches (fun _ _ _ => True) first _ (line (drainText (utf8 "up")) first.log).1 :=
    .line (utf8 "up") .start
  rw [htext] at hline
  have hwrite := Reaches.write stuck hline trivial
  have hcapped := hall maxBytes (some full) none hfirst _ _ hwrite
  have hfull : Full "up" stuck { first with log := (line "up" first.log).2 } := by
    show maxBytes < full.length + (entryOf "up" stuck).length
    omega
  -- The rename fails, the same file is opened again, and the counter says that it is empty.
  have hlog : (write "up" stuck { first with log := (line "up" first.log).2 }).disk.log =
      some (full ++ entryOf "up" stuck) := by
    rw [write, if_pos hfull]
    rfl
  have hle := hcapped.1 _ hlog
  rw [List.length_append, hsize, hlength] at hle
  omega

end OpenUI.Agent.DiagLog
