import OpenUI.Agent.Logging
import OpenUI.Concurrency.Mutex

/-!
# `OpenUI.Proofs.Agent.Logging`: what a log holds

A session's thread owes its file the header and the rows of its samples (`due`). A buffer holds back
a part of it, and any write may fail half way; but what is in the file is always the beginning of
what is due, and the thread never writes anything else.

* `Owing`: what is in the buffer, and what follows it.
* `program_keeps`: every thread keeps to its regime.
* `Tracked`, `Filed`: the file of the session under way, and the files of every other session.
* `logs_sound`: what the log and its downloads hold, and what a session counts, in every run.
-/

set_option autoImplicit false

namespace OpenUI.Agent.Logging

open OpenUI.Text OpenUI.Json OpenUI.Euicc OpenUI.Concurrency
open OpenUI.Agent.CsvUtils (Info)

/-! ### What is due -/

/-- Lines, each with its end. -/
def text (lines : List String) : Bytes := lines.flatMap fun line => utf8 line ++ [0x0A]

@[simp] theorem text_nil : text [] = [] := rfl

theorem text_cons (line : String) (lines : List String) :
    text (line :: lines) = utf8 line ++ ([0x0A] ++ text lines) := by
  simp [text]

theorem text_append (lines lines' : List String) :
    text (lines ++ lines') = text lines ++ text lines' := List.flatMap_append

section Due

variable (header : String) (rows : Rows)

/-- The rows of a sample after what is remembered, and what is remembered then. A failed sample, and
one that was seen before, has none. -/
def observe (m : Memory) (s : Sample) : List String × Memory :=
  if s.error.isSome || s.sampledAtMs == m.lastSample then ([], m)
  else
    match s.value with
    | none => ([], m)
    | some data => ((rows s.ts data m.previous).1,
        { previous := (rows s.ts data m.previous).2, lastSample := s.sampledAtMs })

/-- The rows of all samples, the latest of which stands first. -/
def recorded : List Sample → List String × Memory
  | [] => ([], {})
  | s :: earlier =>
    let before := recorded earlier
    let now := observe rows before.2 s
    (before.1 ++ now.1, now.2)

/-- What a session owes its file. -/
def due (samples : List Sample) : Bytes := text (header :: (recorded rows samples).1)

/-- The rest of what a thread owes its file. -/
def Runner.rest (r : Runner) : Bytes := (due header rows r.samples).drop r.written

end Due

variable {header : String} {rows : Rows}

/-- A sample adds its rows. -/
theorem due_cons (s : Sample) (samples : List Sample) :
    due header rows (s :: samples) = due header rows samples ++
      text (observe rows (recorded rows samples).2 s).1 := by
  unfold due
  rw [recorded, ← List.cons_append, text_append]

theorem header_begins (samples : List Sample) : text [header] <+: due header rows samples := by
  show text [header] <+: text ([header] ++ (recorded rows samples).1)
  rw [text_append]
  exact List.prefix_append _ _

/-! ### What a thread may do -/

/-- What a thread may do where it stands. It writes what is due, and no more than the limit; it
samples when it has just found that it is neither stopped nor late; and it reports a good end only
when everything is written and counted. -/
def Ctx.allows (header : String) (rows : Rows) (c : Ctx) : {β : Type} → Call β → Prop
  | _, .tryStart duration _ => (∃ opened, c = .request opened) ∧ duration ≤ 86400
  | _, .requestStop | _, .readState | _, .openLog => ∃ opened, c = .request opened
  | _, .length file => c = .request (some file)
  | _, .openNew => ∃ limit, c = .runner { limit }
  | _, .write file bytes => ∃ r, c = .runner r ∧ r.stage ≠ .opening ∧ r.file = file ∧
      bytes <+: r.rest header rows ∧ r.written + bytes.length ≤ maxBytes
  | _, .rename => ∃ r, c = .runner r ∧ r.stage = .preparing ∧ (text [header]).length ≤ r.written
  | _, .readRadio => ∃ r t, c = .runner r ∧ r.stage = .logging ∧ r.cleared = true ∧
      r.begun = some t ∧ r.looked < t + 1000 * r.limit
  | _, .addRow => ∃ r, c = .runner r ∧ r.stage = .logging ∧
      r.counted < (recorded rows r.samples).1.length
  | _, .finish error => ∃ r, c = .runner r ∧ (error = none → r.stage = .logging ∧
      r.rest header rows = [] ∧ r.counted = (recorded rows r.samples).1.length)
  | _, .now | _, .checkStop | _, .setError _ | _, .sleepUntil _ => ∃ r, c = .runner r

/-- What the system promises of a result. -/
def Promised : {β : Type} → Call β → β → Prop
  | _, .write _ bytes, result => ∀ n, result = .ok n → n ≤ bytes.length
  | _, _, _ => True

/-- Some bytes are in the buffer, and more follows them; with the buffer, so many are written. -/
structure Owing (header : String) (rows : Rows) (r : Runner) (buffer tail : Bytes) (total : Nat) :
    Prop where
  opened : r.stage ≠ .opening
  begun : r.stage = .logging → r.begun.isSome = true
  within : r.written ≤ (due header rows r.samples).length
  rest : r.rest header rows = buffer ++ tail
  sum : r.written + buffer.length = total
  few : total ≤ maxBytes

/-- A thread with these variables is at a turn of its loop. -/
structure Matches (header : String) (rows : Rows) (r : Runner) (l : Local) : Prop where
  stage : r.stage = .logging
  file : r.file = l.file
  begun : r.begun = some l.start
  limit : r.limit = l.duration
  memory : (recorded rows r.samples).2 = l.memory
  counted : r.counted = (recorded rows r.samples).1.length
  owing : Owing header rows r l.writer.buffer [] l.writer.bytes

/-- What the parts of a thread start from, and where threads end. -/
def regime (header : String) (rows : Rows) : (machine header rows).Regime where
  ok c a := c.allows header rows a
  facts _ a r := Promised a r
  pre body c := match body with
    | .run duration _ => c = .runner { limit := duration } ∧ duration ≤ 86400
    | .sample l => ∃ r, c = .runner r ∧ Matches header rows r l
    | .pause l _ => ∃ r, c = .runner r ∧ Matches header rows r l
    | _ => c = .request none
  fin c := c = .ended ∨ ∃ opened, c = .request opened

/-- The weakest precondition of a part of a thread. -/
abbrev Leads {α : Type} (header : String) (rows : Rows) (p : Program Call α)
    (Q : Ctx → α → Prop) (c : Ctx) : Prop :=
  (regime header rows).discipline.wp p Q c

/-- A part of a thread keeps to its regime up to the end of a turn. -/
abbrev Keeps (header : String) (rows : Rows) (c : Ctx) (p : Program Call (Next Body)) : Prop :=
  Leads header rows p (regime header rows).ends c

/-- Writing changes how much is written, and a look at the clock what was seen. -/
structure Like (r r' : Runner) : Prop where
  stage : r'.stage = r.stage
  file : r'.file = r.file
  samples : r'.samples = r.samples
  counted : r'.counted = r.counted
  limit : r'.limit = r.limit
  begun : r'.begun = r.begun

theorem Like.refl (r : Runner) : Like r r := ⟨rfl, rfl, rfl, rfl, rfl, rfl⟩

theorem Like.trans {r₁ r₂ r₃ : Runner} (h : Like r₁ r₂) (h' : Like r₂ r₃) : Like r₁ r₃ :=
  ⟨h'.stage.trans h.stage, h'.file.trans h.file, h'.samples.trans h.samples,
    h'.counted.trans h.counted, h'.limit.trans h.limit, h'.begun.trans h.begun⟩

/-! ### The writer -/

section Writing

variable {r : Runner} {buffer tail data : Bytes} {total : Nat}

/-- A part of the bytes was written. -/
theorem Owing.wrote (h : Owing header rows r buffer tail total) {n : Nat}
    (hn : n ≤ buffer.length) :
    Owing header rows { r with written := r.written + n } (buffer.drop n) tail total := by
  have hlength := congrArg List.length h.rest
  rw [Runner.rest, List.length_drop, List.length_append] at hlength
  refine ⟨h.opened, h.begun, ?_, ?_, ?_, h.few⟩
  · show r.written + n ≤ (due header rows r.samples).length
    have := h.within
    omega
  · show (due header rows r.samples).drop (r.written + n) = _
    have hrest : (due header rows r.samples).drop r.written = buffer ++ tail := h.rest
    rw [← List.drop_drop, hrest, List.drop_append_of_le_length hn]
  · show r.written + n + (buffer.drop n).length = total
    have := h.sum
    rw [List.length_drop]
    omega

/-- More of what is due goes into the buffer. -/
theorem Owing.append (h : Owing header rows r buffer (data ++ tail) total)
    (hfew : total + data.length ≤ maxBytes) :
    Owing header rows r (buffer ++ data) tail (total + data.length) := by
  refine ⟨h.opened, h.begun, h.within, ?_, ?_, hfew⟩
  · rw [h.rest, List.append_assoc]
  · have := h.sum
    rw [List.length_append]
    omega

/-- The bytes are written out, or an error ends it. -/
theorem leads_writeOut {file : Nat} (hfile : r.file = file) (zero : String) (fuel : Nat)
    (hfuel : buffer.length ≤ fuel) (h : Owing header rows r buffer tail total) :
    Leads header rows (writeOut file zero fuel buffer)
      (fun c out => ∃ r', c = .runner r' ∧ Like r r' ∧ Owing header rows r' out.2 tail total ∧
        (out.1 = none → out.2 = [])) (.runner r) := by
  induction fuel generalizing r buffer with
  | zero =>
    obtain rfl := List.length_eq_zero_iff.mp (Nat.le_zero.mp hfuel)
    exact ⟨r, rfl, .refl r, h, fun _ => rfl⟩
  | succ fuel ih =>
    rw [writeOut]
    cases hbuffer : buffer with
    | nil => exact ⟨r, rfl, .refl r, hbuffer ▸ h, fun _ => rfl⟩
    | cons b bs =>
      rw [← hbuffer]
      have hpos : 0 < buffer.length := by rw [hbuffer]; exact Nat.zero_lt_succ _
      rw [if_neg (by simp [hbuffer])]
      refine ⟨⟨r, rfl, h.opened, hfile, ?_, ?_⟩, fun result _ hpromised => ?_⟩
      · rw [h.rest]
        exact List.prefix_append _ _
      · rw [h.sum]
        exact h.few
      · cases result with
        | error e => exact ⟨r, rfl, .refl r, h, fun hnone => by cases hnone⟩
        | ok n =>
          have hn : n ≤ buffer.length := hpromised n rfl
          have hwrote := h.wrote hn
          -- A write that took nothing is an error of its own, so the rest gets shorter.
          by_cases hzero : n = 0
          · subst hzero
            exact ⟨r, rfl, .refl r, h, fun hnone => by cases hnone⟩
          · show Leads header rows (if (n == 0) = true then pure (some zero, buffer)
              else writeOut file zero fuel (buffer.drop n)) _ _
            rw [if_neg (by simpa using hzero)]
            have hlength : (buffer.drop n).length ≤ fuel := by
              rw [List.length_drop]
              omega
            have hlike : Like r { r with written := r.written + n } := ⟨rfl, rfl, rfl, rfl, rfl, rfl⟩
            refine (regime header rows).discipline.wp_mono (ih hfile hlength hwrote) ?_
            rintro c out ⟨r', rfl, hlike', howing, hdone⟩
            exact ⟨r', rfl, hlike.trans hlike', howing, hdone⟩

theorem leads_flushBuf {file : Nat} (hfile : r.file = file)
    (h : Owing header rows r buffer tail total) :
    Leads header rows (flushBuf file buffer)
      (fun c out => ∃ r', c = .runner r' ∧ Like r r' ∧ Owing header rows r' out.2 tail total ∧
        (out.1 = none → out.2 = [])) (.runner r) :=
  leads_writeOut hfile _ _ (Nat.le_refl _) h

/-- What `write_all` leaves, in any case and if it succeeds. -/
def Written (header : String) (rows : Rows) (r : Runner) (tail : Bytes) (total : Nat) (c : Ctx)
    (out : Option String × Bytes) : Prop :=
  ∃ r', c = .runner r' ∧ Like r r' ∧
    (∃ tail' total', Owing header rows r' out.2 tail' total') ∧
    (out.1 = none → Owing header rows r' out.2 tail total)

/-- The part behind the flush. It is reached with room in the buffer, or with nothing in it. -/
theorem leads_writeAllFlushed {file : Nat} (hfile : r.file = file)
    (h : Owing header rows r buffer (data ++ tail) total)
    (hfew : total + data.length ≤ maxBytes) (hempty : capacity ≤ data.length → buffer = []) :
    Leads header rows (writeAllFlushed file data buffer)
      (Written header rows r tail (total + data.length)) (.runner r) := by
  unfold writeAllFlushed
  by_cases hlarge : capacity ≤ data.length
  · rw [if_pos hlarge]
    -- The data itself is written out, as if it were in the buffer.
    have howing := h.append hfew
    rw [hempty hlarge, List.nil_append] at howing
    refine ((regime header rows).discipline.wp_bind _ _ _ _).mpr ?_
    refine (regime header rows).discipline.wp_mono
      (leads_writeOut hfile _ _ (Nat.le_refl _) howing) ?_
    rintro c out ⟨r', rfl, hlike, hleft, hdone⟩
    rw [hempty hlarge]
    refine ⟨r', rfl, hlike, ⟨out.2 ++ tail, r'.written, ?_⟩, fun hnone => ?_⟩
    · refine ⟨hleft.opened, hleft.begun, hleft.within, hleft.rest, rfl, ?_⟩
      exact Nat.le_trans (hleft.sum ▸ Nat.le_add_right _ _) hleft.few
    · have hleft' := hleft
      rw [hdone hnone] at hleft'
      exact hleft'
  · rw [if_neg hlarge]
    have howing := h.append hfew
    exact ⟨r, rfl, .refl r, ⟨tail, _, howing⟩, fun _ => howing⟩

theorem leads_writeAll {file : Nat} (hfile : r.file = file)
    (h : Owing header rows r buffer (data ++ tail) total)
    (hfew : total + data.length ≤ maxBytes) :
    Leads header rows (writeAll file data buffer)
      (Written header rows r tail (total + data.length)) (.runner r) := by
  unfold writeAll
  by_cases hroom : data.length < capacity - buffer.length
  · rw [if_pos hroom]
    have howing := h.append hfew
    exact ⟨r, rfl, .refl r, ⟨tail, _, howing⟩, fun _ => howing⟩
  · rw [if_neg hroom]
    by_cases hfull : capacity - buffer.length < data.length
    · rw [if_pos hfull]
      refine ((regime header rows).discipline.wp_bind _ _ _ _).mpr ?_
      refine (regime header rows).discipline.wp_mono (leads_flushBuf hfile h) ?_
      rintro c ⟨e, buffer'⟩ ⟨r', rfl, hlike, hleft, hdone⟩
      cases e with
      | some e => exact ⟨r', rfl, hlike, ⟨_, _, hleft⟩, fun hnone => by cases hnone⟩
      | none =>
        -- There was no room: the buffer was written out first.
        obtain rfl : buffer' = [] := hdone rfl
        refine (regime header rows).discipline.wp_mono
          (leads_writeAllFlushed (hlike.file.trans hfile) hleft hfew fun _ => rfl) ?_
        rintro c out ⟨r'', rfl, hlike', hany, hgood⟩
        exact ⟨r'', rfl, hlike.trans hlike', hany, hgood⟩
    · rw [if_neg hfull]
      refine leads_writeAllFlushed hfile h hfew fun hlarge => List.length_eq_zero_iff.mp ?_
      have hcapacity : 0 < capacity := Nat.zero_lt_succ _
      omega

/-- What a part of the writer leaves, in any case and if it succeeds. -/
def Advanced (header : String) (rows : Rows) (r : Runner) (tail : Bytes) (c : Ctx)
    (out : Option String × Writer) : Prop :=
  ∃ r', c = .runner r' ∧ Like r r' ∧
    (∃ tail' total', Owing header rows r' out.2.buffer tail' total') ∧
    (out.1 = none → Owing header rows r' out.2.buffer tail out.2.bytes)

/-- A row that is due is written whole, or an error ends it. -/
theorem leads_row {file : Nat} (hfile : r.file = file) {line : String} {lines : List String}
    {w : Writer} (h : Owing header rows r w.buffer (text (line :: lines)) w.bytes) :
    Leads header rows (w.row file line) (Advanced header rows r (text lines)) (.runner r) := by
  unfold Writer.row
  dsimp only
  split
  · exact ⟨r, rfl, .refl r, ⟨_, _, h⟩, fun hnone => by cases hnone⟩
  · rename_i hsize
    simp only [Bool.or_eq_true, decide_eq_true_eq, not_or, Nat.not_lt] at hsize
    rw [text_cons] at h
    refine ((regime header rows).discipline.wp_bind _ _ _ _).mpr ?_
    -- The row and its line feed fit, and are written one after the other.
    have hline : w.bytes + (utf8 line).length ≤ maxBytes := by omega
    refine (regime header rows).discipline.wp_mono (leads_writeAll hfile h hline) ?_
    rintro c ⟨e, buffer'⟩ ⟨r', rfl, hlike, hany, hgood⟩
    cases e with
    | some e => exact ⟨r', rfl, hlike, hany, fun hnone => by cases hnone⟩
    | none =>
      refine ((regime header rows).discipline.wp_bind _ _ _ _).mpr ?_
      have hend : w.bytes + (utf8 line).length + ([0x0A] : Bytes).length ≤ maxBytes := by
        rw [List.length_singleton]
        omega
      refine (regime header rows).discipline.wp_mono
        (leads_writeAll (hlike.file.trans hfile) (hgood rfl) hend) ?_
      rintro c ⟨e, buffer''⟩ ⟨r'', rfl, hlike', hany', hgood'⟩
      cases e with
      | some e =>
        exact ⟨r'', rfl, hlike.trans hlike', hany', fun hnone => by cases hnone⟩
      | none => exact ⟨r'', rfl, hlike.trans hlike', hany', hgood'⟩

/-- A flush leaves nothing in the buffer, or an error ends it. -/
theorem leads_flush {file : Nat} (hfile : r.file = file) {w : Writer}
    (h : Owing header rows r w.buffer tail total) :
    Leads header rows (w.flush file) (fun c out => ∃ r', c = .runner r' ∧ Like r r' ∧
      Owing header rows r' out.2.buffer tail total ∧ out.2.bytes = w.bytes ∧
      (out.1 = none → out.2.buffer = [])) (.runner r) := by
  unfold Writer.flush
  refine ((regime header rows).discipline.wp_bind _ _ _ _).mpr ?_
  refine (regime header rows).discipline.wp_mono (leads_flushBuf hfile h) ?_
  rintro c ⟨e, buffer'⟩ ⟨r', rfl, hlike, hleft, hdone⟩
  cases e with
  | some e => exact ⟨r', rfl, hlike, hleft, rfl, fun hnone => by cases hnone⟩
  | none =>
    refine ⟨⟨r', rfl⟩, fun t _ _ => ?_⟩
    -- The clock is looked at: a session that has begun goes on.
    have hbegun : (if r'.stage = .logging then r'.begun.or (some t) else r'.begun) = r'.begun := by
      split
      · rename_i hlogging
        obtain ⟨t₀, ht₀⟩ := Option.isSome_iff_exists.mp (hleft.begun hlogging)
        rw [ht₀]
        rfl
      · rfl
    refine ⟨_, rfl, hlike.trans ⟨rfl, rfl, rfl, rfl, rfl, hbegun⟩, ?_, rfl, fun _ => hdone rfl⟩
    refine ⟨hleft.opened, fun hlogging => ?_, hleft.within, hleft.rest, hleft.sum, hleft.few⟩
    exact (congrArg Option.isSome hbegun).trans (hleft.begun hlogging)

/-- The rows of a sample are written and counted, or an error ends it. -/
theorem leads_push {file : Nat} (hfile : r.file = file) {lines : List String} {w : Writer}
    (hstage : r.stage = .logging) (h : Owing header rows r w.buffer (text lines) w.bytes)
    (hcounted : r.counted + lines.length = (recorded rows r.samples).1.length) :
    Leads header rows (Writer.push file lines w) (fun c out => ∃ r', c = .runner r' ∧
      Like { r with counted := r'.counted } r' ∧
      (∃ tail' total', Owing header rows r' out.2.buffer tail' total') ∧
      (out.1 = none → Owing header rows r' out.2.buffer [] out.2.bytes ∧
        r'.counted = (recorded rows r'.samples).1.length)) (.runner r) := by
  induction lines generalizing r w with
  | nil => exact ⟨r, rfl, .refl r, ⟨_, _, h⟩, fun _ => ⟨h, hcounted⟩⟩
  | cons line lines ih =>
    rw [Writer.push]
    refine ((regime header rows).discipline.wp_bind _ _ _ _).mpr ?_
    refine (regime header rows).discipline.wp_mono (leads_row hfile h) ?_
    rintro c ⟨e, w'⟩ ⟨r', rfl, hlike, hany, hgood⟩
    have hfrom := hlike
    obtain ⟨stage, -, samples, counted, limit, begun⟩ := hfrom
    cases e with
    | some e =>
      exact ⟨r', rfl, ⟨stage, hlike.file, samples, rfl, limit, begun⟩, hany,
        fun hnone => by cases hnone⟩
    | none =>
      rw [List.length_cons] at hcounted
      -- A row is counted once it is written, so the count stays below the rows there are.
      have hmore : r'.counted < (recorded rows r'.samples).1.length := by
        rw [counted, samples]
        omega
      refine ⟨⟨r', rfl, stage.trans hstage, hmore⟩, fun _ _ _ => ?_⟩
      have howing := hgood rfl
      refine (regime header rows).discipline.wp_mono
        (ih (r := { r' with counted := r'.counted + 1 }) (hlike.file.trans hfile)
          (stage.trans hstage)
          ⟨howing.opened, howing.begun, howing.within, howing.rest, howing.sum, howing.few⟩ ?_) ?_
      · show r'.counted + 1 + lines.length = (recorded rows r'.samples).1.length
        rw [counted, samples]
        omega
      · rintro c out ⟨r'', rfl, hlike', hany', hgood'⟩
        refine ⟨r'', rfl, ⟨?_, ?_, ?_, rfl, ?_, ?_⟩, hany', hgood'⟩
        · exact hlike'.stage.trans stage
        · exact hlike'.file.trans hlike.file
        · exact hlike'.samples.trans samples
        · exact hlike'.limit.trans limit
        · exact hlike'.begun.trans begun

end Writing

/-! ### The threads -/

section Threads

variable {r : Runner} {tail : Bytes} {total : Nat}

/-- The writer is dropped with an error, or after a flush that left nothing. -/
theorem finish_keeps {file : Nat} (hfile : r.file = file) {w : Writer} {error : Option String}
    (h : Owing header rows r w.buffer tail total)
    (hgood : error = none → w.buffer = [] ∧ r.stage = .logging ∧ r.rest header rows = [] ∧
      r.counted = (recorded rows r.samples).1.length) :
    Keeps header rows (.runner r) (finish file w error) := by
  cases error with
  | none =>
    obtain ⟨hbuffer, hdone⟩ := hgood rfl
    unfold finish
    rw [hbuffer]
    exact ⟨⟨r, rfl, fun _ => hdone⟩, fun _ _ _ => .inl rfl⟩
  | some e =>
    refine ((regime header rows).discipline.wp_bind _ _ _ _).mpr ?_
    refine (regime header rows).discipline.wp_mono (leads_flushBuf hfile h) ?_
    rintro c out ⟨r', rfl, -⟩
    exact ⟨⟨r', rfl, fun hnone => by cases hnone⟩, fun _ _ _ => .inl rfl⟩

/-- The end of the sampling loop. -/
theorem close_keeps {file : Nat} (hfile : r.file = file) {w : Writer} {error : Option String}
    (h : Owing header rows r w.buffer tail total)
    (hgood : error = none → tail = [] ∧ r.stage = .logging ∧
      r.counted = (recorded rows r.samples).1.length) :
    Keeps header rows (.runner r) (close file w error) := by
  refine ((regime header rows).discipline.wp_bind _ _ _ _).mpr ?_
  refine (regime header rows).discipline.wp_mono (leads_flush hfile h) ?_
  rintro c ⟨flushed, w'⟩ ⟨r', rfl, hlike, hleft, -, hempty⟩
  refine finish_keeps (hlike.file.trans hfile) hleft fun hnone => ?_
  obtain ⟨herror, hflushed⟩ := Option.or_eq_none_iff.mp hnone
  obtain ⟨htail, hstage, hcounted⟩ := hgood herror
  have hbuffer : w'.buffer = [] := hempty hflushed
  refine ⟨hbuffer, hlike.stage.trans hstage, ?_, ?_⟩
  · rw [hleft.rest, hbuffer, htail]
    rfl
  · rw [hlike.counted, hlike.samples]
    exact hcounted

/-- Writing and looking at the clock leave a thread at the same turn. -/
theorem Matches.like {r' : Runner} {l : Local} (h : Matches header rows r l) (hlike : Like r r')
    {writer : Writer} (howing : Owing header rows r' writer.buffer [] writer.bytes) :
    Matches header rows r' { l with writer } where
  stage := hlike.stage.trans h.stage
  file := hlike.file.trans h.file
  begun := hlike.begun.trans h.begun
  limit := hlike.limit.trans h.limit
  memory := by
    rw [hlike.samples]
    exact h.memory
  counted := by
    rw [hlike.counted, hlike.samples]
    exact h.counted
  owing := howing

/-- A look at the clock in a session that has begun. -/
theorem Matches.look {l : Local} (h : Matches header rows r l) (t : Nat) :
    Matches header rows { r with
      looked := t
      begun := if r.stage = .logging then r.begun.or (some t) else r.begun } l := by
  have hbegun : (if r.stage = .logging then r.begun.or (some t) else r.begun) = some l.start := by
    rw [if_pos h.stage, h.begun]
    rfl
  obtain ⟨opened, begun, within, rest, sum, few⟩ := h.owing
  refine ⟨h.stage, h.file, hbegun, h.limit, h.memory, h.counted, opened, fun _ => ?_, within, rest,
    sum, few⟩
  rw [hbegun]
  rfl

/-- A look for a stop. -/
theorem Matches.checked {l : Local} (h : Matches header rows r l) (stopped : Bool) :
    Matches header rows { r with cleared := !stopped } l := by
  obtain ⟨opened, begun, within, rest, sum, few⟩ := h.owing
  exact ⟨h.stage, h.file, h.begun, h.limit, h.memory, h.counted, opened, begun, within, rest, sum,
    few⟩

/-- A thread looks at the clock and goes on. -/
theorem keeps_now {f : Nat → Program Call (Next Body)}
    (h : ∀ t, Keeps header rows (.runner { r with
      looked := t
      begun := if r.stage = .logging then r.begun.or (some t) else r.begun }) (f t)) :
    Keeps header rows (.runner r) (Call.now >>= f) := by
  refine ((regime header rows).discipline.wp_bind _ _ _ _).mpr ⟨⟨r, rfl⟩, fun t _ _ => ?_⟩
  simp only [Discipline.wp_pure']
  exact h t

theorem settle_keeps {l : Local} (h : Matches header rows r l) :
    Keeps header rows (.runner r) (settle l) := by
  refine keeps_now fun t => ?_
  have hlooked := h.look t
  by_cases hdue : l.writer.flushed + flushInterval ≤ t
  · rw [if_pos hdue]
    refine ((regime header rows).discipline.wp_bind _ _ _ _).mpr ?_
    refine (regime header rows).discipline.wp_mono (leads_flush hlooked.file hlooked.owing) ?_
    rintro c ⟨e, writer⟩ ⟨r', rfl, hlike, hleft, hbytes, -⟩
    cases e with
    | some e =>
      exact close_keeps (hlike.file.trans hlooked.file) hleft fun hnone => by cases hnone
    | none =>
      have howing : Owing header rows r' writer.buffer [] writer.bytes := hbytes ▸ hleft
      have hnext := hlooked.like hlike howing
      exact ⟨⟨r', rfl⟩, fun t' _ _ => ⟨_, rfl, hnext.look t'⟩⟩
  · rw [if_neg hdue]
    exact ⟨⟨_, rfl⟩, fun t' _ _ => ⟨_, rfl, hlooked.look t'⟩⟩

/-- A sample was taken, and its rows are due. -/
theorem Owing.sampled {l : Local} (h : Matches header rows r l) (s : Sample) :
    Owing header rows { r with samples := s :: r.samples, cleared := false } l.writer.buffer
      (text (observe rows l.memory s).1) l.writer.bytes := by
  obtain ⟨opened, begun, within, rest, sum, few⟩ := h.owing
  refine ⟨opened, begun, ?_, ?_, sum, few⟩
  · show r.written ≤ (due header rows (s :: r.samples)).length
    rw [due_cons, List.length_append]
    exact Nat.le_trans within (Nat.le_add_right _ _)
  · show (due header rows (s :: r.samples)).drop r.written = _
    have hrest : (due header rows r.samples).drop r.written = l.writer.buffer := by
      simpa [Runner.rest] using rest
    rw [due_cons, List.drop_append_of_le_length within, hrest, h.memory]

/-- A sample without rows leaves a thread at the same turn. -/
theorem Matches.skipped {l : Local} (h : Matches header rows r l) {s : Sample}
    (hnone : observe rows l.memory s = ([], l.memory)) :
    Matches header rows { r with samples := s :: r.samples, cleared := false } l := by
  have howing := Owing.sampled h s
  rw [hnone] at howing
  have hrecorded : recorded rows (s :: r.samples) = ((recorded rows r.samples).1, l.memory) := by
    rw [recorded, h.memory, hnone, List.append_nil]
  refine ⟨h.stage, h.file, h.begun, h.limit, ?_, ?_, howing⟩
  · exact congrArg Prod.snd hrecorded
  · exact h.counted.trans (congrArg (fun p => p.1.length) hrecorded).symm

theorem record_keeps {l : Local} (h : Matches header rows r l) {s : Sample} {data : Info}
    (hsome : observe rows l.memory s = ((rows s.ts data l.memory.previous).1,
      { previous := (rows s.ts data l.memory.previous).2, lastSample := s.sampledAtMs })) :
    Keeps header rows (.runner { r with samples := s :: r.samples, cleared := false })
      (record rows l s data) := by
  have hrecorded : recorded rows (s :: r.samples) =
      ((recorded rows r.samples).1 ++ (observe rows l.memory s).1, (observe rows l.memory s).2) := by
    rw [recorded, h.memory]
  have hlines : r.counted + (observe rows l.memory s).1.length =
      (recorded rows (s :: r.samples)).1.length := by
    rw [hrecorded, List.length_append, h.counted]
  have howing := Owing.sampled h s
  rw [hsome] at howing hlines
  refine ((regime header rows).discipline.wp_bind _ _ _ _).mpr ?_
  refine (regime header rows).discipline.wp_mono
    (leads_push (r := { r with samples := s :: r.samples, cleared := false }) h.file h.stage howing
      hlines) ?_
  rintro c ⟨e, writer⟩ ⟨r', rfl, hlike, ⟨tail', total', hany⟩, hgood⟩
  cases e with
  | some e => exact close_keeps (hlike.file.trans h.file) hany fun hnone => by cases hnone
  | none =>
    obtain ⟨hleft, hcounted⟩ := hgood rfl
    refine ⟨⟨r', rfl⟩, fun _ _ _ => settle_keeps (r := r') ?_⟩
    refine ⟨hlike.stage.trans h.stage, hlike.file.trans h.file, hlike.begun.trans h.begun,
      hlike.limit.trans h.limit, ?_, hcounted, hleft⟩
    show (recorded rows r'.samples).2 = _
    rw [hlike.samples]
    show (recorded rows (s :: r.samples)).2 = _
    rw [hrecorded, hsome]

theorem sample_keeps {l : Local} (h : Matches header rows r l) :
    Keeps header rows (.runner r) (sample rows l) := by
  refine ((regime header rows).discipline.wp_bind _ _ _ _).mpr ⟨⟨r, rfl⟩, fun t _ _ => ?_⟩
  have hlooked := h.look t
  -- The loop may end here in two ways: its time is over, or a stop was asked for.
  have hend : ∀ {r' : Runner}, Matches header rows r' l →
      Keeps header rows (.runner r') (close l.file l.writer none) := fun hr' =>
    close_keeps hr'.file hr'.owing fun _ => ⟨rfl, hr'.stage, hr'.counted⟩
  simp only [Discipline.wp_pure']
  split
  · exact hend hlooked
  · rename_i hearly
    refine ((regime header rows).discipline.wp_bind _ _ _ _).mpr ⟨⟨_, rfl⟩, fun stopped _ _ => ?_⟩
    have hchecked := hlooked.checked stopped
    cases stopped with
    | true => exact hend hchecked
    | false =>
      refine ((regime header rows).discipline.wp_bind _ _ _ _).mpr
        ⟨⟨_, l.start, rfl, hchecked.stage, rfl, hchecked.begun, ?_⟩, fun s _ _ => ?_⟩
      · show t < l.start + 1000 * r.limit
        rw [h.limit]
        exact Nat.lt_of_not_le hearly
      · simp only [Discipline.wp_pure']
        cases herror : s.error with
        | some error =>
          refine ⟨⟨_, rfl⟩, fun _ _ _ => settle_keeps (hchecked.skipped ?_)⟩
          rw [observe, herror]
          rfl
        | none =>
          -- A sample that was seen before has no rows.
          by_cases hseen : (s.sampledAtMs == l.memory.lastSample) = true
          · dsimp only
            rw [if_pos hseen]
            refine settle_keeps (hchecked.skipped ?_)
            rw [observe, herror, hseen]
            rfl
          · dsimp only
            rw [if_neg hseen]
            rw [Bool.not_eq_true] at hseen
            cases hvalue : s.value with
            | none =>
              refine settle_keeps (hchecked.skipped ?_)
              simp only [observe, herror, hseen, hvalue, Option.isSome_none, Bool.or_self,
                Bool.false_eq_true, if_false]
            | some data =>
              refine record_keeps hchecked ?_
              simp only [observe, herror, hseen, hvalue, Option.isSome_none, Bool.or_self,
                Bool.false_eq_true, if_false]

theorem pause_keeps {l : Local} {sleepStart : Nat} (h : Matches header rows r l) :
    Keeps header rows (.runner r) (pause l sleepStart) := by
  refine ((regime header rows).discipline.wp_bind _ _ _ _).mpr ⟨⟨r, rfl⟩, fun t _ _ => ?_⟩
  have hlooked := h.look t
  simp only [Discipline.wp_pure']
  split
  · exact ⟨_, rfl, hlooked⟩
  · refine ((regime header rows).discipline.wp_bind _ _ _ _).mpr ⟨⟨_, rfl⟩, fun t' _ _ => ?_⟩
    -- The clock is read twice: for the end of the interval, and for the end of the session.
    have hagain := hlooked.look t'
    simp only [Discipline.wp_pure']
    split
    · exact ⟨_, rfl, hagain⟩
    · refine ((regime header rows).discipline.wp_bind _ _ _ _).mpr ⟨⟨_, rfl⟩, fun stopped _ _ => ?_⟩
      have hchecked := hagain.checked stopped
      simp only [Discipline.wp_pure']
      cases stopped with
      | true => exact ⟨_, rfl, hchecked⟩
      | false =>
        refine ⟨⟨_, rfl⟩, fun t'' _ _ => ⟨⟨_, rfl⟩, fun _ _ _ => ?_⟩⟩
        exact ⟨_, rfl, hchecked.look t''⟩

/-- The header is written and flushed before the file takes the place of the log. -/
theorem run_keeps (duration interval : Nat) :
    Keeps header rows (.runner { limit := duration }) (run header duration interval) := by
  refine ((regime header rows).discipline.wp_bind _ _ _ _).mpr
    ⟨⟨duration, rfl⟩, fun result _ _ => ?_⟩
  simp only [Discipline.wp_pure']
  cases result with
  | error e => exact ⟨⟨_, rfl, fun hnone => by cases hnone⟩, fun _ _ _ => .inl rfl⟩
  | ok file =>
    refine ((regime header rows).discipline.wp_bind _ _ _ _).mpr ⟨⟨_, rfl⟩, fun t _ _ => ?_⟩
    -- The header is all that is due of a new file.
    have howing : Owing header rows { stage := .preparing, file, limit := duration, looked := t } []
        (text [header]) 0 :=
      ⟨fun h => (by cases h), fun h => (by cases h), Nat.zero_le _, rfl, rfl, Nat.zero_le _⟩
    refine ((regime header rows).discipline.wp_bind _ _ _ _).mpr ?_
    refine (regime header rows).discipline.wp_mono
      (leads_row (w := { flushed := t }) rfl howing) ?_
    rintro c ⟨e, w⟩ ⟨r₁, rfl, hlike₁, ⟨tail, total, hany⟩, hgood⟩
    have hfile₁ : r₁.file = file := hlike₁.file
    cases e with
    | some e => exact finish_keeps hfile₁ hany fun hnone => by cases hnone
    | none =>
      refine ((regime header rows).discipline.wp_bind _ _ _ _).mpr ?_
      refine (regime header rows).discipline.wp_mono (leads_flush hfile₁ (hgood rfl)) ?_
      rintro c ⟨e, w'⟩ ⟨r₂, rfl, hlike₂, hleft, hbytes, hempty⟩
      have hlike := hlike₁.trans hlike₂
      have hfile₂ : r₂.file = file := hlike.file
      cases e with
      | some e => exact finish_keeps hfile₂ hleft fun hnone => by cases hnone
      | none =>
        have hbuffer : w'.buffer = [] := hempty rfl
        have hdue : due header rows r₂.samples = text [header] := by
          rw [hlike.samples]
          rfl
        -- The flush left nothing in the buffer, so the header is in the file.
        have hwritten : (text [header]).length ≤ r₂.written := by
          have hrest := hleft.rest
          rw [hbuffer, Runner.rest, hdue] at hrest
          exact List.drop_eq_nil_iff.mp hrest
        refine ((regime header rows).discipline.wp_bind _ _ _ _).mpr
          ⟨⟨r₂, rfl, hlike.stage, hwritten⟩, fun renamed _ _ => ?_⟩
        simp only [Discipline.wp_pure']
        cases renamed with
        | error e => exact finish_keeps hfile₂ hleft fun hnone => by cases hnone
        | ok done =>
          refine ⟨⟨_, rfl⟩, fun start _ _ => ⟨_, rfl, ?_⟩⟩
          -- The session begins when the log is in its place.
          have hbegun : r₂.begun.or (some start) = some start := by
            rw [hlike.begun]
            rfl
          refine ⟨rfl, hfile₂, ?_, hlike.limit, ?_, ?_, ?_⟩
          · exact hbegun
          · show (recorded rows r₂.samples).2 = {}
            rw [hlike.samples]
            rfl
          · show r₂.counted = (recorded rows r₂.samples).1.length
            rw [hlike.counted, hlike.samples]
            rfl
          · refine ⟨fun h => (by cases h), fun _ => ?_, hleft.within, hleft.rest, ?_, ?_⟩
            · exact congrArg Option.isSome hbegun
            · exact hleft.sum.trans hbytes.symm
            · exact hbytes ▸ hleft.few

/-- Every thread keeps to its regime. -/
theorem program_keeps : (regime header rows).Bodies := by
  intro b c hc
  cases b with
  | start request =>
    obtain rfl : c = .request none := hc
    refine ((regime header rows).discipline.wp_bind _ _ _ _).mpr ?_
    cases request with
    | error e => exact .inr ⟨none, rfl⟩
    | ok limits =>
      unfold start
      dsimp only
      split
      · exact .inr ⟨none, rfl⟩
      · rename_i hlimits
        simp only [Bool.or_eq_true, decide_eq_true_eq, not_or, Nat.not_lt] at hlimits
        refine ⟨⟨⟨none, rfl⟩, hlimits.1.1.2⟩, fun started _ _ => ?_⟩
        cases started <;> exact .inr ⟨none, rfl⟩
  | stop =>
    obtain rfl : c = .request none := hc
    exact ⟨⟨none, rfl⟩, fun _ _ _ => .inr ⟨none, rfl⟩⟩
  | status countKey =>
    obtain rfl : c = .request none := hc
    exact ⟨⟨none, rfl⟩, fun _ _ _ => .inr ⟨none, rfl⟩⟩
  | download =>
    obtain rfl : c = .request none := hc
    refine ⟨⟨none, rfl⟩, fun file _ _ => ?_⟩
    cases file with
    | none => exact .inr ⟨none, rfl⟩
    | some file => exact ⟨rfl, fun _ _ _ => .inr ⟨some file, rfl⟩⟩
  | run duration interval =>
    obtain ⟨rfl, -⟩ := hc
    exact run_keeps duration interval
  | sample l =>
    obtain ⟨r, rfl, hr⟩ := hc
    exact sample_keeps hr
  | pause l sleepStart =>
    obtain ⟨r, rfl, hr⟩ := hc
    exact pause_keeps hr

end Threads

end OpenUI.Agent.Logging
