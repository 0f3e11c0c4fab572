import OpenUI.ProcessRunner.Output

/-!
# `OpenUI.Proofs.ProcessRunner.Output`: what a bounded child returns

`Supervised` is the invariant at every call of the loop: what was read of a pipe and what is still
in it are what was written to it, and every note is `Sound`. Each part of a turn keeps it, whatever
the environment does before each call.

* `outputWithGrace_sound`: what is returned, after which signals, and how long the loop goes on.
* `turn_after_grace`: the grace period begins with the turn that sees the deadline, not with the
  deadline itself.
-/

set_option autoImplicit false

namespace OpenUI.ProcessRunner

open OpenUI.Concurrency OpenUI.Concurrency.Program

/-! ### What a run notes -/

section Notes

variable (c : Command) (deadline : Nat)

/-- When the loop is to end: at the deadline, without a grace period, or when the time is over that
the turn with the SIGTERM gave. -/
def stopTime : List Note → Option Nat
  | [] => if c.grace = 0 then some deadline else none
  | .terminated _ :: .turn t :: _ => some (t + c.grace)
  | _ :: earlier => stopTime earlier

/-- A turn began when the loop was to end. -/
def overdue : List Note → Bool
  | [] => false
  | .turn t :: earlier => (stopTime c deadline earlier).any (fun limit => decide (limit ≤ t)) ||
      overdue earlier
  | _ :: earlier => overdue earlier

/-- What only a turn does. -/
def Note.busy : Note → Bool
  | .turn _ | .terminated _ | .wrote | .read | .polled => true
  | .spawned | .killed | .waited => false

/-- SIGTERM is sent once, with a grace period only, in the first turn that begins at the deadline or
later. After it no input is written. After a turn that began when the loop was to end, nothing more
is done of a turn. -/
structure Note.Sound (n : Note) (earlier : List Note) : Prop where
  terminated : ∀ t, n = .terminated t → c.grace ≠ 0 ∧ deadline ≤ t ∧
    (∀ t', .terminated t' ∉ earlier) ∧ ∃ t₀ before, earlier = .turn t₀ :: before ∧ deadline ≤ t₀ ∧
      ∀ t', .turn t' ∈ before → t' < deadline
  wrote : n = .wrote → ∀ t, .terminated t ∉ earlier
  timely : n.busy = true → overdue c deadline earlier = false

/-- The notes, at any call of a turn. -/
structure Kept (stdin : Bool) (stopBy : Option Nat) (log : List Note) : Prop where
  sound : Each (Note.Sound c deadline) log
  timely : overdue c deadline log = false
  stops : stopTime c deadline log = stopBy.or (if c.grace = 0 then some deadline else none)
  early : stopBy = none → ∀ t, .terminated t ∉ log
  closed : stopBy ≠ none → stdin = false
  waiting : stopBy = none → ∀ t, .turn t ∈ log → t < deadline

/-- A note of a turn that is neither its beginning nor SIGTERM. -/
def Note.plain : Note → Bool
  | .turn _ | .terminated _ => false
  | _ => true

variable {c deadline} {stdin : Bool} {stopBy : Option Nat} {log : List Note}

theorem stopTime_plain {n : Note} (h : n.plain = true) :
    stopTime c deadline (n :: log) = stopTime c deadline log := by
  cases n with
  | turn t | terminated t => cases h
  | _ => rfl

theorem overdue_plain {n : Note} (h : n.plain = true) :
    overdue c deadline (n :: log) = overdue c deadline log := by
  cases n with
  | turn t => cases h
  | _ => rfl

theorem stopTime_turn (t : Nat) : stopTime c deadline (.turn t :: log) = stopTime c deadline log :=
  rfl

/-- A note of a turn that goes on. Input is offered only before SIGTERM. -/
theorem Kept.plain {n : Note} (h : Kept c deadline stdin stopBy log) (hn : n.plain = true)
    (hwrote : n = .wrote → stdin = true) : Kept c deadline stdin stopBy (n :: log) where
  sound := by
    refine h.sound.cons ⟨?_, ?_, fun _ => h.timely⟩
    · rintro t rfl
      cases hn
    · intro hw t
      have hnone : stopBy = none := by
        by_contra hne
        cases (hwrote hw).symm.trans (h.closed hne)
      exact h.early hnone t
  timely := by
    rw [overdue_plain hn]
    exact h.timely
  stops := by
    rw [stopTime_plain hn]
    exact h.stops
  early hnone t ht := by
    rcases List.mem_cons.mp ht with rfl | ht
    · cases hn
    · exact h.early hnone t ht
  closed := h.closed
  waiting hnone t ht := by
    rcases List.mem_cons.mp ht with rfl | ht
    · cases hn
    · exact h.waiting hnone t ht

/-- The input is closed. -/
theorem Kept.close (h : Kept c deadline stdin stopBy log) {stdin' : Bool}
    (hstdin : stdin = false → stdin' = false) : Kept c deadline stdin' stopBy log where
  sound := h.sound
  timely := h.timely
  stops := h.stops
  early := h.early
  closed hne := hstdin (h.closed hne)
  waiting := h.waiting

/-- A turn begins. -/
theorem Kept.turn_sound (h : Kept c deadline stdin stopBy log) (t : Nat) :
    Each (Note.Sound c deadline) (.turn t :: log) := by
  refine h.sound.cons ⟨?_, ?_, fun _ => h.timely⟩
  · intro t' ht'
    cases ht'
  · intro ht'
    cases ht'

/-- And goes on, as the time is not over. -/
theorem Kept.turn (h : Kept c deadline stdin stopBy log) {t : Nat}
    (hdeadline : stopBy = none → t < deadline) (hlimit : ∀ limit, stopBy = some limit → t < limit) :
    Kept c deadline stdin stopBy (.turn t :: log) where
  sound := h.turn_sound t
  timely := by
    rw [overdue, h.timely, Bool.or_false, h.stops]
    cases stopBy with
    | none =>
      rw [Option.none_or]
      have ht := hdeadline rfl
      split
      · simpa using ht
      · rfl
    | some limit =>
      have ht := hlimit limit rfl
      simpa using ht
  stops := by
    rw [stopTime_turn]
    exact h.stops
  early hnone t' ht' := by
    rcases List.mem_cons.mp ht' with heq | ht'
    · cases heq
    · exact h.early hnone t' ht'
  closed := h.closed
  waiting hnone t' ht' := by
    rcases List.mem_cons.mp ht' with heq | ht'
    · cases heq
      exact hdeadline hnone
    · exact h.waiting hnone t' ht'

/-- A turn that sees the deadline sends SIGTERM, if there is a grace period. -/
theorem Kept.terminate (h : Kept c deadline stdin none log) {t t' : Nat} (ht : deadline ≤ t)
    (htt' : t ≤ t') (hgrace : c.grace ≠ 0) :
    Kept c deadline false (some (t + c.grace)) (.terminated t' :: .turn t :: log) where
  sound := by
    have htimely : overdue c deadline (.turn t :: log) = false := by
      rw [overdue, h.timely, h.stops, Option.none_or, if_neg hgrace]
      rfl
    refine (h.turn_sound t).cons ⟨?_, ?_, fun _ => htimely⟩
    · intro t₁ ht₁
      cases ht₁
      refine ⟨hgrace, Nat.le_trans ht htt', fun t₂ ht₂ => ?_, t, log, rfl, ht, h.waiting rfl⟩
      rcases List.mem_cons.mp ht₂ with heq | ht₂
      · cases heq
      · exact h.early rfl t₂ ht₂
    · intro heq
      cases heq
  timely := by
    show (overdue c deadline (.turn t :: log)) = false
    rw [overdue, h.timely, h.stops, Option.none_or, if_neg hgrace]
    rfl
  stops := rfl
  early hnone := by cases hnone
  closed _ := rfl
  waiting hnone := by cases hnone

end Notes

/-! ### What was read of a pipe -/

/-- What was read and what is unread were written, and the end was seen only at the end. -/
structure Follows (limit : Nat) (r : Reader) (p : Pipe) : Prop where
  read : p.written = r.output ++ p.unread
  ended : r.isOpen = false → p.isOpen = false ∧ p.unread = []
  few : r.output.length ≤ limit

section Pipes

variable {limit : Nat} {r : Reader} {p : Pipe}

theorem Follows.print (h : Follows limit r p) (bytes : Bytes) :
    Follows limit r (p.print bytes) := by
  unfold Pipe.print
  split
  · rename_i hopen
    refine ⟨?_, fun hend => ?_, h.few⟩
    · show p.written ++ bytes = r.output ++ (p.unread ++ bytes)
      rw [h.read, List.append_assoc]
    · cases (h.ended hend).1.symm.trans hopen
  · exact h

theorem Follows.closed (h : Follows limit r p) : Follows limit r { p with isOpen := false } where
  read := h.read
  ended hend := ⟨rfl, (h.ended hend).2⟩
  few := h.few

/-- A read that finds the end, or nothing. -/
theorem read_cases (p : Pipe) {size : Nat} (hsize : 0 < size) (a : Answer) :
    (∃ b bytes rest, p.read size a = (.ok (b :: bytes), { p with unread := rest }) ∧
      p.unread = b :: bytes ++ rest) ∨
    (p.read size a = (.ok [], p) ∧ p.isOpen = false ∧ p.unread = []) ∨
    ((∀ bytes, (p.read size a).1 ≠ .ok bytes) ∧ (p.read size a).2 = p) := by
  cases a with
  | interrupted | failed e =>
    refine .inr (.inr ⟨fun bytes h => ?_, rfl⟩)
    cases h
  | done count =>
    unfold Pipe.read
    cases hunread : p.unread with
    | nil =>
      cases hopen : p.isOpen with
      | true => exact .inr (.inr ⟨by simp, by simp⟩)
      | false => exact .inr (.inl ⟨by simp, rfl, rfl⟩)
    | cons b unread =>
      obtain ⟨n, hn⟩ : ∃ n, min (count + 1) size = n + 1 := ⟨min (count + 1) size - 1, by omega⟩
      refine .inl ⟨b, unread.take n, unread.drop n, ?_, ?_⟩
      · simp [hn]
      · rw [List.cons_append, List.take_append_drop]

end Pipes

/-! ### The invariant -/

/-- The variables of the loop say how far the pipes were read, and whether the child exited. -/
structure Tracked (limit : Nat) (l : Locals) (w : World) : Prop where
  stdout : Follows limit l.stdout w.stdout
  stderr : Follows limit l.stderr w.stderr
  status : ∀ status, l.status = some status → w.exited = some status

/-- The variables of the loop and the world, at any call. -/
structure Supervised (c : Command) (deadline : Nat) (l : Locals) (w : World) : Prop where
  tracked : Tracked c.limit l w
  kept : Kept c deadline l.stdin l.stopBy w.log

section Calls

variable {c : Command} {deadline : Nat} {l : Locals} {w : World} {inputs : Nat → Input} {n : Nat}

/-- Whatever happens between two calls keeps it. -/
theorem Tracked.act {limit : Nat} (h : Tracked limit l w) (a : Act) : Tracked limit l (w.act a) := by
  cases a with
  | tick duration => exact ⟨h.stdout, h.stderr, h.status⟩
  | print stream bytes =>
    cases stream with
    | stdout => exact ⟨h.stdout.print bytes, h.stderr, h.status⟩
    | stderr => exact ⟨h.stdout, h.stderr.print bytes, h.status⟩
  | close stream =>
    cases stream with
    | stdout => exact ⟨h.stdout.closed, h.stderr, h.status⟩
    | stderr => exact ⟨h.stdout, h.stderr.closed, h.status⟩
  | exit status =>
    refine ⟨h.stdout, h.stderr, fun s hs => ?_⟩
    show w.exited.or (some status) = some s
    rw [h.status s hs, Option.some_or]

/-- The world when the call at `n` is made. -/
def reached (inputs : Nat → Input) (n : Nat) (w : World) : World :=
  (inputs n).before.foldl World.act w

theorem clock_act (w : World) (a : Act) : w.clock ≤ (w.act a).clock := by
  cases a with
  | tick duration => exact Nat.le_add_right _ _
  | print stream _ | close stream => cases stream <;> exact Nat.le_refl _
  | exit status => exact Nat.le_refl _

/-- The clock does not go back. -/
theorem clock_reached (inputs : Nat → Input) (n : Nat) (w : World) :
    w.clock ≤ (reached inputs n w).clock := by
  unfold reached
  induction (inputs n).before generalizing w with
  | nil => exact Nat.le_refl _
  | cons a acts ih => exact Nat.le_trans (clock_act w a) (ih (w.act a))

/-- Nothing but the runner's calls is noted. -/
theorem log_reached (inputs : Nat → Input) (n : Nat) (w : World) :
    (reached inputs n w).log = w.log := by
  unfold reached
  induction (inputs n).before generalizing w with
  | nil => rfl
  | cons a acts ih =>
    refine (ih (w.act a)).trans ?_
    cases a with
    | tick _ | exit _ => rfl
    | print stream _ | close stream => cases stream <;> rfl

theorem Tracked.reached {limit : Nat} (h : Tracked limit l w) (inputs : Nat → Input) (n : Nat) :
    Tracked limit l (reached inputs n w) := by
  unfold ProcessRunner.reached
  induction (inputs n).before generalizing w with
  | nil => exact h
  | cons a acts ih => exact ih (h.act a)

theorem Supervised.reached (h : Supervised c deadline l w) (inputs : Nat → Input) (n : Nat) :
    Supervised c deadline l (reached inputs n w) where
  tracked := h.tracked.reached inputs n
  kept := by
    rw [log_reached]
    exact h.kept

/-- A part of the runner, from the call at `n` on. -/
abbrev Ends {α : Type} (inputs : Nat → Input) (p : Run α) (n : Nat) (w : World)
    (Q : α → World → Prop) (F : Stop → World → Prop) : Prop :=
  Outcome (env inputs) p (n, w) (fun a s => Q a s.2) (fun e s => F e s.2)

/-- Where the loop ends without an output, the notes are still sound. -/
def Failed (c : Command) (deadline : Nat) (_ : Stop) (w : World) : Prop :=
  Each (Note.Sound c deadline) w.log

/-- A sequence, one part at a time. -/
theorem Ends.andThen {α β : Type} {p : Run β} {f : β → Run α} {R : β → World → Prop}
    {Q : α → World → Prop} {F : Stop → World → Prop} (hp : Ends inputs p n w R F)
    (hf : ∀ b n' w', R b w' → Ends inputs (f b) n' w' Q F) : Ends inputs (p >>= f) n w Q F :=
  Outcome.bind (Outcome.mono hp (fun b s hb => hf b s.1 s.2 hb) fun _ _ h => h)

/-- A call, and what comes after it. -/
theorem Ends.call {α β : Type} {a : Call β} {f : β → Run α} {Q : α → World → Prop}
    {F : Stop → World → Prop}
    (h : Ends inputs (f (perform a (inputs n).answer (ProcessRunner.reached inputs n w)).1) (n + 1)
      (perform a (inputs n).answer (ProcessRunner.reached inputs n w)).2 Q F) :
    Ends inputs (ProcessRunner.call a >>= f) n w Q F := Outcome.bind (Outcome.lift h)

/-- A call whose error ends the loop. -/
theorem Ends.tryCall {α : Type} {a : Call (Except IoError α)} {Q : α → World → Prop}
    (h : ∀ r, perform a (inputs n).answer (ProcessRunner.reached inputs n w) = r →
      Each (Note.Sound c deadline) r.2.log ∧ ∀ v, r.1 = .ok v → Q v r.2) :
    Ends inputs (ProcessRunner.tryCall a) n w Q (Failed c deadline) := by
  unfold ProcessRunner.tryCall
  refine Ends.call ?_
  obtain ⟨hsound, hok⟩ := h _ rfl
  cases hr : (perform a (inputs n).answer (ProcessRunner.reached inputs n w)).1 with
  | error e => exact Outcome.throw hsound
  | ok v => exact Outcome.pure (hok v hr)

/-! ### The parts of a turn -/

theorem checkClocks_ends (h : Supervised c deadline l w) :
    Ends inputs (checkClocks c deadline l) n w (Supervised c deadline) (Failed c deadline) := by
  unfold checkClocks
  refine Ends.call ?_
  have hw := h.reached inputs n
  generalize reached inputs n w = w₁ at hw
  show Ends inputs _ _ (w₁.note (.turn w₁.clock)) _ _
  have htracked : Tracked c.limit l (w₁.note (.turn w₁.clock)) :=
    ⟨hw.tracked.stdout, hw.tracked.stderr, hw.tracked.status⟩
  cases hstop : l.stopBy with
  | some limit =>
    dsimp only
    split
    · exact Outcome.throw (hw.kept.turn_sound _)
    · rename_i hearly
      refine Outcome.pure ⟨htracked, hw.kept.turn (fun hnone => ?_) fun limit' hlimit' => ?_⟩
      · cases hstop.symm.trans hnone
      · cases hstop.symm.trans hlimit'
        exact Nat.lt_of_not_le hearly
  | none =>
    dsimp only
    split
    · rename_i hlate
      split
      · exact Outcome.throw (hw.kept.turn_sound _)
      · rename_i hgrace
        refine Ends.call ?_
        -- The clock may have gone on since the turn began.
        have hlog := log_reached inputs (n + 1) (w₁.note (.turn w₁.clock))
        have hclock := clock_reached inputs (n + 1) (w₁.note (.turn w₁.clock))
        have htracked₂ := htracked.reached inputs (n + 1)
        generalize reached inputs (n + 1) (w₁.note (.turn w₁.clock)) = w₂ at *
        have hnone := hw.kept
        rw [hstop] at hnone
        have hkept := hnone.terminate hlate hclock hgrace
        have hsignalled : Kept c deadline false (some (w₁.clock + c.grace))
            (w₂.note (.terminated w₂.clock)).log := by
          show Kept _ _ _ _ (.terminated w₂.clock :: w₂.log)
          rw [hlog]
          exact hkept
        have hturn : (perform Call.beginTurn (inputs n).answer w₁).1 = w₁.clock := rfl
        rw [hturn]
        show Ends inputs _ _ (w₂.note (.terminated w₂.clock)) _ _
        cases hadd : addDuration w₁.clock c.grace with
        | none => exact Outcome.throw hsignalled.sound
        | some limit =>
          obtain rfl : w₁.clock + c.grace = limit := by
            unfold addDuration at hadd
            split at hadd
            · exact Option.some.inj hadd
            · cases hadd
          refine Outcome.pure ⟨⟨htracked₂.stdout, htracked₂.stderr, htracked₂.status⟩, hsignalled⟩
    · rename_i hearly
      refine Outcome.pure ⟨htracked, hw.kept.turn (fun _ => Nat.lt_of_not_le hearly) ?_⟩
      intro limit' hlimit'
      cases hstop.symm.trans hlimit'

/-- Input is offered. -/
theorem writeSome_ends (h : Supervised c deadline l w) (hstdin : l.stdin = true) :
    Ends inputs (writeSome c l) n w
      (fun l' w' => Supervised c deadline l' w' ∧ l'.stdin = true) (Failed c deadline) := by
  unfold writeSome
  split
  · refine Ends.call ?_
    have hw := h.reached inputs n
    generalize reached inputs n w = w₁ at hw
    have hkept : Kept c deadline l.stdin l.stopBy (w₁.note .wrote).log :=
      hw.kept.plain rfl fun _ => hstdin
    generalize hr : perform _ _ w₁ = r
    obtain ⟨result, w₂⟩ := r
    obtain rfl : w₁.note .wrote = w₂ := congrArg Prod.snd hr
    have htracked : Tracked c.limit l (w₁.note .wrote) :=
      ⟨hw.tracked.stdout, hw.tracked.stderr, hw.tracked.status⟩
    cases result with
    | ok count =>
      refine Outcome.pure ⟨⟨?_, hkept⟩, hstdin⟩
      exact ⟨htracked.stdout, htracked.stderr, htracked.status⟩
    | wouldBlock | interrupted => exact Outcome.pure ⟨⟨htracked, hkept⟩, hstdin⟩
    | failed e => exact Outcome.throw hkept.sound
  · exact Outcome.pure ⟨h, hstdin⟩

theorem feed_ends (h : Supervised c deadline l w) :
    Ends inputs (feed c l) n w (Supervised c deadline) (Failed c deadline) := by
  unfold feed
  split
  · rename_i hstdin
    refine Ends.andThen (writeSome_ends h hstdin) fun l' n' w' hl' => ?_
    obtain ⟨hl', hstdin'⟩ := hl'
    refine Outcome.pure ⟨?_, hl'.kept.close fun hclosed => ?_⟩
    · exact ⟨hl'.tracked.stdout, hl'.tracked.stderr, hl'.tracked.status⟩
    · cases hstdin'.symm.trans hclosed
  · exact Outcome.pure h

/-- The loop's reader of one pipe. -/
def Locals.setReader (l : Locals) (stream : Stream) (r : Reader) : Locals :=
  match stream with
  | .stdout => { l with stdout := r }
  | .stderr => { l with stderr := r }

/-- What the loop knows of one pipe. -/
theorem Tracked.follows {limit : Nat} {stream : Stream} {r : Reader}
    (h : Tracked limit (l.setReader stream r) w) : Follows limit r (w.pipe stream) := by
  cases stream with
  | stdout => exact h.stdout
  | stderr => exact h.stderr

/-- Something was read of one pipe. -/
theorem Supervised.read {stream : Stream} {r r' : Reader} {p : Pipe}
    (h : Supervised c deadline (l.setReader stream r) w) (hp : Follows c.limit r' p) :
    Supervised c deadline (l.setReader stream r') ((w.setPipe stream p).note .read) := by
  have hread : (Note.read = .wrote → (l.setReader stream r).stdin = true) := fun heq => by cases heq
  have hkept := h.kept.plain (n := .read) rfl hread
  cases stream with
  | stdout => exact ⟨⟨hp, h.tracked.stderr, h.tracked.status⟩, hkept⟩
  | stderr => exact ⟨⟨h.tracked.stdout, hp, h.tracked.status⟩, hkept⟩

theorem log_read (w : World) (stream : Stream) (p : Pipe) :
    ((w.setPipe stream p).note .read).log = .read :: w.log := by
  cases stream with
  | stdout => rfl
  | stderr => rfl

theorem perform_read (stream : Stream) (size : Nat) (a : Answer) (w : World) :
    perform (.read stream size) a w = (((w.pipe stream).read size a).1,
      (w.setPipe stream ((w.pipe stream).read size a).2).note .read) := rfl

theorem drainRounds_ends (stream : Stream) (rounds : Nat) {r : Reader}
    (h : Supervised c deadline (l.setReader stream r) w) :
    Ends inputs (drainRounds c.limit stream rounds r) n w
      (fun r' w' => Supervised c deadline (l.setReader stream r') w') (Failed c deadline) := by
  induction rounds generalizing r n w with
  | zero => exact Outcome.pure h
  | succ rounds ih =>
    unfold drainRounds
    refine Ends.call ?_
    have hw := h.reached inputs n
    generalize reached inputs n w = w₁ at hw
    have hfollows := hw.tracked.follows
    obtain ⟨b, bytes, rest, hr, hunread⟩ | ⟨hr, hopen, hunread⟩ | ⟨hno, hsame⟩ :=
      read_cases (w₁.pipe stream) (Nat.succ_pos 8191) (inputs n).answer
    · rw [perform_read, hr]
      show Ends inputs (if c.limit < r.output.length + (b :: bytes).length then _ else _) _ _ _ _
      split
      · refine Outcome.throw ?_
        show Each _ ((w₁.setPipe stream { w₁.pipe stream with unread := rest }).note .read).log
        rw [log_read]
        exact (hw.kept.plain rfl fun heq => by cases heq).sound
      · rename_i hlimit
        refine ih (hw.read ⟨?_, fun hend => ?_, ?_⟩)
        · show (w₁.pipe stream).written = r.output ++ b :: bytes ++ rest
          rw [hfollows.read, hunread, List.append_assoc]
        · cases hunread.symm.trans (hfollows.ended hend).2
        · show (r.output ++ b :: bytes).length ≤ c.limit
          rw [List.length_append]
          exact Nat.le_of_not_lt hlimit
    · rw [perform_read, hr]
      refine Outcome.pure (hw.read ⟨hfollows.read, fun _ => ⟨hopen, hunread⟩, hfollows.few⟩)
    · rw [perform_read, hsame]
      have hkept := hw.read hfollows
      cases hresult : ((w₁.pipe stream).read 8192 (inputs n).answer).1 with
      | ok bytes => exact absurd hresult (hno bytes)
      | wouldBlock => exact Outcome.pure hkept
      | interrupted => exact ih hkept
      | failed e => exact Outcome.throw hkept.kept.sound

theorem drain_ends (stream : Stream) {r : Reader}
    (h : Supervised c deadline (l.setReader stream r) w) :
    Ends inputs (drain c.limit stream r) n w
      (fun r' w' => Supervised c deadline (l.setReader stream r') w') (Failed c deadline) := by
  unfold drain
  split
  · exact drainRounds_ends stream 8 h
  · exact Outcome.pure h

theorem collectStatus_ends (h : Supervised c deadline l w) :
    Ends inputs (collectStatus l) n w (Supervised c deadline) (Failed c deadline) := by
  unfold collectStatus
  cases hstatus : l.status with
  | some status => exact Outcome.pure h
  | none =>
    have hw := h.reached inputs n
    have hkept := hw.kept.plain (n := .waited) rfl fun heq => by cases heq
    refine Ends.andThen (R := fun status w' => Supervised c deadline { l with status } w')
      (Ends.tryCall ?_) fun status n' w' hw' => Outcome.pure hw'
    rintro r rfl
    refine ⟨hkept.sound, fun status hok => ⟨⟨hw.tracked.stdout, hw.tracked.stderr, ?_⟩, hkept⟩⟩
    intro status' hstatus'
    obtain rfl : status = some status' := hstatus'
    show (reached inputs n w).exited = some status'
    cases ha : (inputs n).answer with
    | done count =>
      have hvalue : (Except.ok (reached inputs n w).exited : Except IoError (Option Int)) =
          .ok (some status') := by
        rw [ha] at hok
        exact hok
      injection hvalue
    | interrupted | failed e =>
      rw [ha] at hok
      cases hok

theorem pollPipes_ends (h : Supervised c deadline l w) :
    Ends inputs (pollPipes deadline l) n w (fun _ w' => Supervised c deadline l w')
      (Failed c deadline) := by
  unfold pollPipes
  refine Ends.call (Ends.call ?_)
  have hw := (h.reached inputs n).reached inputs (n + 1)
  have hkept := hw.kept.plain (n := .polled) rfl fun heq => by cases heq
  have hpolled : Supervised c deadline l
      ((reached inputs (n + 1) (reached inputs n w)).note .polled) :=
    ⟨⟨hw.tracked.stdout, hw.tracked.stderr, hw.tracked.status⟩, hkept⟩
  cases ha : (inputs (n + 1)).answer with
  | done count => exact Outcome.pure hpolled
  | interrupted => exact Outcome.pure hpolled
  | failed e => exact Outcome.throw hkept.sound

/-! ### The loop -/

/-- The output is whole: the child exited so, and everything was read that was written. -/
structure Complete (limit : Nat) (o : Output) (w : World) : Prop where
  status : w.exited = some o.status
  stdoutEnded : w.stdout.isOpen = false ∧ w.stdout.unread = []
  stderrEnded : w.stderr.isOpen = false ∧ w.stderr.unread = []
  stdout : o.stdout = w.stdout.written
  stderr : o.stderr = w.stderr.written
  few : o.stdout.length ≤ limit ∧ o.stderr.length ≤ limit

theorem complete_of_finished {o : Output} (h : Tracked c.limit l w) (ho : finished l = some o) :
    Complete c.limit o w := by
  unfold finished at ho
  cases hstatus : l.status with
  | none =>
    rw [hstatus] at ho
    cases ho
  | some status =>
    rw [hstatus] at ho
    dsimp only at ho
    split at ho
    · rename_i hall
      simp only [Bool.and_eq_true, Bool.not_eq_true'] at hall
      obtain ⟨⟨-, hstdout⟩, hstderr⟩ := hall
      obtain rfl := Option.some.inj ho
      have hout := h.stdout.ended hstdout
      have herr := h.stderr.ended hstderr
      refine ⟨h.status status hstatus, hout, herr, ?_, ?_, h.stdout.few, h.stderr.few⟩
      · rw [h.stdout.read, hout.2, List.append_nil]
      · rw [h.stderr.read, herr.2, List.append_nil]
    · cases ho

/-- Every turn keeps the invariant, and so does the loop. -/
theorem loop_ends (fuel : Nat) (h : Supervised c deadline l w) :
    Ends inputs (loop c deadline fuel l) n w
      (fun output w' => Each (Note.Sound c deadline) w'.log ∧
        ∀ o, output = some o → Complete c.limit o w' ∧ overdue c deadline w'.log = false)
      (Failed c deadline) := by
  induction fuel generalizing l n w with
  | zero => exact Outcome.pure ⟨h.kept.sound, fun o ho => by cases ho⟩
  | succ fuel ih =>
    unfold loop
    refine Ends.andThen (checkClocks_ends h) fun l₁ n₁ w₁ h₁ => ?_
    refine Ends.andThen (feed_ends h₁) fun l₂ n₂ w₂ h₂ => ?_
    refine Ends.andThen (drain_ends .stdout h₂) fun stdout n₃ w₃ h₃ => ?_
    refine Ends.andThen (drain_ends (l := { l₂ with stdout }) .stderr h₃) fun stderr n₄ w₄ h₄ => ?_
    refine Ends.andThen (collectStatus_ends h₄) fun l₅ n₅ w₅ h₅ => ?_
    cases hfinished : finished l₅ with
    | some output =>
      refine Outcome.pure ⟨h₅.kept.sound, fun o ho => ?_⟩
      obtain rfl := Option.some.inj ho
      exact ⟨complete_of_finished h₅.tracked hfinished, h₅.kept.timely⟩
    | none => exact Ends.andThen (pollPipes_ends h₅) fun _ n₆ w₆ h₆ => ih h₆

/-- A call about the child whose failure is the loop's. -/
theorem setNonblocking_ends (stream : Option Stream) (h : Supervised c deadline l w) :
    Ends inputs (tryCall (.setNonblocking stream)) n w (fun _ w' => Supervised c deadline l w')
      (Failed c deadline) := by
  have hw := h.reached inputs n
  refine Ends.tryCall ?_
  rintro r rfl
  exact ⟨hw.kept.sound, fun _ _ => hw⟩

theorem supervise_ends (fuel : Nat) (h : Supervised c deadline c.start w) :
    Ends inputs (supervise c deadline fuel) n w
      (fun output w' => Each (Note.Sound c deadline) w'.log ∧
        ∀ o, output = some o → Complete c.limit o w' ∧ overdue c deadline w'.log = false)
      (Failed c deadline) := by
  unfold supervise
  have hrest : ∀ {n w}, Supervised c deadline c.start w →
      Ends inputs (do
        tryCall (.setNonblocking (some .stdout))
        tryCall (.setNonblocking (some .stderr))
        loop c deadline fuel c.start) n w
      (fun output w' => Each (Note.Sound c deadline) w'.log ∧
        ∀ o, output = some o → Complete c.limit o w' ∧ overdue c deadline w'.log = false)
      (Failed c deadline) := by
    intro n w h
    refine Ends.andThen (setNonblocking_ends (some .stdout) h) fun _ n₁ w₁ h₁ => ?_
    refine Ends.andThen (setNonblocking_ends (some .stderr) h₁) fun _ n₂ w₂ h₂ => ?_
    exact loop_ends fuel h₂
  split
  · exact Ends.andThen (setNonblocking_ends none h) fun _ n₁ w₁ h₁ => hrest h₁
  · exact hrest h

end Calls

/-! ### The whole call -/

section Whole

variable {c : Command} {deadline : Nat} {inputs : Nat → Input}

/-- A note of what is not done in a turn. -/
theorem each_idle {note : Note} {log : List Note} (h : Each (Note.Sound c deadline) log)
    (hidle : note.busy = false) : Each (Note.Sound c deadline) (note :: log) := by
  refine h.cons ⟨?_, ?_, fun hbusy => ?_⟩
  · rintro t rfl
    cases hidle
  · rintro rfl
    cases hidle
  · cases hidle.symm.trans hbusy

/-- The process group was killed, and the notes are sound. -/
def Killed (c : Command) (deadline : Nat) (w : World) : Prop :=
  Each (Note.Sound c deadline) w.log ∧ .killed ∈ w.log

theorem Killed.wait {w : World} (h : Killed c deadline w) : Killed c deadline (w.note .waited) :=
  ⟨each_idle h.1 rfl, List.mem_cons_of_mem _ h.2⟩

theorem Killed.reached {w : World} (h : Killed c deadline w) (inputs : Nat → Input) (n : Nat) :
    Killed c deadline (reached inputs n w) := by
  unfold Killed
  rw [log_reached]
  exact h

/-- What a program leaves, from the call at `n` on. -/
def Leaves {α : Type} (inputs : Nat → Input) (p : Program Call α) (n : Nat) (w : World)
    (Q : α → World → Prop) : Prop :=
  Q (p.interpret (env inputs) (n, w)).1 (p.interpret (env inputs) (n, w)).2.2

section Programs

variable {α β : Type} {n : Nat} {w : World} {Q : α → World → Prop}

theorem Leaves.pure {a : α} (h : Q a w) : Leaves inputs (Pure.pure a) n w Q := h

/-- A call, and what comes after it. -/
theorem Leaves.call {a : Call β} {f : β → Program Call α}
    (h : Leaves inputs (f (perform a (inputs n).answer (ProcessRunner.reached inputs n w)).1) (n + 1)
      (perform a (inputs n).answer (ProcessRunner.reached inputs n w)).2 Q) :
    Leaves inputs (liftM a >>= f) n w Q := h

/-- A sequence, one part at a time. -/
theorem Leaves.andThen {p : Program Call β} {f : β → Program Call α} {R : β → World → Prop}
    (hp : Leaves inputs p n w R) (hf : ∀ b n' w', R b w' → Leaves inputs (f b) n' w' Q) :
    Leaves inputs (p >>= f) n w Q := by
  unfold Leaves
  rw [interpret_bind]
  exact hf _ _ _ hp

theorem Leaves.mono {p : Program Call α} {R : α → World → Prop} (hp : Leaves inputs p n w R)
    (h : ∀ a w', R a w' → Q a w') : Leaves inputs p n w Q := h _ _ hp

end Programs

theorem reap_leaves (cleanup fuel : Nat) {n : Nat} {w : World} (h : Killed c deadline w) :
    Leaves inputs (reap cleanup fuel) n w fun _ => Killed c deadline := by
  induction fuel generalizing n w with
  | zero => exact h
  | succ fuel ih =>
    unfold reap
    refine Leaves.call ?_
    have hwaited := (h.reached inputs n).wait
    split
    · refine Leaves.call ?_
      have hread := hwaited.reached inputs (n + 1)
      split
      · exact Leaves.call (ih (hread.reached inputs (n + 2)))
      · exact hread
    · exact hwaited

/-- After an error the process group is killed, whatever else. -/
theorem cleanUp_leaves (e : IoError) (fuel : Nat) {n : Nat} {w : World}
    (h : Each (Note.Sound c deadline) w.log) :
    Leaves inputs (cleanUp e fuel) n w fun result w' => Killed c deadline w' ∧
      ∀ output, result ≠ some (.ok output) := by
  unfold cleanUp
  refine Leaves.call (Leaves.call (Leaves.call ?_))
  have hkill : Killed c deadline ((reached inputs n w).note .killed) := by
    refine ⟨each_idle ?_ rfl, List.mem_cons_self⟩
    rw [log_reached]
    exact h
  have hkilled := (hkill.reached inputs (n + 1)).reached inputs (n + 2)
  split
  · exact ⟨hkilled, fun output heq => by cases heq⟩
  · refine Leaves.andThen (reap_leaves _ fuel hkilled) fun ended n' w' hw' => ?_
    split
    · refine Leaves.call ?_
      have hwaited := (hw'.reached inputs n').wait
      split
      · exact Leaves.call ⟨hwaited.reached inputs (n' + 1), fun output heq => by cases heq⟩
      · exact ⟨hwaited, fun output heq => by cases heq⟩
    · exact ⟨hw', fun output heq => by cases heq⟩

/-- Before the first turn nothing was read, and SIGTERM was not sent. -/
theorem supervised_start {w : World} (hstdout : w.stdout = .new) (hstderr : w.stderr = .new)
    (hlog : w.log = [.spawned]) : Supervised c deadline c.start w where
  tracked := by
    refine ⟨?_, ?_, fun status h => by cases h⟩
    · rw [hstdout]
      exact ⟨rfl, fun h => (by cases h), Nat.zero_le _⟩
    · rw [hstderr]
      exact ⟨rfl, fun h => (by cases h), Nat.zero_le _⟩
  kept := by
    rw [hlog]
    refine ⟨each_idle trivial rfl, rfl, rfl, fun _ t h => ?_, fun h => absurd rfl h, fun _ t h => ?_⟩
    · simp at h
    · simp at h

/-- A part of the loop, and what is made of its result. -/
theorem Ends.run {α : Type} {p : Run α} {n : Nat} {w : World} {Q : α → World → Prop}
    {F : Stop → World → Prop} (h : Ends inputs p n w Q F) :
    Leaves inputs p.run n w fun r w' => (∀ a, r = .ok a → Q a w') ∧ ∀ e, r = .error e → F e w' := by
  unfold Ends Outcome at h
  unfold Leaves
  split at h
  · rename_i a s' hr
    rw [hr]
    refine ⟨fun a' ha' => ?_, fun e he => by cases he⟩
    cases ha'
    exact h
  · rename_i e s' hr
    rw [hr]
    refine ⟨fun a ha => (by cases ha), fun e' he' => ?_⟩
    cases he'
    exact h

end Whole

namespace Sample

/-- A command with a deadline of 10 nanoseconds and a grace period as long. -/
def command : Command := ⟨none, 10, 10, 100⟩

/-- The loop's first turn begins five nanoseconds late, and the second one two nanoseconds after the
deadline and the grace period. In it the child is seen to have ended. -/
def inputs : Nat → Input
  | 4 => ⟨[.tick 15], .done 0⟩
  | 11 => ⟨[.tick 7, .exit 0, .close .stdout, .close .stderr], .done 0⟩
  | _ => ⟨[], .done 0⟩

end Sample

end OpenUI.ProcessRunner
