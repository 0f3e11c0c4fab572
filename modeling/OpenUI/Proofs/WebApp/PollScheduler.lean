import OpenUI.Concurrency.History
import OpenUI.Concurrency.Reducer
import OpenUI.WebApp.PollScheduler

/-!
# `OpenUI.Proofs.WebApp.PollScheduler`: what is read, and what is published

`Poll.Sound` is what holds after every event: the busy flag stands for the one read in flight, the
timer that is pending is the one the scheduler remembers, and a read whose revision is still the
scheduler's was followed by no `mutate`, `refresh` or `stop`.

* `poll_order`: one read and one timer at a time, and only such a read is published.
* `owed_read_iff`: the next read is arranged, exactly as long as no read ends that `start` has made
  obsolete, on a visible page without an interval (`one_shot_forgotten`).
-/

set_option autoImplicit false

universe u

namespace OpenUI.WebApp

open OpenUI.Concurrency

variable {T : Type u}

/-! ### What the log says of a read -/

/-- The calls that invalidate older reads. -/
def Note.touches : Note T → Bool
  | .mutate _ | .refresh | .stop => true
  | _ => false

/-- The read was started, and nothing invalidated it since. -/
def Untouched (id : Nat) (log : List (Note T)) : Prop :=
  ∃ later before, log = later ++ .read id :: before ∧ ∀ n ∈ later, n.touches = false

/-- A value or an error of a read is published only if nothing invalidated the read since it
started. -/
structure Note.Fresh (n : Note T) (earlier : List (Note T)) : Prop where
  publish : ∀ id value, n = .publish id value → Untouched id earlier
  error : ∀ id message, n = .error id message → Untouched id earlier

theorem Untouched.cons {id : Nat} {log : List (Note T)} {n : Note T} (h : Untouched id log)
    (hn : n.touches = false) : Untouched id (n :: log) := by
  obtain ⟨later, before, rfl, hlater⟩ := h
  exact ⟨n :: later, before, rfl, by simpa [hn] using hlater⟩

theorem untouched_read (id : Nat) (log : List (Note T)) : Untouched id (.read id :: log) :=
  ⟨[], log, rfl, by simp⟩

/-- A note that publishes nothing of a read. -/
def Note.silent : Note T → Bool
  | .publish _ _ | .error _ _ => false
  | _ => true

theorem Note.fresh_of_silent {n : Note T} {earlier : List (Note T)} (h : n.silent = true) :
    n.Fresh earlier := by
  constructor
  · intro id value hn
    rw [hn] at h
    cases h
  · intro id message hn
    rw [hn] at h
    cases h

namespace Poll

/-! ### The invariant -/

/-- At most one timer is pending, and it is the one the scheduler remembers. -/
def OneTimer (p : Poll T) : Prop := ∀ t ∈ p.timers, p.timers = [t] ∧ p.timer = some t.id

/-- What holds after every event. -/
structure Sound (p : Poll T) : Prop where
  idle : p.busy = false → p.reads = []
  /-- The one read in flight. -/
  reading : p.busy = true → ∃ r, p.reads = [r] ∧ r.revision ≤ p.revision ∧
    (p.active = false → r.revision ≠ p.revision) ∧
    (r.revision = p.revision → Untouched r.id p.log)
  timer : p.OneTimer
  /-- A timer is pending only for a read that may start. -/
  armed : p.timers ≠ [] → p.active = true ∧ p.busy = false
  log : Each Note.Fresh p.log

theorem sound_new (interval : Option Nat) (visible : Bool) :
    (new interval visible : Poll T).Sound where
  idle _ := rfl
  reading h := by cases h
  timer := by simp [OneTimer, new]
  armed := by simp [new]
  log := trivial

/-- Clearing the remembered timer clears every pending one. -/
theorem clearTimer_eq {p : Poll T} (h : p.OneTimer) : p.clearTimer = { p with timers := [] } := by
  have hnone : (p.timers.filter fun t => p.timer ≠ some t.id) = [] := by
    rw [List.filter_eq_nil_iff]
    intro t ht
    simp [(h t ht).2]
  rw [clearTimer, hnone]

/-- The state without its timer is as sound. -/
theorem Sound.cleared {p : Poll T} (h : p.Sound) : ({ p with timers := [] } : Poll T).Sound where
  idle := h.idle
  reading := h.reading
  timer := by simp [OneTimer]
  armed := by simp
  log := h.log

/-- A note that invalidates nothing and publishes nothing. -/
theorem Sound.note {p : Poll T} (h : p.Sound) {n : Note T} (ht : n.touches = false)
    (hs : n.silent = true) : (p.note n).Sound where
  idle := h.idle
  reading hb := by
    obtain ⟨r, hr, hle, hoff, hlog⟩ := h.reading hb
    exact ⟨r, hr, hle, hoff, fun he => (hlog he).cons ht⟩
  timer := h.timer
  armed := h.armed
  log := h.log.cons (Note.fresh_of_silent hs)

/-- When `run` starts a read. -/
def Starts (p : Poll T) : Prop := p.active = true ∧ p.busy = false ∧ p.visible = true

theorem run_of_not {p : Poll T} (h : ¬ p.Starts) : p.run = p := by
  rw [run, if_pos]
  by_contra hn
  exact h (by simpa [Starts, and_assoc] using hn)

theorem run_of_starts {p : Poll T} (h : p.Starts) : p.run =
    { p with
        busy := true
        pendingRefresh := false
        due := false
        reads := p.reads ++ [⟨p.nextRead, p.revision⟩]
        nextRead := p.nextRead + 1
        log := .read p.nextRead :: p.log } := by
  obtain ⟨ha, hb, hv⟩ := h
  rw [run, if_neg]
  simp [ha, hb, hv]

theorem Sound.run {p : Poll T} (h : p.Sound) (ht : p.timers = []) : p.run.Sound := by
  by_cases hs : p.Starts
  · rw [run_of_starts hs]
    have hreads := h.idle hs.2.1
    exact {
      idle := fun hb => by cases hb
      reading := fun _ => ⟨⟨p.nextRead, p.revision⟩, by simp [hreads], Nat.le_refl _,
        fun ha => absurd hs.1 (by simp [show p.active = false from ha]),
          fun _ => untouched_read _ _⟩
      timer := by simp [OneTimer, ht]
      armed := by simp [ht]
      log := h.log.cons (Note.fresh_of_silent rfl) }
  · rw [run_of_not hs]
    exact h

theorem Sound.wake {p : Poll T} (h : p.Sound) : p.wake.Sound := by
  unfold Poll.wake
  rw [clearTimer_eq h.timer]
  dsimp only
  split
  · exact h.cleared
  · split
    · exact h.cleared
    · exact h.cleared.run rfl

/-- A scheduler that `start` has set going, before it wakes. -/
theorem Sound.started {p : Poll T} (h : p.Sound) :
    ({ p with active := true, due := true }.note .start : Poll T).Sound := by
  have hon : ({ p with active := true, due := true } : Poll T).Sound := {
    idle := h.idle
    reading := fun hb => by
      obtain ⟨r, hr, hle, -, hlog⟩ := h.reading hb
      exact ⟨r, hr, hle, fun ha => (by cases ha), hlog⟩
    timer := h.timer
    armed := fun ht => ⟨rfl, (h.armed ht).2⟩
    log := h.log }
  exact hon.note rfl rfl

theorem Sound.start {p : Poll T} (h : p.Sound) : p.start.Sound := h.started.wake

/-- A revision that has moved on. -/
theorem Sound.revised {p : Poll T} (h : p.Sound) {n : Note T} (hs : n.silent = true) :
    ({ p with revision := p.revision + 1 }.note n).Sound where
  idle := h.idle
  reading hb := by
    obtain ⟨r, hr, hle, -, -⟩ := h.reading hb
    refine ⟨r, hr, ?_, fun _ => ?_, fun he => ?_⟩
    · show r.revision ≤ p.revision + 1
      omega
    · show r.revision ≠ p.revision + 1
      omega
    · have hnew : r.revision = p.revision + 1 := he
      omega
  timer := h.timer
  armed := h.armed
  log := h.log.cons (Note.fresh_of_silent hs)

theorem Sound.stop {p : Poll T} (h : p.Sound) : p.stop.Sound := by
  have hrev := h.revised (n := .stop) rfl
  have hone : ({ p with active := false, revision := p.revision + 1, pendingRefresh := false }.note
      .stop : Poll T).OneTimer := h.timer
  rw [Poll.stop, clearTimer_eq hone]
  exact {
    idle := h.idle
    reading := fun hb => by
      obtain ⟨r, hr, hle, -, -⟩ := h.reading hb
      refine ⟨r, hr, ?_, fun _ => ?_, fun he => ?_⟩
      · show r.revision ≤ p.revision + 1
        omega
      · show r.revision ≠ p.revision + 1
        omega
      · have hnew : r.revision = p.revision + 1 := he
        omega
    timer := by simp [OneTimer]
    armed := by simp
    log := hrev.log }

/-- A call of an inactive scheduler that does nothing but is noted. -/
theorem Sound.ignored {p : Poll T} (h : p.Sound) (ha : p.active = false) {n : Note T}
    (hs : n.silent = true) : (p.note n).Sound where
  idle := h.idle
  reading hb := by
    obtain ⟨r, hr, hle, hoff, -⟩ := h.reading hb
    exact ⟨r, hr, hle, hoff, fun he => absurd he (hoff ha)⟩
  timer := h.timer
  armed := h.armed
  log := h.log.cons (Note.fresh_of_silent hs)

/-- A scheduler that `refresh` has asked for a read, before it wakes. -/
def asked (p : Poll T) : Poll T :=
  ({ p with revision := p.revision + 1, pendingRefresh := true, due := true }.note .refresh).note
    (.refreshing true)

theorem refresh_of_active {p : Poll T} (ha : p.active = true) : p.refresh = p.asked.wake := by
  simp [refresh, asked, ha]

theorem refresh_of_inactive {p : Poll T} (ha : p.active = false) : p.refresh = p.note .refresh := by
  simp [refresh, ha]

theorem Sound.asked {p : Poll T} (h : p.Sound) : p.asked.Sound := by
  have hrev := h.revised (n := .refresh) rfl
  have hdue : ({ p with revision := p.revision + 1, pendingRefresh := true, due := true }.note
      .refresh : Poll T).Sound :=
    ⟨hrev.idle, hrev.reading, hrev.timer, hrev.armed, hrev.log⟩
  exact hdue.note rfl rfl

theorem Sound.refresh {p : Poll T} (h : p.Sound) : p.refresh.Sound := by
  cases ha : p.active with
  | false =>
    rw [refresh_of_inactive ha]
    exact h.ignored ha rfl
  | true =>
    rw [refresh_of_active ha]
    exact h.asked.wake

theorem Sound.mutate {p : Poll T} (h : p.Sound) (value : T) : (p.mutate value).Sound := by
  unfold Poll.mutate
  cases ha : p.active with
  | false => exact h.ignored ha rfl
  | true => simpa [ha] using h.revised (n := .mutate value) rfl

/-- What `settled` publishes is of a read that nothing invalidated. The read is no longer in flight,
and the busy flag still stands. -/
theorem log_settled {p : Poll T} {r : Read} {result : Except String T} (hl : Each Note.Fresh p.log)
    (hr : p.active = true → r.revision = p.revision → Untouched r.id p.log) :
    Each Note.Fresh (p.settled r result).log := by
  unfold settled
  split
  · rename_i hcur
    have hu : Untouched r.id p.log := by
      have hboth := (Bool.and_eq_true _ _).mp hcur
      exact hr hboth.1 (beq_iff_eq.mp hboth.2)
    split
    · refine hl.cons ⟨fun id value hn => ?_, fun id message hn => by cases hn⟩
      cases hn
      exact hu
    · refine hl.cons ⟨fun id value hn => (by cases hn), fun id message hn => ?_⟩
      cases hn
      exact hu
  · exact hl

/-- `settled` only adds to the log. -/
theorem settled_eq (p : Poll T) (r : Read) (result : Except String T) :
    ∃ log, p.settled r result = { p with log := log } := by
  unfold settled
  split
  · split
    · exact ⟨_, rfl⟩
    · exact ⟨_, rfl⟩
  · exact ⟨_, rfl⟩

/-- The state after a read has ended, before the next one is arranged. -/
def ended (p : Poll T) : Poll T :=
  { p with
      busy := false
      log := if p.active && !p.pendingRefresh then .refreshing false :: p.log else p.log }

/-- When the end of a read sets a timer. -/
def Rearms (p : Poll T) (d : Nat) : Prop :=
  p.active = true ∧ p.visible = true ∧ p.delay = some d

theorem finish_of_rearms {p : Poll T} {d : Nat} (h : p.Rearms d) :
    p.finish = p.ended.setTimer d := by
  obtain ⟨ha, hv, hd⟩ := h
  unfold finish ended
  cases hp : p.pendingRefresh <;> simp_all [delay, note]

theorem finish_of_not {p : Poll T} (h : ∀ d, ¬ p.Rearms d) : p.finish = p.ended := by
  unfold finish ended
  cases ha : p.active with
  | false => simp
  | true =>
    cases hp : p.pendingRefresh with
    | true =>
      have hv : p.visible = false := by simpa [Rearms, ha, delay, hp] using h 0
      simp [delay, hv]
    | false =>
      have hv : ∀ d, p.interval = some d → p.visible = false := by
        intro d hd
        simpa [Rearms, ha, delay, hp, hd] using h d
      cases hi : p.interval with
      | none => simp [delay, note]
      | some d => simp [delay, note, hv d hi]

/-- The end of a read leaves nothing in flight, and at most one timer. -/
theorem sound_finish {p : Poll T} (hr : p.reads = []) (ht : p.timers = [])
    (hl : Each Note.Fresh p.log) : p.finish.Sound := by
  have hlog : Each Note.Fresh p.ended.log := by
    unfold ended
    split
    · exact hl.cons (Note.fresh_of_silent rfl)
    · exact hl
  by_cases h : ∃ d, p.Rearms d
  · obtain ⟨d, hd⟩ := h
    rw [finish_of_rearms hd]
    refine ⟨fun _ => hr, fun hb => (by cases hb), ?_, fun _ => ⟨hd.1, rfl⟩, hlog⟩
    simp [OneTimer, setTimer, ended, ht]
  · rw [finish_of_not (not_exists.mp h)]
    exact ⟨fun _ => hr, fun hb => (by cases hb), by simp [OneTimer, ended, ht],
      by simp [ended, ht], hlog⟩

/-- The read in flight, found by its name. -/
theorem Sound.find {p : Poll T} (h : p.Sound) {id : Nat} {r : Read}
    (hf : p.reads.find? (·.id == id) = some r) : p.busy = true ∧ p.reads = [r] := by
  cases hb : p.busy with
  | false => simp [h.idle hb] at hf
  | true =>
    obtain ⟨r', hr', -⟩ := h.reading hb
    rw [hr'] at hf ⊢
    have hmem := List.mem_of_find?_eq_some hf
    simp only [List.mem_singleton] at hmem
    exact ⟨rfl, by rw [hmem]⟩

theorem Sound.settle {p : Poll T} (h : p.Sound) (id : Nat) (result : Except String T) :
    (p.settle id result).Sound := by
  unfold Poll.settle
  split
  · exact h
  · rename_i r hf
    obtain ⟨hb, hreads⟩ := h.find hf
    obtain ⟨r', hr', -, -, hu⟩ := h.reading hb
    have heq : r' = r := by
      rw [hreads] at hr'
      exact (List.singleton_inj.mp hr').symm
    subst heq
    have htimers : p.timers = [] := by
      by_contra ht
      rw [(h.armed ht).2] at hb
      cases hb
    have hlog : Each Note.Fresh
        (({ p with reads := p.reads.filter (· != r') } : Poll T).settled r' result).log :=
      log_settled h.log fun _ he => hu he
    obtain ⟨log, hsettled⟩ := settled_eq { p with reads := p.reads.filter (· != r') } r' result
    rw [hsettled] at hlog ⊢
    exact sound_finish (by simp [hreads]) htimers hlog

theorem Sound.fire {p : Poll T} (h : p.Sound) (id : Nat) : (p.fire id).Sound := by
  unfold Poll.fire
  split
  · rename_i hany
    obtain ⟨t, ht, hid⟩ := List.any_eq_true.mp hany
    have hnone : p.timers.filter (·.id != id) = [] := by
      rw [(h.timer t ht).1]
      simpa using hid
    rw [hnone]
    exact h.cleared.run rfl
  · exact h

/-- Every event keeps the invariant. -/
theorem Sound.step {p : Poll T} (h : p.Sound) (e : PollEvent T) : (p.step e).Sound := by
  cases e with
  | start => exact h.start
  | stop => exact h.stop
  | wake => exact h.wake
  | refresh => exact h.refresh
  | mutate value => exact h.mutate value
  | visibility visible =>
    have hshown : ({ p with visible := visible } : Poll T).Sound :=
      ⟨h.idle, h.reading, h.timer, h.armed, h.log⟩
    exact hshown.wake
  | fire timer => exact h.fire timer
  | settle read result => exact h.settle read result

theorem Sound.change {p : Poll T} (h : p.Sound) (c : PollChange T) : (p.change c).Sound := by
  cases c with
  | event e => exact h.step e
  | visible value => exact ⟨h.idle, h.reading, h.timer, h.armed, h.log⟩
  | interval value => exact ⟨h.idle, h.reading, h.timer, h.armed, h.log⟩

/-- A sound scheduler has at most one read in flight. -/
theorem Sound.reads_length {p : Poll T} (h : p.Sound) : p.reads.length ≤ 1 := by
  cases hb : p.busy with
  | false => simp [h.idle hb]
  | true =>
    obtain ⟨r, hr, -⟩ := h.reading hb
    simp [hr]

theorem OneTimer.timers_length {p : Poll T} (h : p.OneTimer) : p.timers.length ≤ 1 := by
  cases ht : p.timers with
  | nil => simp
  | cons t rest =>
    have hone := (h t (by simp [ht])).1
    rw [ht] at hone
    simp [hone]

/-- In every run at most one read is in flight and at most one timer is pending at any time, and a
value or an error of a read is published only if no `mutate`, `refresh` or `stop` came after its
start. -/
theorem poll_order (interval : Option Nat) (visible : Bool) (changes : List (PollChange T)) :
    (changes.foldl change (new interval visible)).reads.length ≤ 1 ∧
    (changes.foldl change (new interval visible)).timers.length ≤ 1 ∧
    Each Note.Fresh (changes.foldl change (new interval visible)).log := by
  have h : (changes.foldl change (new interval visible)).Sound :=
    foldl_invariant (sound_new interval visible) fun _ c hp => hp.change c
  exact ⟨h.reads_length, h.timer.timers_length, h.log⟩

/-! ### Reads that are owed -/

/-- A read was started since the last `start` or `refresh`. -/
def answered : List (Note T) → Bool
  | [] => false
  | .read _ :: _ => true
  | .start :: _ | .refresh :: _ => false
  | .stop :: earlier | .mutate _ :: earlier | .publish _ _ :: earlier | .error _ _ :: earlier
  | .refreshing _ :: earlier => answered earlier

/-- An active scheduler on a visible page with no read in flight has a timer pending if its interval
is a number, and has started its one-shot read since the last `start` or `refresh` if it is not. -/
def Served (p : Poll T) : Prop :=
  p.active = true → p.visible = true → p.reads = [] →
    (p.interval ≠ none → p.timers ≠ []) ∧ (p.interval = none → answered p.log = true)

/-- The same, where a one-shot read counts as arranged once a timer is pending for it. -/
def Arranged (p : Poll T) : Prop :=
  p.active = true → p.visible = true → p.reads = [] →
    p.timers ≠ [] ∨ p.interval = none ∧ answered p.log = true

/-- No read without an interval ends on a visible page after a `start` or a `refresh` that came
while it was in flight. -/
def EndsCurrent (p : Poll T) : PollEvent T → Prop
  | .settle id _ => p.reads.any (·.id == id) = true → p.active = true → p.visible = true →
      p.interval = none → answered p.log = true
  | _ => True

/-- No such read ends after a `start`, unless a `refresh` is pending too. -/
def EndsCurrentOrRefreshed (p : Poll T) : PollEvent T → Prop
  | .settle id _ => p.reads.any (·.id == id) = true → p.active = true → p.visible = true →
      p.interval = none → p.pendingRefresh = true ∨ answered p.log = true
  | _ => True

/-- `due` says what the log says. -/
def Ready (p : Poll T) : Prop := p.active = true → answered p.log = !p.due

theorem Ready.run {p : Poll T} (h : p.Ready) : p.run.Ready := by
  by_cases hs : p.Starts
  · rw [run_of_starts hs]
    intro _
    rfl
  · rw [run_of_not hs]
    exact h

theorem Ready.wake {p : Poll T} (h : p.Ready) : p.wake.Ready := by
  have hcleared : p.clearTimer.Ready := h
  unfold Poll.wake
  dsimp only
  split
  · exact hcleared
  · split
    · exact hcleared
    · exact hcleared.run

/-- Publishing changes neither the debt nor what the log says of it. -/
theorem settled_frame (p : Poll T) (r : Read) (result : Except String T) :
    (p.settled r result).due = p.due ∧ answered (p.settled r result).log = answered p.log := by
  unfold settled
  split
  · split
    · exact ⟨rfl, rfl⟩
    · exact ⟨rfl, rfl⟩
  · exact ⟨rfl, rfl⟩

theorem answered_ended (p : Poll T) : answered p.ended.log = answered p.log := by
  unfold ended
  split <;> rfl

theorem Ready.finish {p : Poll T} (h : p.Ready) : p.finish.Ready := by
  have hended : p.ended.Ready := fun ha => (answered_ended p).trans (h ha)
  by_cases hr : ∃ d, p.Rearms d
  · obtain ⟨d, hd⟩ := hr
    rw [finish_of_rearms hd]
    exact hended
  · rw [finish_of_not (not_exists.mp hr)]
    exact hended

theorem Ready.step {p : Poll T} (h : p.Ready) (e : PollEvent T) : (p.step e).Ready := by
  cases e with
  | start =>
    have hdue : ({ p with active := true, due := true }.note .start : Poll T).Ready := fun _ => rfl
    exact hdue.wake
  | stop =>
    intro ha
    cases ha
  | wake => exact h.wake
  | refresh =>
    show (Poll.refresh p).Ready
    cases ha : p.active with
    | false =>
      rw [refresh_of_inactive ha]
      intro hon
      exact absurd (ha.symm.trans hon) Bool.false_ne_true
    | true =>
      rw [refresh_of_active ha]
      have hdue : p.asked.Ready := fun _ => rfl
      exact hdue.wake
  | mutate value =>
    show (Poll.mutate p value).Ready
    unfold mutate
    split
    · exact h
    · exact h
  | visibility visible =>
    have hshown : ({ p with visible := visible } : Poll T).Ready := h
    exact hshown.wake
  | fire timer =>
    show (Poll.fire p timer).Ready
    unfold fire
    split
    · have hfired : ({ p with timers := p.timers.filter (·.id != timer) } : Poll T).Ready := h
      exact hfired.run
    · exact h
  | settle read result =>
    show (Poll.settle p read result).Ready
    unfold settle
    split
    · exact h
    · rename_i r _
      have hframe := settled_frame { p with reads := p.reads.filter (· != r) } r result
      obtain ⟨log, hs⟩ := settled_eq { p with reads := p.reads.filter (· != r) } r result
      have hready : ({ p with reads := p.reads.filter (· != r) }.settled r result).Ready := by
        intro ha
        rw [hframe.1, hframe.2]
        rw [hs] at ha
        exact h ha
      exact hready.finish

theorem Served.arranged {p : Poll T} (h : p.Served) : p.Arranged := by
  intro ha hv hr
  obtain ⟨hsome, hnone⟩ := h ha hv hr
  by_cases hi : p.interval = none
  · exact .inr ⟨hi, hnone hi⟩
  · exact .inl (hsome hi)

/-- A scheduler that is inactive, hidden or reading owes nothing. -/
theorem served_of_not {p : Poll T} (h : ¬ (p.active = true ∧ p.visible = true ∧ p.reads = [])) :
    p.Served := fun ha hv hr => absurd ⟨ha, hv, hr⟩ h

/-- A read is in flight while the scheduler is busy. -/
theorem Sound.reads_ne {p : Poll T} (h : p.Sound) (hb : p.busy = true) : p.reads ≠ [] := by
  obtain ⟨r, hr, -⟩ := h.reading hb
  simp [hr]

/-- `run` leaves nothing owed. -/
theorem served_run {p : Poll T} (hb : p.busy = true → p.reads ≠ []) : p.run.Served := by
  apply served_of_not
  rintro ⟨ha, hv, hr⟩
  by_cases hs : p.Starts
  · rw [run_of_starts hs] at hr
    simp at hr
  · rw [run_of_not hs] at ha hv hr
    cases hbusy : p.busy with
    | true => exact hb hbusy hr
    | false => exact hs ⟨ha, hbusy, hv⟩

/-- After a wake nothing is owed. -/
theorem served_wake {p : Poll T} (h : p.Sound) (hd : p.Ready) : p.wake.Served := by
  unfold Poll.wake
  rw [clearTimer_eq h.timer]
  dsimp only
  split
  · rename_i hoff
    apply served_of_not
    rintro ⟨ha, hv, hr⟩
    have hbusy : p.busy = true := by
      simpa [show p.active = true from ha, show p.visible = true from hv] using hoff
    exact h.reads_ne hbusy hr
  · split
    · -- A one-shot read that already ran.
      rename_i hran
      obtain ⟨hi, hdue⟩ := (Bool.and_eq_true _ _).mp hran
      intro ha _ _
      refine ⟨fun hne => absurd (Option.isNone_iff_eq_none.mp hi) hne, fun _ => ?_⟩
      show answered p.log = true
      rw [hd ha]
      exact hdue
    · exact served_run h.reads_ne

/-- Neither the calls nor the timers leave anything owed. -/
theorem served_step {p : Poll T} (h : p.Sound) (hd : p.Ready) {e : PollEvent T}
    (he : ∀ id result, e ≠ .settle id result) :
    (p.step e).Served ∨ (p.Served → (p.step e).Served) ∧ (p.Arranged → (p.step e).Arranged) := by
  cases e with
  | start => exact .inl (served_wake h.started fun _ => rfl)
  | stop =>
    refine .inl (served_of_not ?_)
    rintro ⟨ha, -, -⟩
    cases ha
  | wake => exact .inl (served_wake h hd)
  | refresh =>
    show (Poll.refresh p).Served ∨ _
    cases ha : p.active with
    | false =>
      rw [refresh_of_inactive ha]
      refine .inl (served_of_not ?_)
      rintro ⟨hon, -, -⟩
      exact absurd (ha.symm.trans hon) Bool.false_ne_true
    | true =>
      rw [refresh_of_active ha]
      exact .inl (served_wake h.asked fun _ => rfl)
  | mutate value =>
    refine .inr ⟨fun hp => ?_, fun hp => ?_⟩
    · show (Poll.mutate p value).Served
      unfold mutate
      split
      · exact hp
      · exact hp
    · show (Poll.mutate p value).Arranged
      unfold mutate
      split
      · exact hp
      · exact hp
  | visibility visible =>
    have hshown : ({ p with visible := visible } : Poll T).Sound :=
      ⟨h.idle, h.reading, h.timer, h.armed, h.log⟩
    exact .inl (served_wake hshown hd)
  | fire timer =>
    show (Poll.fire p timer).Served ∨ _
    unfold fire
    split
    · exact .inl (served_run h.reads_ne)
    · rename_i hany
      refine .inr ⟨fun hp => ?_, fun hp => ?_⟩
      · show (Poll.fire p timer).Served
        rw [fire, if_neg hany]
        exact hp
      · show (Poll.fire p timer).Arranged
        rw [fire, if_neg hany]
        exact hp
  | settle read result => exact absurd rfl (he read result)

/-- What is arranged at the end of a read. -/
theorem served_finish {p : Poll T} (hr : p.reads = []) (ht : p.timers = []) :
    (p.finish.Served ↔ (p.active = true → p.visible = true → p.interval = none →
      answered p.log = true)) ∧
    (p.finish.Arranged ↔ (p.active = true → p.visible = true → p.interval = none →
      p.pendingRefresh = true ∨ answered p.log = true)) := by
  have hlog := answered_ended p
  have hreads : p.ended.reads = [] := hr
  by_cases h : ∃ d, p.Rearms d
  · obtain ⟨d, hd⟩ := h
    rw [finish_of_rearms hd]
    have htimers : (p.ended.setTimer d).timers ≠ [] := by simp [setTimer]
    constructor
    · constructor
      · intro hs ha hv hi
        rw [← hlog]
        exact (hs ha hv hreads).2 hi
      · intro hs ha hv _
        exact ⟨fun _ => htimers, fun hi => hlog.trans (hs ha hv hi)⟩
    · refine iff_of_true (fun _ _ _ => .inl htimers) fun _ _ hi => .inl ?_
      -- Without an interval only a pending refresh sets a timer.
      by_contra hp
      have hdelay := hd.2.2
      rw [delay, if_neg hp, hi] at hdelay
      cases hdelay
  · rw [finish_of_not (not_exists.mp h)]
    have hdelay : p.active = true → p.visible = true → p.pendingRefresh = false ∧
      p.interval = none := by
      intro ha hv
      have hnone : p.delay = none := by
        cases hd : p.delay with
        | none => rfl
        | some d => exact absurd ⟨d, ha, hv, hd⟩ h
      cases hp : p.pendingRefresh with
      | true => simp [delay, hp] at hnone
      | false => exact ⟨rfl, by simpa [delay, hp] using hnone⟩
    constructor
    · constructor
      · intro hs ha hv hi
        rw [← hlog]
        exact (hs ha hv hreads).2 hi
      · intro hs ha hv _
        exact ⟨fun hne => absurd (hdelay ha hv).2 hne, fun hi => hlog.trans (hs ha hv hi)⟩
    · constructor
      · intro hs ha hv hi
        rcases hs ha hv hreads with hne | ⟨-, hans⟩
        · exact absurd ht hne
        · exact .inr (hlog.symm.trans hans)
      · intro hs ha hv _
        have hi := (hdelay ha hv).2
        rcases hs ha hv hi with hp | hans
        · rw [(hdelay ha hv).1] at hp
          cases hp
        · exact .inr ⟨hi, hlog.trans hans⟩

/-- What is arranged once a read in flight has settled. -/
theorem served_settle {p : Poll T} (h : p.Sound) {id : Nat} {r : Read} (result : Except String T)
    (hf : p.reads.find? (·.id == id) = some r) :
    ((p.settle id result).Served ↔ (p.active = true → p.visible = true → p.interval = none →
      answered p.log = true)) ∧
    ((p.settle id result).Arranged ↔ (p.active = true → p.visible = true → p.interval = none →
      p.pendingRefresh = true ∨ answered p.log = true)) := by
  obtain ⟨hb, hreads⟩ := h.find hf
  have htimers : p.timers = [] := by
    by_contra ht
    rw [(h.armed ht).2] at hb
    cases hb
  have hframe := (settled_frame { p with reads := p.reads.filter (· != r) } r result).2
  obtain ⟨log, hs⟩ := settled_eq { p with reads := p.reads.filter (· != r) } r result
  have hsettle : p.settle id result =
      ({ p with reads := p.reads.filter (· != r), log := log }).finish := by
    rw [settle, hf]
    exact congrArg finish hs
  rw [hs] at hframe
  have hend := served_finish (p := { p with reads := p.reads.filter (· != r), log := log })
    (by simp [hreads]) htimers
  rw [show answered log = answered p.log from hframe] at hend
  rw [hsettle]
  exact hend

/-- One event leaves every read arranged exactly when it ends none that is obsolete. -/
theorem served_step_iff {p : Poll T} (h : p.Sound) (hd : p.Ready) (e : PollEvent T) :
    (p.Served → ((p.step e).Served ↔ p.EndsCurrent e)) ∧
    (p.Arranged → ((p.step e).Arranged ↔ p.EndsCurrentOrRefreshed e)) := by
  by_cases he : ∀ id result, e ≠ .settle id result
  · have htriv : p.EndsCurrent e ∧ p.EndsCurrentOrRefreshed e := by
      cases e with
      | settle id result => exact absurd rfl (he id result)
      | _ => exact ⟨trivial, trivial⟩
    rcases served_step h hd he with hs | hs
    · exact ⟨fun _ => iff_of_true hs htriv.1, fun _ => iff_of_true hs.arranged htriv.2⟩
    · exact ⟨fun hp => iff_of_true (hs.1 hp) htriv.1, fun hp => iff_of_true (hs.2 hp) htriv.2⟩
  · simp only [ne_eq, not_forall, not_not] at he
    obtain ⟨id, result, rfl⟩ := he
    cases hf : p.reads.find? (·.id == id) with
    | none =>
      -- Nothing of that name is in flight.
      have hsame : p.step (.settle id result) = p := by
        show p.settle id result = p
        rw [settle, hf]
      have hno : ¬ p.reads.any (·.id == id) = true := by
        rw [List.any_eq_true]
        rintro ⟨r, hr, hid⟩
        rw [List.find?_eq_none] at hf
        exact hf r hr hid
      rw [hsame]
      exact ⟨fun hp => iff_of_true hp fun hany => absurd hany hno,
        fun hp => iff_of_true hp fun hany => absurd hany hno⟩
    | some r =>
      have hany : p.reads.any (·.id == id) = true :=
        List.any_eq_true.mpr ⟨r, List.mem_of_find?_eq_some hf, by simpa using List.find?_some hf⟩
      obtain ⟨hserved, harranged⟩ := served_settle h result hf
      exact ⟨fun _ => hserved.trans ⟨fun hs _ => hs, fun hs => hs hany⟩,
        fun _ => harranged.trans ⟨fun hs _ => hs, fun hs => hs hany⟩⟩

/-- In every run no owed read is forgotten, exactly as long as none ends that a `start` or a
`refresh` has made obsolete, on a visible page without an interval. When a read counts as arranged
once a timer is pending for it, such a `refresh` does no harm. -/
theorem owed_read_iff (interval : Option Nat) (visible : Bool) (events : List (PollEvent T)) :
    (Along step (fun p e => (p.step e).Served) (new interval visible) events ↔
      Along step EndsCurrent (new interval visible) events) ∧
    (Along step (fun p e => (p.step e).Arranged) (new interval visible) events ↔
      Along step EndsCurrentOrRefreshed (new interval visible) events) := by
  have hnew : (new interval visible : Poll T).Sound ∧ (new interval visible : Poll T).Ready :=
    ⟨sound_new interval visible, fun ha => by cases ha⟩
  have hkept : ∀ (p : Poll T) e, p.Sound ∧ p.Ready → (p.step e).Sound ∧ (p.step e).Ready :=
    fun p e hp => ⟨hp.1.step e, hp.2.step e⟩
  have hidle : (new interval visible : Poll T).Served := fun ha => by cases ha
  constructor
  · exact along_iff_under hnew hidle hkept fun p e hp => (served_step_iff hp.1 hp.2 e).1
  · exact along_iff_under hnew hidle.arranged hkept fun p e hp => (served_step_iff hp.1 hp.2 e).2

/-- A one-shot resource is stopped and started again while its read is in flight. The read ends, is
discarded, and no other follows. -/
theorem one_shot_forgotten :
    ¬ Along step (fun p e => (p.step e).Served) (new none true : Poll String)
      [.start, .stop, .start, .settle 0 (.ok "settings")] := by
  intro h
  have hans := (h.2.2.2.1 rfl rfl rfl).2 rfl
  cases hans

end Poll

end OpenUI.WebApp
