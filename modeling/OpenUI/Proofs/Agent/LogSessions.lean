import OpenUI.Proofs.Agent.Logging

/-!
# `OpenUI.Proofs.Agent.LogSessions`: sessions of a logger

Sessions follow one another; requests come in between, and the agent may be restarted at any time.
Every session writes to a file of its own, which is not the log before its header is in it. So a log
is never cut, and never mixed with another one.

* `exec_effect`: what an action that was executed returned and did.
* `Alone`: one session at a time.
* `Filed`: what is in the files.
* `Told`: what the notes say of stops and of ends.
* `logs_sound`: all of it, in every run.
-/

set_option autoImplicit false

namespace OpenUI.Agent.Logging

open OpenUI.Text OpenUI.Json OpenUI.Euicc OpenUI.Concurrency

variable {header : String} {rows : Rows}

/-! ### What an action does -/

/-- The session that `start` begins. -/
def World.began (w : World) (duration interval : Nat) : World :=
  { w with
    session := { running := true, started := some w.clock, duration, interval }
    notes := .started :: w.notes }

/-- The world after a sample of this thread. -/
def World.sampledBy (w : World) (r : Runner) (s : Sample) : World :=
  { w.setFile r.file (w.content r.file) (some (s :: r.samples)) with
    notes := .sampled (r.begun.getD 0) r.looked r.limit :: w.notes }

/-- The world after the end of this thread. -/
def World.finishedBy (w : World) (r : Runner) (error : Option String) : World :=
  { w with
    session := { w.session with running := false, error := error.or w.session.error }
    notes := .finished r.samples w.session.rows (w.content r.file) error :: w.notes }

/-- What an action that was executed returned and did. -/
def Effect (c : Ctx) (w : World) : {β : Type} → Call β → β → World → Prop
  | _, .tryStart duration interval, began, w' =>
    (began = false ∧ w' = w) ∨
      began = true ∧ w.session.running = false ∧ w' = w.began duration interval
  | _, .requestStop, _, w' =>
    w' = { w with session := { w.session with stop := true }, notes := .stopped :: w.notes }
  | _, .readState, _, w' | _, .now, _, w' | _, .sleepUntil _, _, w' => w' = w
  | _, .openLog, file, w' => w' = w ∧ ∀ f, file = some f → w.log = some f
  | _, .length file, _, w' => w' = w ∨
      w' = { w with notes := .served file ((w.content file).take maxBytes) :: w.notes }
  | _, .openNew, file, w' => (∃ e, file = .error e ∧ w' = w) ∨
      file = .ok w.created.1 ∧ w' = w.created.2
  | _, .write file bytes, result, w' => (∃ e, result = .error e ∧ w' = w) ∨
      ∃ n, result = .ok n ∧ n ≤ bytes.length ∧
        w' = w.setFile file (w.content file ++ bytes.take n) (w.samples file)
  | _, .rename, result, w' => (∃ e, result = .error e ∧ w' = w) ∨
      result = .ok () ∧ w' = { w with log := w.new, new := none }
  | _, .checkStop, stopped, w' => stopped = w.session.stop ∧ w' = w
  | _, .readRadio, s, w' => ∀ r, c = .runner r → w' = w.sampledBy r s
  | _, .setError error, _, w' => w' = { w with session := { w.session with error } }
  | _, .addRow, _, w' => w' = { w with session := { w.session with rows := w.session.rows + 1 } }
  | _, .finish error, _, w' => ∀ r, c = .runner r → w' = w.finishedBy r error

theorem exec_effect {β : Type} {a : Call β} {c : Ctx} {e : Choice} {w w' : World} {result : β}
    (h : exec a c e w = some (result, w')) : Effect c w a result w' := by
  cases a with
  | tryStart duration interval =>
    -- A session that runs refuses to be started again.
    simp only [exec] at h
    split at h
    · cases h
      exact .inl ⟨rfl, rfl⟩
    · rename_i hidle
      cases h
      exact .inr ⟨rfl, by simpa using hidle, rfl⟩
  | openLog =>
    cases e with
    | found b =>
      cases h
      refine ⟨rfl, fun f hf => ?_⟩
      cases b with
      | false => cases hf
      | true => exact hf
    | go | result | written | sample => cases h
  | length file =>
    cases e with
    | found b =>
      simp only [exec] at h
      split at h
      · cases h
        exact .inr rfl
      · cases h
        exact .inl rfl
    | go | result | written | sample => cases h
  | openNew =>
    cases e with
    | result r =>
      cases r with
      | error e =>
        cases h
        exact .inl ⟨e, rfl, rfl⟩
      | ok done =>
        cases h
        exact .inr ⟨rfl, rfl⟩
    | go | found | written | sample => cases h
  | write file bytes =>
    cases e with
    | written r =>
      cases r with
      | error e =>
        cases h
        exact .inl ⟨e, rfl, rfl⟩
      | ok n =>
        simp only [exec] at h
        split at h
        · rename_i hn
          cases h
          -- A write takes no more bytes than it was given.
          exact .inr ⟨n, rfl, hn, rfl⟩
        · cases h
    | go | result | found | sample => cases h
  | rename =>
    cases e with
    | result r =>
      cases r with
      | error e =>
        cases h
        exact .inl ⟨e, rfl, rfl⟩
      | ok done =>
        simp only [exec] at h
        split at h
        · cases h
          exact .inr ⟨rfl, rfl⟩
        · cases h
    | go | found | written | sample => cases h
  | readRadio =>
    cases e with
    | sample s =>
      -- Only the thread of a session takes samples.
      rintro r rfl
      cases h
      rfl
    | go | result | found | written => cases h
  | sleepUntil instant =>
    simp only [exec] at h
    split at h
    · cases h
      exact rfl
    · cases h
  | checkStop =>
    cases h
    exact ⟨rfl, rfl⟩
  | finish error =>
    rintro r rfl
    cases h
    rfl
  | requestStop | readState | now | setError | addRow =>
    cases h
    exact rfl

/-! ### One session at a time -/

/-- The thread of a session. -/
def Ctx.isRunner : Ctx → Bool
  | .runner _ => true
  | _ => false

section Contexts

variable {w : World} {cs new : List Ctx} {i : Nat} {c c' : Ctx}

/-- The thread of the session that acts is the only one. -/
theorem runner_unique {held : Bool} (h : Exclusive held Ctx.isRunner cs) {r r' : Runner}
    (hc : cs[i]? = some (.runner r)) (hr' : .runner r' ∈ cs.set i c' ++ []) : c' = .runner r' := by
  rcases Pool.mem_update hr' with heq | ⟨j, hj, hother⟩ | hnew
  · exact heq.symm
  · cases Pool.others_not h.once hc rfl hj hother
  · cases hnew

end Contexts

/-- One session at a time, and what it counts. -/
structure Alone (w : World) (cs : List Ctx) : Prop where
  single : Exclusive w.session.running Ctx.isRunner cs
  counted : ∀ r, .runner r ∈ cs → w.session.rows = r.counted
  limit : ∀ r, .runner r ∈ cs → r.limit ≤ 86400

section Alone

variable {w w' : World} {cs : List Ctx} {i : Nat} {c c' : Ctx}

/-- A step after which the same session is under way, and has counted the same. -/
theorem Alone.keep (h : Alone w cs) (hc : cs[i]? = some c)
    (hsession : w'.session.running = w.session.running ∧ w'.session.rows = w.session.rows)
    (hrunner : c'.isRunner = c.isRunner)
    (hlike : ∀ r', c' = .runner r' → ∃ r, c = .runner r ∧ r'.counted = r.counted ∧
      r'.limit = r.limit) : Alone w' (cs.set i c' ++ []) where
  single := by
    rw [hsession.1]
    exact h.single.keep hc hrunner (by simp)
  counted r' hr' := by
    rw [hsession.2]
    rcases Pool.mem_update hr' with heq | ⟨j, -, hother⟩ | hnew
    · obtain ⟨r, rfl, hcounted, -⟩ := hlike r' heq.symm
      exact (h.counted r (List.mem_of_getElem? hc)).trans hcounted.symm
    · exact h.counted r' (List.mem_of_getElem? hother)
    · cases hnew
  limit r' hr' := by
    rcases Pool.mem_update hr' with heq | ⟨j, -, hother⟩ | hnew
    · obtain ⟨r, rfl, -, hlimit⟩ := hlike r' heq.symm
      exact hlimit ▸ h.limit r (List.mem_of_getElem? hc)
    · exact h.limit r' (List.mem_of_getElem? hother)
    · cases hnew

/-- A request starts no session and ends none. -/
theorem Alone.request (h : Alone w cs) {opened : Option Nat} (hc : cs[i]? = some (.request opened))
    (opened' : Option Nat) (hsession : w'.session.running = w.session.running ∧
      w'.session.rows = w.session.rows) : Alone w' (cs.set i (.request opened') ++ []) :=
  h.keep hc hsession rfl fun _ heq => by cases heq

/-- A session's thread goes on. -/
theorem Alone.runner (h : Alone w cs) {r r' : Runner} (hc : cs[i]? = some (.runner r))
    (hlike : r'.counted = r.counted ∧ r'.limit = r.limit)
    (hsession : w'.session.running = w.session.running ∧ w'.session.rows = w.session.rows) :
    Alone w' (cs.set i (.runner r') ++ []) :=
  h.keep hc hsession rfl fun _ heq => by
    cases heq
    exact ⟨r, rfl, hlike⟩

/-- Every action that a thread may perform keeps it. -/
theorem alone_act {β : Type} {a : Call β} {result : β} (h : Alone w cs) (hc : cs[i]? = some c)
    (hok : c.allows header rows a) (he : Effect c w a result w') :
    Alone w' (cs.set i (c.after a result) ++
      ((machine header rows).spawns c a result).map Prod.snd) := by
  cases a with
  | tryStart duration interval =>
    obtain ⟨⟨opened, rfl⟩, hlimit⟩ := hok
    rcases he with ⟨rfl, rfl⟩ | ⟨rfl, hidle, rfl⟩
    · exact h.request hc opened ⟨rfl, rfl⟩
    · have hwaiting : Alone w (cs.set i (.request opened) ++ []) := h.request hc opened ⟨rfl, rfl⟩
      have hsingle := hwaiting.single
      rw [hidle, List.append_nil] at hsingle
      have honly : ∀ r, .runner r ∈ cs.set i (.request opened) ++
          [.runner ({ limit := duration } : Runner)] → r = { limit := duration } := by
        intro r hr
        rcases List.mem_append.mp hr with hold | hnew
        · cases hsingle.free rfl _ hold
        · cases List.mem_singleton.mp hnew
          rfl
      refine ⟨hsingle.enter _, fun r hr => ?_, fun r hr => ?_⟩
      · rw [honly r hr]
        rfl
      · rw [honly r hr]
        exact hlimit
  | requestStop =>
    obtain ⟨opened, rfl⟩ := hok
    cases he
    exact h.request hc opened ⟨rfl, rfl⟩
  | readState =>
    obtain ⟨opened, rfl⟩ := hok
    cases he
    exact h.request hc opened ⟨rfl, rfl⟩
  | openLog =>
    obtain ⟨opened, rfl⟩ := hok
    cases he.1
    exact h.request hc result ⟨rfl, rfl⟩
  | length file =>
    obtain rfl : c = .request (some file) := hok
    rcases he with rfl | rfl
    · exact h.request hc _ ⟨rfl, rfl⟩
    · exact h.request hc _ ⟨rfl, rfl⟩
  | openNew =>
    obtain ⟨limit, rfl⟩ := hok
    rcases he with ⟨e, rfl, rfl⟩ | ⟨rfl, rfl⟩
    · exact h.runner hc ⟨rfl, rfl⟩ ⟨rfl, rfl⟩
    · exact h.runner hc ⟨rfl, rfl⟩ ⟨rfl, rfl⟩
  | write file bytes =>
    obtain ⟨r, rfl, -⟩ := hok
    rcases he with ⟨e, rfl, rfl⟩ | ⟨n, rfl, -, rfl⟩
    · exact h.runner hc ⟨rfl, rfl⟩ ⟨rfl, rfl⟩
    · exact h.runner hc ⟨rfl, rfl⟩ ⟨rfl, rfl⟩
  | rename =>
    obtain ⟨r, rfl, -⟩ := hok
    rcases he with ⟨e, rfl, rfl⟩ | ⟨rfl, rfl⟩
    · exact h.runner hc ⟨rfl, rfl⟩ ⟨rfl, rfl⟩
    · exact h.runner hc ⟨rfl, rfl⟩ ⟨rfl, rfl⟩
  | now | setError | sleepUntil =>
    obtain ⟨r, rfl⟩ := hok
    cases he
    exact h.runner hc ⟨rfl, rfl⟩ ⟨rfl, rfl⟩
  | checkStop =>
    obtain ⟨r, rfl⟩ := hok
    obtain ⟨-, rfl⟩ := he
    exact h.runner hc ⟨rfl, rfl⟩ ⟨rfl, rfl⟩
  | readRadio =>
    obtain ⟨r, t, rfl, -⟩ := hok
    cases he r rfl
    exact h.runner hc ⟨rfl, rfl⟩ ⟨rfl, rfl⟩
  | addRow =>
    obtain ⟨r, rfl, -⟩ := hok
    cases he
    have hcounted := h.counted r (List.mem_of_getElem? hc)
    have hlimit := h.limit r (List.mem_of_getElem? hc)
    refine ⟨h.single.keep hc rfl fun _ hx => absurd hx List.not_mem_nil, fun r' hr' => ?_,
      fun r' hr' => ?_⟩
    · cases runner_unique h.single hc hr'
      exact congrArg (· + 1) hcounted
    · cases runner_unique h.single hc hr'
      exact hlimit
  | finish error =>
    obtain ⟨r, rfl, -⟩ := hok
    cases he r rfl
    refine ⟨h.single.release hc rfl rfl, fun r' hr' => ?_, fun r' hr' => ?_⟩
    · cases runner_unique h.single hc hr'
    · cases runner_unique h.single hc hr'

end Alone

/-! ### The files -/

/-- The file of the session under way holds what its thread has written. It has its own name until
it takes the log's. -/
structure Tracked (header : String) (rows : Rows) (w : World) (r : Runner) : Prop where
  known : w.samples r.file = some r.samples
  content : w.content r.file = (due header rows r.samples).take r.written
  within : r.written ≤ (due header rows r.samples).length
  few : r.written ≤ maxBytes
  place : r.stage = .preparing → w.new = some r.file

/-- What is in the files, from the world `w₀` on. A file that a session opened for writing holds the
beginning of what is due; one that none has opened is as it was. A download that has begun, or is
about to, has a file that no session will write anew. -/
structure Filed (header : String) (rows : Rows) (w₀ w : World) (cs : List Ctx) : Prop where
  tracked : ∀ r, .runner r ∈ cs → r.stage ≠ .opening → Tracked header rows w r
  filed : ∀ f samples, w.samples f = some samples →
    w.content f <+: due header rows samples ∧ (w.content f).length ≤ maxBytes
  kept : ∀ f, w.samples f = none → w.content f = w₀.content f
  shown : ∀ f samples, w.log = some f → w.samples f = some samples →
    text [header] <+: w.content f
  apart : ∀ f, w.log = some f → w.new ≠ some f
  named : ∀ f, w.log = some f ∨ w.new = some f → f < w.next
  opened : ∀ f, .request (some f) ∈ cs → f < w.next ∧ w.new ≠ some f
  served : ∀ f bytes, .served f bytes ∈ w.notes →
    bytes <+: w.content f ∧ f < w.next ∧ w.new ≠ some f

/-- The files of two worlds are the same. -/
structure SameFiles (w w' : World) : Prop where
  content : w'.content = w.content
  log : w'.log = w.log
  new : w'.new = w.new
  next : w'.next = w.next
  samples : w'.samples = w.samples

theorem SameFiles.refl (w : World) : SameFiles w w := ⟨rfl, rfl, rfl, rfl, rfl⟩

section Filed

variable {w₀ w w' : World} {cs new : List Ctx} {i : Nat} {c c' : Ctx}

theorem Tracked.same {r r' : Runner} (h : Tracked header rows w r) (hw : SameFiles w w')
    (hlike : r'.stage = r.stage ∧ r'.file = r.file ∧ r'.samples = r.samples ∧
      r'.written = r.written) : Tracked header rows w' r' := by
  obtain ⟨hstage, hfile, hsamples, hwritten⟩ := hlike
  obtain ⟨known, content, within, few, place⟩ := h
  refine ⟨?_, ?_, ?_, ?_, fun hpreparing => ?_⟩
  · rw [hw.samples, hfile, hsamples, known]
  · rw [hw.content, hfile, hsamples, hwritten, content]
  · rw [hsamples, hwritten]
    exact within
  · rw [hwritten]
    exact few
  · rw [hw.new, hfile]
    exact place (hstage ▸ hpreparing)

/-- A step that leaves the files alone, and starts only threads without a file. -/
theorem Filed.keep (h : Filed header rows w₀ w cs) (hc : cs[i]? = some c) (hw : SameFiles w w')
    (hserved : ∀ f bytes, .served f bytes ∈ w'.notes → .served f bytes ∈ w.notes)
    (hrunner : ∀ r', c' = .runner r' → r'.stage ≠ .opening → ∃ r, c = .runner r ∧
      r'.stage = r.stage ∧ r'.file = r.file ∧ r'.samples = r.samples ∧ r'.written = r.written)
    (hopened : ∀ f, c' = .request (some f) → c = .request (some f))
    (hnew : ∀ x ∈ new, ∃ limit, x = .runner { limit }) :
    Filed header rows w₀ w' (cs.set i c' ++ new) := by
  refine ⟨fun r' hr' hstage => ?_, ?_, ?_, ?_, ?_, ?_, fun f hf => ?_, fun f bytes hf => ?_⟩
  · rcases Pool.mem_update hr' with heq | ⟨j, -, hother⟩ | hnew'
    · obtain ⟨r, rfl, hlike⟩ := hrunner r' heq.symm hstage
      refine (h.tracked r (List.mem_of_getElem? hc) ?_).same hw hlike
      rw [← hlike.1]
      exact hstage
    · exact (h.tracked r' (List.mem_of_getElem? hother) hstage).same hw ⟨rfl, rfl, rfl, rfl⟩
    · obtain ⟨limit, heq⟩ := hnew _ hnew'
      cases heq
      exact absurd rfl hstage
  · rw [hw.samples, hw.content]
    exact h.filed
  · rw [hw.samples, hw.content]
    exact h.kept
  · rw [hw.samples, hw.content, hw.log]
    exact h.shown
  · rw [hw.log, hw.new]
    exact h.apart
  · rw [hw.log, hw.new, hw.next]
    exact h.named
  · rw [hw.next, hw.new]
    rcases Pool.mem_update hf with heq | ⟨j, -, hother⟩ | hnew'
    · exact h.opened f (hopened f heq.symm ▸ List.mem_of_getElem? hc)
    · exact h.opened f (List.mem_of_getElem? hother)
    · obtain ⟨limit, heq⟩ := hnew _ hnew'
      cases heq
  · rw [hw.content, hw.next, hw.new]
    exact h.served f bytes (hserved f bytes hf)

/-- A request goes on without opening the log. -/
theorem Filed.request (h : Filed header rows w₀ w cs) {opened : Option Nat}
    (hc : cs[i]? = some (.request opened)) (hw : SameFiles w w')
    (hserved : ∀ f bytes, .served f bytes ∈ w'.notes → .served f bytes ∈ w.notes)
    (hnew : ∀ x ∈ new, ∃ limit, x = .runner { limit }) :
    Filed header rows w₀ w' (cs.set i (.request opened) ++ new) :=
  h.keep hc hw hserved (fun _ heq => by cases heq) (fun _ heq => heq) hnew

/-- A session's thread goes on with its file as it was. -/
theorem Filed.runner (h : Filed header rows w₀ w cs) {r r' : Runner}
    (hc : cs[i]? = some (.runner r)) (hlike : r'.stage = r.stage ∧ r'.file = r.file ∧
      r'.samples = r.samples ∧ r'.written = r.written) (hw : SameFiles w w')
    (hserved : ∀ f bytes, .served f bytes ∈ w'.notes → .served f bytes ∈ w.notes) :
    Filed header rows w₀ w' (cs.set i (.runner r') ++ []) := by
  refine h.keep hc hw hserved (fun r'' heq _ => ?_) (fun f heq => ?_)
    fun x hx => absurd hx List.not_mem_nil
  · cases heq
    exact ⟨r, rfl, hlike⟩
  · cases heq

/-- The log is opened for a download. -/
theorem Filed.open (h : Filed header rows w₀ w cs) (file : Option Nat)
    (hfile : ∀ f, file = some f → w.log = some f) :
    Filed header rows w₀ w (cs.set i (.request file) ++ []) := by
  refine ⟨fun r hr hstage => ?_, h.filed, h.kept, h.shown, h.apart, h.named, fun f hf => ?_,
    h.served⟩
  · rcases Pool.mem_update hr with heq | ⟨j, -, hother⟩ | hnew
    · cases heq
    · exact h.tracked r (List.mem_of_getElem? hother) hstage
    · cases hnew
  · rcases Pool.mem_update hf with heq | ⟨j, -, hother⟩ | hnew
    · cases heq
      exact ⟨h.named f (.inl (hfile f rfl)), h.apart f (hfile f rfl)⟩
    · exact h.opened f (List.mem_of_getElem? hother)
    · cases hnew

/-- The beginning of the log is promised to a download. -/
theorem Filed.serve (h : Filed header rows w₀ w cs) {file : Nat}
    (hc : cs[i]? = some (.request (some file))) :
    Filed header rows w₀
      { w with notes := .served file ((w.content file).take maxBytes) :: w.notes }
      (cs.set i (.request (some file)) ++ []) := by
  rw [Pool.set_self hc]
  refine ⟨fun r hr hstage => ?_, h.filed, h.kept, h.shown, h.apart, h.named, h.opened,
    fun f bytes hf => ?_⟩
  · exact (h.tracked r hr hstage).same ⟨rfl, rfl, rfl, rfl, rfl⟩ ⟨rfl, rfl, rfl, rfl⟩
  · rcases List.mem_cons.mp hf with heq | hold
    · cases heq
      exact ⟨List.take_prefix _ _, h.opened file (List.mem_of_getElem? hc)⟩
    · exact h.served f bytes hold

/-- A file is not the one that a thread opens for writing. -/
theorem ne_created {f : Nat} (hnext : f < w.next) (hnew : w.new ≠ some f) : f ≠ w.created.1 := by
  unfold World.created
  cases hname : w.new with
  | none => exact Nat.ne_of_lt hnext
  | some g =>
    rintro rfl
    exact hnew hname

/-- A session opens its file. Nobody reads the one that it empties. -/
theorem Filed.create (h : Filed header rows w₀ w cs) {held : Bool}
    (hsingle : Exclusive held Ctx.isRunner cs) {limit : Nat}
    (hc : cs[i]? = some (.runner { limit })) :
    Filed header rows w₀ w.created.2
      (cs.set i (.runner { stage := .preparing, file := w.created.1, limit }) ++ []) := by
  have hself : w.created.2.content w.created.1 = [] ∧
      w.created.2.samples w.created.1 = some [] := ⟨if_pos rfl, if_pos rfl⟩
  have hother : ∀ f, f ≠ w.created.1 → w.created.2.content f = w.content f ∧
      w.created.2.samples f = w.samples f := fun f hf => ⟨if_neg hf, if_neg hf⟩
  have hnext : w.next ≤ w.created.2.next ∧ w.created.1 < w.created.2.next :=
    ⟨Nat.le_max_left _ _, Nat.lt_of_lt_of_le (Nat.lt_succ_self _) (Nat.le_max_right _ _)⟩
  -- What is read keeps its content and its place.
  have hread : ∀ f, f < w.next → w.new ≠ some f →
      w.created.2.content f = w.content f ∧ f < w.created.2.next ∧ w.created.2.new ≠ some f := by
    intro f hf hnew
    have hne := ne_created hf hnew
    refine ⟨(hother f hne).1, Nat.lt_of_lt_of_le hf hnext.1, fun heq => hne ?_⟩
    exact (Option.some.inj heq).symm
  refine ⟨fun r hr _ => ?_, fun f samples hf => ?_, fun f hf => ?_, fun f samples hlog hf => ?_,
    fun f hlog => ?_, fun f hf => ?_, fun f hf => ?_, fun f bytes hf => ?_⟩
  · cases runner_unique hsingle hc hr
    exact ⟨hself.2, hself.1, Nat.zero_le _, Nat.zero_le _, fun _ => rfl⟩
  · by_cases hf' : f = w.created.1
    · subst hf'
      rw [hself.1]
      exact ⟨List.nil_prefix, Nat.zero_le _⟩
    · rw [(hother f hf').2] at hf
      rw [(hother f hf').1]
      exact h.filed f samples hf
  · by_cases hf' : f = w.created.1
    · subst hf'
      rw [hself.2] at hf
      cases hf
    · rw [(hother f hf').2] at hf
      rw [(hother f hf').1]
      exact h.kept f hf
  · have hlog' : w.log = some f := hlog
    have hne := ne_created (h.named f (.inl hlog')) (h.apart f hlog')
    rw [(hother f hne).2] at hf
    rw [(hother f hne).1]
    exact h.shown f samples hlog' hf
  · have hlog' : w.log = some f := hlog
    exact (hread f (h.named f (.inl hlog')) (h.apart f hlog')).2.2
  · rcases hf with hlog | hnew
    · exact Nat.lt_of_lt_of_le (h.named f (.inl hlog)) hnext.1
    · cases hnew
      exact hnext.2
  · rcases Pool.mem_update hf with heq | ⟨j, -, hold⟩ | hnew
    · cases heq
    · obtain ⟨hlt, hne⟩ := h.opened f (List.mem_of_getElem? hold)
      exact (hread f hlt hne).2
    · cases hnew
  · obtain ⟨hpart, hlt, hne⟩ := h.served f bytes hf
    obtain ⟨hcontent, hplace⟩ := hread f hlt hne
    exact ⟨hcontent ▸ hpart, hplace⟩

/-- A session writes some of the bytes that are due. -/
theorem Filed.write (h : Filed header rows w₀ w cs) {held : Bool}
    (hsingle : Exclusive held Ctx.isRunner cs) {r : Runner} (hc : cs[i]? = some (.runner r))
    (hstage : r.stage ≠ .opening) {bytes : Bytes} {n : Nat} (hdue : bytes <+: r.rest header rows)
    (hfew : r.written + bytes.length ≤ maxBytes) (hn : n ≤ bytes.length) :
    Filed header rows w₀
      (w.setFile r.file (w.content r.file ++ bytes.take n) (w.samples r.file))
      (cs.set i (.runner { r with written := r.written + n }) ++ []) := by
  have htracked := h.tracked r (List.mem_of_getElem? hc) hstage
  obtain ⟨more, hmore⟩ := hdue
  have hrest : (due header rows r.samples).drop r.written = bytes ++ more := hmore.symm
  -- What was written so far is a beginning of what is due, and the new bytes come next.
  have hcontent : w.content r.file ++ bytes.take n =
      (due header rows r.samples).take (r.written + n) := by
    rw [htracked.content, List.take_add, hrest, List.take_append_of_le_length hn]
  have hwithin : r.written + n ≤ (due header rows r.samples).length := by
    have hlength := congrArg List.length hrest
    rw [List.length_drop, List.length_append] at hlength
    have := htracked.within
    omega
  have hother : ∀ f, f ≠ r.file → (w.setFile r.file (w.content r.file ++ bytes.take n)
      (w.samples r.file)).content f = w.content f := fun f hf => if_neg hf
  have hself : (w.setFile r.file (w.content r.file ++ bytes.take n)
      (w.samples r.file)).content r.file = w.content r.file ++ bytes.take n := if_pos rfl
  have hsamples : (w.setFile r.file (w.content r.file ++ bytes.take n)
      (w.samples r.file)).samples = w.samples := by
    funext f
    show (if f = r.file then w.samples r.file else w.samples f) = w.samples f
    split
    · rename_i hf
      rw [hf]
    · rfl
  -- A file only grows, so what was shown of it stays right.
  have hgrown : ∀ f, w.content f <+: (w.setFile r.file (w.content r.file ++ bytes.take n)
      (w.samples r.file)).content f := by
    intro f
    by_cases hf : f = r.file
    · subst hf
      rw [hself]
      exact List.prefix_append _ _
    · rw [hother f hf]
  refine ⟨fun r' hr' _ => ?_, fun f samples hf => ?_, fun f hf => ?_, fun f samples hlog hf => ?_,
    h.apart, h.named, fun f hf => ?_, fun f bytes' hf => ?_⟩
  · cases runner_unique hsingle hc hr'
    refine ⟨?_, ?_, hwithin, ?_, htracked.place⟩
    · rw [hsamples]
      exact htracked.known
    · exact hself.trans hcontent
    · show r.written + n ≤ maxBytes
      omega
  · rw [hsamples] at hf
    by_cases hf' : f = r.file
    · subst hf'
      obtain rfl : samples = r.samples := Option.some.inj (hf.symm.trans htracked.known)
      rw [hself, hcontent]
      refine ⟨List.take_prefix _ _, ?_⟩
      rw [List.length_take]
      omega
    · rw [hother f hf']
      exact h.filed f samples hf
  · rw [hsamples] at hf
    -- A file without samples is none of a session.
    have hne : f ≠ r.file := by
      rintro rfl
      cases hf.symm.trans htracked.known
    rw [hother f hne]
    exact h.kept f hf
  · rw [hsamples] at hf
    exact (h.shown f samples hlog hf).trans (hgrown f)
  · rcases Pool.mem_update hf with heq | ⟨j, -, hold⟩ | hnew
    · cases heq
    · exact h.opened f (List.mem_of_getElem? hold)
    · cases hnew
  · obtain ⟨hpart, hplace⟩ := h.served f bytes' hf
    exact ⟨hpart.trans (hgrown f), hplace⟩

/-- The file of a session takes the place of the log, with its header in it. -/
theorem Filed.rename (h : Filed header rows w₀ w cs) {held : Bool}
    (hsingle : Exclusive held Ctx.isRunner cs) {r : Runner} (hc : cs[i]? = some (.runner r))
    (hstage : r.stage = .preparing) (hwritten : (text [header]).length ≤ r.written) :
    Filed header rows w₀ { w with log := w.new, new := none }
      (cs.set i (.runner { r with stage := .logging }) ++ []) := by
  have hopening : r.stage ≠ .opening := by
    rw [hstage]
    decide
  have htracked := h.tracked r (List.mem_of_getElem? hc) hopening
  -- The file was new until now. Its header is written, so the log begins with it.
  have hplace := htracked.place hstage
  refine ⟨fun r' hr' _ => ?_, h.filed, h.kept, fun f samples hlog hf => ?_, fun f _ => ?_,
    fun f hf => ?_, fun f hf => ?_, fun f bytes hf => ?_⟩
  · cases runner_unique hsingle hc hr'
    exact ⟨htracked.known, htracked.content, htracked.within, htracked.few, fun h => by cases h⟩
  · obtain rfl : r.file = f := Option.some.inj (hplace.symm.trans hlog)
    show text [header] <+: w.content r.file
    rw [htracked.content]
    exact List.prefix_take_iff.mpr ⟨header_begins r.samples, hwritten⟩
  · simp
  · rcases hf with hlog | hnew
    · exact h.named f (.inr hlog)
    · cases hnew
  · rcases Pool.mem_update hf with heq | ⟨j, -, hold⟩ | hnew
    · cases heq
    · exact ⟨(h.opened f (List.mem_of_getElem? hold)).1, by simp⟩
    · cases hnew
  · obtain ⟨hpart, hlt, -⟩ := h.served f bytes hf
    exact ⟨hpart, hlt, by simp⟩

/-- A session takes a sample, and more is due. -/
theorem Filed.sample (h : Filed header rows w₀ w cs) {held : Bool}
    (hsingle : Exclusive held Ctx.isRunner cs) {r : Runner} (hc : cs[i]? = some (.runner r))
    (hstage : r.stage ≠ .opening) (s : Sample) :
    Filed header rows w₀ (w.sampledBy r s)
      (cs.set i (.runner { r with samples := s :: r.samples, cleared := false }) ++ []) := by
  have htracked := h.tracked r (List.mem_of_getElem? hc) hstage
  -- A sample writes nothing yet.
  have hcontent : (w.sampledBy r s).content = w.content := by
    funext f
    show (if f = r.file then w.content r.file else w.content f) = w.content f
    split
    · rename_i hf
      rw [hf]
    · rfl
  have hself : (w.sampledBy r s).samples r.file = some (s :: r.samples) := if_pos rfl
  have hother : ∀ f, f ≠ r.file → (w.sampledBy r s).samples f = w.samples f := fun f hf => if_neg hf
  -- More rows are due, and the ones that were due stay where they are.
  have hmore : due header rows r.samples <+: due header rows (s :: r.samples) := by
    rw [due_cons]
    exact List.prefix_append _ _
  refine ⟨fun r' hr' _ => ?_, fun f samples hf => ?_, fun f hf => ?_, fun f samples hlog hf => ?_,
    h.apart, h.named, fun f hf => ?_, fun f bytes hf => ?_⟩
  · cases runner_unique hsingle hc hr'
    refine ⟨hself, ?_, Nat.le_trans htracked.within hmore.length_le, htracked.few, htracked.place⟩
    rw [hcontent, due_cons]
    show w.content r.file = _
    rw [List.take_append_of_le_length htracked.within]
    exact htracked.content
  · rw [hcontent]
    by_cases hf' : f = r.file
    · subst hf'
      obtain rfl : s :: r.samples = samples := Option.some.inj (hself.symm.trans hf)
      obtain ⟨hpart, hfew⟩ := h.filed r.file r.samples htracked.known
      exact ⟨hpart.trans hmore, hfew⟩
    · rw [hother f hf'] at hf
      exact h.filed f samples hf
  · have hne : f ≠ r.file := by
      rintro rfl
      cases hself.symm.trans hf
    rw [hother f hne] at hf
    rw [hcontent]
    exact h.kept f hf
  · rw [hcontent]
    by_cases hf' : f = r.file
    · subst hf'
      exact h.shown r.file r.samples hlog htracked.known
    · rw [hother f hf'] at hf
      exact h.shown f samples hlog hf
  · rcases Pool.mem_update hf with heq | ⟨j, -, hold⟩ | hnew
    · cases heq
    · exact h.opened f (List.mem_of_getElem? hold)
    · cases hnew
  · rw [hcontent]
    exact h.served f bytes (by simpa [World.sampledBy] using hf)

/-- Every action that a thread may perform keeps it. -/
theorem filed_act {β : Type} {a : Call β} {result : β} (h : Filed header rows w₀ w cs)
    {held : Bool} (hsingle : Exclusive held Ctx.isRunner cs) (hc : cs[i]? = some c)
    (hok : c.allows header rows a) (he : Effect c w a result w') :
    Filed header rows w₀ w' (cs.set i (c.after a result) ++
      ((machine header rows).spawns c a result).map Prod.snd) := by
  -- The files change in four cases only: a new file, a write, the renaming and a sample.
  have hsame : SameFiles w w := .refl w
  have hnone : ∀ x ∈ ([] : List Ctx), ∃ limit, x = .runner { limit } :=
    fun x hx => absurd hx List.not_mem_nil
  cases a with
  | tryStart duration interval =>
    obtain ⟨⟨opened, rfl⟩, -⟩ := hok
    rcases he with ⟨rfl, rfl⟩ | ⟨rfl, -, rfl⟩
    · exact h.request hc hsame (fun _ _ => id) hnone
    · refine h.request hc ⟨rfl, rfl, rfl, rfl, rfl⟩ (fun f bytes hf => ?_) fun x hx => ?_
      · simpa [World.began] using hf
      · exact ⟨duration, List.mem_singleton.mp hx⟩
  | requestStop =>
    obtain ⟨opened, rfl⟩ := hok
    cases he
    refine h.request hc ⟨rfl, rfl, rfl, rfl, rfl⟩ (fun f bytes hf => ?_) hnone
    simpa using hf
  | readState =>
    obtain ⟨opened, rfl⟩ := hok
    cases he
    exact h.request hc hsame (fun _ _ => id) hnone
  | openLog =>
    obtain ⟨opened, rfl⟩ := hok
    obtain ⟨rfl, hfile⟩ := he
    exact h.open result hfile
  | length file =>
    obtain rfl : c = .request (some file) := hok
    rcases he with rfl | rfl
    · exact h.request hc hsame (fun _ _ => id) hnone
    · exact h.serve hc
  | openNew =>
    obtain ⟨limit, rfl⟩ := hok
    rcases he with ⟨e, rfl, rfl⟩ | ⟨rfl, rfl⟩
    · exact h.runner hc ⟨rfl, rfl, rfl, rfl⟩ hsame fun _ _ => id
    · exact h.create hsingle hc
  | write file bytes =>
    obtain ⟨r, rfl, hstage, rfl, hdue, hfew⟩ := hok
    rcases he with ⟨e, rfl, rfl⟩ | ⟨n, rfl, hn, rfl⟩
    · exact h.runner hc ⟨rfl, rfl, rfl, rfl⟩ hsame fun _ _ => id
    · exact h.write hsingle hc hstage hdue hfew hn
  | rename =>
    obtain ⟨r, rfl, hstage, hwritten⟩ := hok
    rcases he with ⟨e, rfl, rfl⟩ | ⟨rfl, rfl⟩
    · exact h.runner hc ⟨rfl, rfl, rfl, rfl⟩ hsame fun _ _ => id
    · exact h.rename hsingle hc hstage hwritten
  | now | sleepUntil =>
    obtain ⟨r, rfl⟩ := hok
    cases he
    exact h.runner hc ⟨rfl, rfl, rfl, rfl⟩ hsame fun _ _ => id
  | setError =>
    obtain ⟨r, rfl⟩ := hok
    cases he
    exact h.runner hc ⟨rfl, rfl, rfl, rfl⟩ ⟨rfl, rfl, rfl, rfl, rfl⟩ fun _ _ => id
  | checkStop =>
    obtain ⟨r, rfl⟩ := hok
    obtain ⟨-, rfl⟩ := he
    exact h.runner hc ⟨rfl, rfl, rfl, rfl⟩ hsame fun _ _ => id
  | readRadio =>
    obtain ⟨r, t, rfl, hstage, -⟩ := hok
    cases he r rfl
    refine h.sample hsingle hc ?_ result
    rw [hstage]
    decide
  | addRow =>
    obtain ⟨r, rfl, -⟩ := hok
    cases he
    exact h.runner hc ⟨rfl, rfl, rfl, rfl⟩ ⟨rfl, rfl, rfl, rfl, rfl⟩ fun _ _ => id
  | finish error =>
    obtain ⟨r, rfl, -⟩ := hok
    cases he r rfl
    refine h.keep hc ⟨rfl, rfl, rfl, rfl, rfl⟩ (fun f bytes hf => ?_) (fun _ heq => ?_)
      (fun _ heq => ?_) hnone
    · simpa [World.finishedBy] using hf
    · cases heq
    · cases heq

end Filed

/-! ### Stops and ends -/

/-- How many samples were taken since a session was told to stop, if it was. -/
def afterStop : List Note → Option Nat
  | [] => none
  | .started :: _ => none
  | .restarted :: _ => none
  | .stopped :: earlier => some ((afterStop earlier).getD 0)
  | .sampled _ _ _ :: earlier => (afterStop earlier).map (· + 1)
  | _ :: earlier => afterStop earlier

/-- A sample was taken within the duration of its session. A session that ended without an error has
written everything that was due, and counted every row. -/
def Note.Right (header : String) (rows : Rows) : Note → Prop
  | .sampled begun looked limit => looked < begun + 1000 * limit ∧ limit ≤ 86400
  | .finished samples counted content error => error = none →
      content = due header rows samples ∧ counted = (recorded rows samples).1.length
  | _ => True

/-- What the notes say, and what the session under way knows of stops. -/
structure Told (header : String) (rows : Rows) (w : World) (cs : List Ctx) : Prop where
  right : ∀ n ∈ w.notes, n.Right header rows
  stop : w.session.stop = (afterStop w.notes).isSome
  late : ∀ n, afterStop w.notes = some n →
    n ≤ 1 ∧ ∀ r, .runner r ∈ cs → r.cleared = true → n = 0

section Told

variable {w₀ w w' : World} {cs : List Ctx} {i : Nat} {c c' : Ctx}

/-- A step that tells nothing of samples or stops. -/
theorem Told.keep (h : Told header rows w cs) (hc : cs[i]? = some c)
    (hright : ∀ n ∈ w'.notes, n ∈ w.notes ∨ n.Right header rows)
    (hafter : afterStop w'.notes = afterStop w.notes) (hstop : w'.session.stop = w.session.stop)
    (hcleared : ∀ r', c' = .runner r' → r'.cleared = true → ∃ r, c = .runner r ∧ r.cleared = true) :
    Told header rows w' (cs.set i c' ++ []) where
  right n hn := (hright n hn).elim (h.right n) id
  stop := by
    rw [hstop, hafter]
    exact h.stop
  late n hn := by
    rw [hafter] at hn
    obtain ⟨hle, hnone⟩ := h.late n hn
    refine ⟨hle, fun r' hr' hset => ?_⟩
    rcases Pool.mem_update hr' with heq | ⟨j, -, hother⟩ | hnew
    · obtain ⟨r, rfl, hr⟩ := hcleared r' heq.symm hset
      exact hnone r (List.mem_of_getElem? hc) hr
    · exact hnone r' (List.mem_of_getElem? hother) hset
    · cases hnew

theorem Told.request (h : Told header rows w cs) {opened : Option Nat}
    (hc : cs[i]? = some (.request opened)) (opened' : Option Nat)
    (hright : ∀ n ∈ w'.notes, n ∈ w.notes ∨ n.Right header rows)
    (hafter : afterStop w'.notes = afterStop w.notes) (hstop : w'.session.stop = w.session.stop) :
    Told header rows w' (cs.set i (.request opened') ++ []) :=
  h.keep hc hright hafter hstop fun _ heq => by cases heq

theorem Told.runner (h : Told header rows w cs) {r r' : Runner} (hc : cs[i]? = some (.runner r))
    (hcleared : r'.cleared = r.cleared) (hnotes : w'.notes = w.notes)
    (hstop : w'.session.stop = w.session.stop) :
    Told header rows w' (cs.set i (.runner r') ++ []) := by
  refine h.keep hc (fun n hn => .inl (hnotes ▸ hn)) (congrArg afterStop hnotes) hstop ?_
  intro r'' heq hset
  cases heq
  exact ⟨r, rfl, hcleared ▸ hset⟩

/-- A session takes a sample. If it was told to stop, it did so after its last look. -/
theorem Told.sample (h : Told header rows w cs) {held : Bool}
    (hsingle : Exclusive held Ctx.isRunner cs) {r : Runner} (hc : cs[i]? = some (.runner r))
    (hcleared : r.cleared = true) (hlimit : r.limit ≤ 86400) {t : Nat} (hbegun : r.begun = some t)
    (hlooked : r.looked < t + 1000 * r.limit) (s : Sample) :
    Told header rows (w.sampledBy r s)
      (cs.set i (.runner { r with samples := s :: r.samples, cleared := false }) ++ []) := by
  have hafter : afterStop (w.sampledBy r s).notes = (afterStop w.notes).map (· + 1) := rfl
  refine ⟨fun n hn => ?_, ?_, fun n hn => ?_⟩
  · rcases List.mem_cons.mp hn with rfl | hold
    · rw [hbegun]
      exact ⟨hlooked, hlimit⟩
    · exact h.right n hold
  · rw [hafter, Option.isSome_map]
    exact h.stop
  · rw [hafter] at hn
    obtain ⟨m, hm, rfl⟩ := Option.map_eq_some_iff.mp hn
    obtain rfl : m = 0 := (h.late m hm).2 r (List.mem_of_getElem? hc) hcleared
    refine ⟨Nat.le_refl 1, fun r' hr' hset => ?_⟩
    cases runner_unique hsingle hc hr'
    cases hset

/-- Every action that a thread may perform keeps it. -/
theorem told_act {β : Type} {a : Call β} {result : β} (h : Told header rows w cs)
    (halone : Alone w cs) (hfiled : Filed header rows w₀ w cs) (hc : cs[i]? = some c)
    (hok : c.allows header rows a) (he : Effect c w a result w') :
    Told header rows w' (cs.set i (c.after a result) ++
      ((machine header rows).spawns c a result).map Prod.snd) := by
  have hsame : ∀ n ∈ w.notes, n ∈ w.notes ∨ n.Right header rows := fun _ => .inl
  cases a with
  | tryStart duration interval =>
    obtain ⟨⟨opened, rfl⟩, -⟩ := hok
    rcases he with ⟨rfl, rfl⟩ | ⟨rfl, -, rfl⟩
    · exact h.request hc opened hsame rfl rfl
    · refine ⟨fun n hn => ?_, rfl, fun n hn => by cases hn⟩
      rcases List.mem_cons.mp hn with rfl | hold
      · exact trivial
      · exact h.right n hold
  | requestStop =>
    obtain ⟨opened, rfl⟩ := hok
    cases he
    refine ⟨fun n hn => ?_, rfl, fun n hn => ?_⟩
    · rcases List.mem_cons.mp hn with rfl | hold
      · exact trivial
      · exact h.right n hold
    · obtain rfl : (afterStop w.notes).getD 0 = n := Option.some.inj hn
      show _ ∧ ∀ r, .runner r ∈ cs.set i (.request opened) ++ [] → _
      rw [Pool.set_self hc]
      cases hold : afterStop w.notes with
      | none => exact ⟨Nat.zero_le 1, fun _ _ _ => rfl⟩
      | some m => exact h.late m hold
  | readState =>
    obtain ⟨opened, rfl⟩ := hok
    cases he
    exact h.request hc opened hsame rfl rfl
  | openLog =>
    obtain ⟨opened, rfl⟩ := hok
    obtain ⟨rfl, -⟩ := he
    exact h.request hc result hsame rfl rfl
  | length file =>
    obtain rfl : c = .request (some file) := hok
    rcases he with rfl | rfl
    · exact h.request hc _ hsame rfl rfl
    · refine h.request hc _ (fun n hn => ?_) rfl rfl
      rcases List.mem_cons.mp hn with rfl | hold
      · exact .inr trivial
      · exact .inl hold
  | openNew =>
    obtain ⟨limit, rfl⟩ := hok
    rcases he with ⟨e, rfl, rfl⟩ | ⟨rfl, rfl⟩
    · exact h.runner hc rfl rfl rfl
    · exact h.runner hc rfl rfl rfl
  | write file bytes =>
    obtain ⟨r, rfl, -⟩ := hok
    rcases he with ⟨e, rfl, rfl⟩ | ⟨n, rfl, -, rfl⟩
    · exact h.runner hc rfl rfl rfl
    · exact h.runner hc rfl rfl rfl
  | rename =>
    obtain ⟨r, rfl, -⟩ := hok
    rcases he with ⟨e, rfl, rfl⟩ | ⟨rfl, rfl⟩
    · exact h.runner hc rfl rfl rfl
    · exact h.runner hc rfl rfl rfl
  | now | sleepUntil | setError | addRow =>
    have hrunner : ∃ r, c = .runner r := by
      first
        | exact hok
        | exact hok.imp fun r hr => hr.1
    obtain ⟨r, rfl⟩ := hrunner
    cases he
    exact h.runner hc rfl rfl rfl
  | checkStop =>
    obtain ⟨r, rfl⟩ := hok
    obtain ⟨rfl, rfl⟩ := he
    refine ⟨h.right, h.stop, fun n hn => ⟨(h.late n hn).1, fun r' hr' hset => ?_⟩⟩
    -- The look finds the stop, if there was one.
    have hstop : w'.session.stop = true := by
      rw [h.stop, hn]
      rfl
    cases runner_unique halone.single hc hr'
    have hclear : (!w'.session.stop) = true := hset
    rw [hstop] at hclear
    cases hclear
  | readRadio =>
    obtain ⟨r, t, rfl, -, hcleared, hbegun, hlooked⟩ := hok
    cases he r rfl
    exact h.sample halone.single hc hcleared (halone.limit r (List.mem_of_getElem? hc)) hbegun
      hlooked result
  | finish error =>
    obtain ⟨r, rfl, hgood⟩ := hok
    cases he r rfl
    have hmem := List.mem_of_getElem? hc
    refine h.keep hc (fun n hn => ?_) rfl rfl fun _ heq => by cases heq
    rcases List.mem_cons.mp hn with rfl | hold
    · right
      intro hnone
      obtain ⟨hstage, hrest, hcounted⟩ := hgood hnone
      have htracked := hfiled.tracked r hmem (by rw [hstage]; decide)
      refine ⟨?_, (halone.counted r hmem).trans hcounted⟩
      rw [htracked.content, List.take_of_length_le (List.drop_eq_nil_iff.mp hrest)]
    · exact .inl hold

end Told

/-! ### Every run -/

/-- What holds of a logger in every state. -/
structure Kept (header : String) (rows : Rows) (w₀ w : World) (cs : List Ctx) : Prop where
  alone : Alone w cs
  filed : Filed header rows w₀ w cs
  told : Told header rows w cs

theorem promised_of_effect {β : Type} {a : Call β} {c : Ctx} {w w' : World} {result : β}
    (he : Effect c w a result w') : Promised a result := by
  cases a with
  | write file bytes =>
    intro n hn
    rcases he with ⟨e, heq, -⟩ | ⟨m, heq, hm, -⟩
    · cases heq.symm.trans hn
    · cases heq.symm.trans hn
      exact hm
  | tryStart | requestStop | readState | openLog | length | openNew | rename | now | checkStop
  | readRadio | setError | addRow | sleepUntil | finish => exact trivial

/-- The files that the agent finds are its first ones. -/
theorem kept_start (log new : Option Bytes) :
    Kept header rows (start₀ log new).world (start₀ log new).world [] := by
  refine ⟨⟨.nil, ?_, ?_⟩, ⟨?_, ?_, fun f _ => rfl, ?_, fun f hlog hnew => ?_, fun f hf => ?_, ?_, ?_⟩,
    ?_, rfl, fun n hn => by cases hn⟩
  · intro r hr
    cases hr
  · intro r hr
    cases hr
  · intro r hr
    cases hr
  · intro f samples hf
    cases hf
  · intro f samples _ hf
    cases hf
  · obtain ⟨_, -, rfl⟩ := Option.map_eq_some_iff.mp hlog
    obtain ⟨_, -, hne⟩ := Option.map_eq_some_iff.mp hnew
    cases hne
  · rcases hf with hlog | hnew
    · obtain ⟨_, -, rfl⟩ := Option.map_eq_some_iff.mp hlog
      exact Nat.zero_lt_succ 1
    · obtain ⟨_, -, rfl⟩ := Option.map_eq_some_iff.mp hnew
      exact Nat.lt_succ_self 1
  · intro f hf
    cases hf
  · intro f bytes hf
    cases hf
  · intro n hn
    cases hn

theorem kept_run {log new : Option Bytes} {K : Condition Call Ctx World Choice Outside}
    {s : State Call Ctx World Body}
    (h : (machine header rows).Run K (start₀ log new) s) :
    Kept header rows (start₀ log new).world s.world s.ctxs := by
  refine (Machine.sound (regime header rows) program_keeps
    (I := Kept header rows (start₀ log new).world) ?_ ?_ (kept_start log new)
    (fun _ ht => absurd ht List.not_mem_nil) h).1
  · intro β w w' cs i c a e result hI hc hok _ hexec
    have he := exec_effect hexec
    refine ⟨promised_of_effect he, fun bc hbc => ?_, alone_act hI.alone hc hok he,
      filed_act hI.filed hI.alone.single hc hok he, told_act hI.told hI.alone hI.filed hc hok he⟩
    cases a with
    | tryStart duration interval =>
      cases result with
      | false => cases hbc
      | true =>
        obtain rfl := List.mem_singleton.mp hbc
        exact ⟨rfl, hok.2⟩
    | requestStop | readState | openLog | length | openNew | write | rename | now | checkStop
    | readRadio | setError | addRow | sleepUntil | finish => cases hbc
  · intro w cs x o hI _ ho
    obtain ⟨halone, hfiled, htold⟩ := hI
    cases x with
    | tick milliseconds =>
      cases ho
      refine ⟨fun bc hbc => absurd hbc List.not_mem_nil, ?_⟩
      show Kept header rows _ { w with clock := w.clock + milliseconds } (cs ++ [])
      rw [List.append_nil]
      refine ⟨⟨halone.single, halone.counted, halone.limit⟩, ⟨fun r hr hstage => ?_, hfiled.filed,
        hfiled.kept, hfiled.shown, hfiled.apart, hfiled.named, hfiled.opened, hfiled.served⟩,
        ⟨htold.right, htold.stop, htold.late⟩⟩
      exact (hfiled.tracked r hr hstage).same ⟨rfl, rfl, rfl, rfl, rfl⟩ ⟨rfl, rfl, rfl, rfl⟩
    | request body =>
      simp only [machine] at ho
      split at ho
      · rename_i hrequest
        cases ho
        have hold : ∀ r, .runner r ∈ cs ++ [.request none] → .runner r ∈ cs := by
          intro r hr
          rcases List.mem_append.mp hr with hr | hr
          · exact hr
          · cases List.mem_singleton.mp hr
        refine ⟨fun bc hbc => ?_, ⟨halone.single.spawn (by simp [Ctx.isRunner]), ?_, ?_⟩,
          ⟨?_, hfiled.filed, hfiled.kept, hfiled.shown, hfiled.apart, hfiled.named, fun f hf => ?_,
            hfiled.served⟩, ⟨htold.right, htold.stop, fun n hn => ?_⟩⟩
        · obtain rfl := List.mem_singleton.mp hbc
          cases body with
          | start | stop | status | download => rfl
          | run | sample | pause => cases hrequest
        · exact fun r hr => halone.counted r (hold r hr)
        · exact fun r hr => halone.limit r (hold r hr)
        · exact fun r hr => hfiled.tracked r (hold r hr)
        · rcases List.mem_append.mp hf with hf | hf
          · exact hfiled.opened f hf
          · cases List.mem_singleton.mp hf
        · exact ⟨(htold.late n hn).1, fun r hr => (htold.late n hn).2 r (hold r hr)⟩
      · cases ho
    | restart =>
      cases ho
      -- The threads are gone, and their buffers; the files stay.
      refine ⟨fun bc hbc => absurd hbc List.not_mem_nil, ⟨.nil, ?_, ?_⟩,
        ⟨?_, hfiled.filed, hfiled.kept, hfiled.shown, hfiled.apart, hfiled.named, ?_,
          fun f bytes hf => ?_⟩, ⟨fun n hn => ?_, rfl, fun n hn => by cases hn⟩⟩
      · intro r hr
        cases hr
      · intro r hr
        cases hr
      · intro r hr
        cases hr
      · intro f hf
        cases hf
      · exact hfiled.served f bytes (by simpa using hf)
      · rcases List.mem_cons.mp hn with rfl | hn
        · exact trivial
        · exact htold.right n hn

/-- **The logs.** In every run of requests, sessions and restarts, whatever fails: at most one
thread writes. What is in a file that a session opened is the beginning of its header and of the
rows of its samples, within the limit. The log is such a file, with its whole header, or the file
that was there at first, as it was. What a download is promised stays there. A session that ends
without an error has written every row and counted it; every sample is taken within its duration;
and after a stop at most one more is taken. -/
theorem logs_sound (header : String) (rows : Rows) (log new : Option Bytes)
    {s : State Call Ctx World Body}
    (h : (machine header rows).Run .any (start₀ log new) s) :
    (s.ctxs.countP Ctx.isRunner ≤ 1 ∧
      (s.world.session.running = false → ∀ c ∈ s.ctxs, c.isRunner = false)) ∧
    (∀ f samples, s.world.samples f = some samples →
      s.world.content f <+: due header rows samples ∧ (s.world.content f).length ≤ 8388608) ∧
    (∀ f, s.world.log = some f →
      (∃ samples, s.world.samples f = some samples ∧ text [header] <+: s.world.content f) ∨
        s.world.samples f = none ∧ s.world.content f = (start₀ log new).world.content f) ∧
    (∀ f bytes, .served f bytes ∈ s.world.notes → bytes <+: s.world.content f) ∧
    (∀ n ∈ s.world.notes, n.Right header rows) ∧
    (∀ n, afterStop s.world.notes = some n → n ≤ 1) := by
  obtain ⟨halone, hfiled, htold⟩ := kept_run h
  refine ⟨⟨halone.single.once, halone.single.free⟩, hfiled.filed, fun f hlog => ?_,
    fun f bytes hf => (hfiled.served f bytes hf).1, htold.right, fun n hn => (htold.late n hn).1⟩
  cases hsamples : s.world.samples f with
  | none => exact .inr ⟨rfl, hfiled.kept f hsamples⟩
  | some samples => exact .inl ⟨samples, rfl, hfiled.shown f samples hlog hsamples⟩

namespace Sample

/-- Every sample has one row. -/
def oneRow : Rows := fun _ _ _ => (["r"], none)

/-- A turn of a thread. -/
def turn (i : Nat) (e : Choice) : Event Choice Outside := .thread i e

/-- A session is started, takes a sample, and is stopped. -/
def session : List (Event Choice Outside) :=
  -- The header is written to a new file, which becomes the log.
  .outside (.request (.start (.ok (none, none)))) :: turn 0 .go ::
    turn 1 (.result (.ok ())) :: turn 1 .go :: turn 1 (.written (.ok 2)) :: turn 1 .go ::
    turn 1 (.result (.ok ())) :: List.replicate 4 (turn 1 .go) ++
  -- The row of the sample stays in the buffer until the session is stopped.
  turn 1 (.sample ⟨some [], some 1000, none, 1⟩) :: List.replicate 5 (turn 1 .go) ++
  .outside (.request .stop) :: turn 2 .go :: List.replicate 6 (turn 1 .go) ++
    [turn 1 (.written (.ok 2)), turn 1 .go, turn 1 .go]

/-- A session ended without an error, with one row. -/
def endedWell : Note → Bool
  | .finished _ counted content error => counted == 1 && content == text ["h", "r"] && error.isNone
  | _ => false

/-- The run of the session, evaluated. -/
def sessionRun : PLift (((machine "h" oneRow).run .any (start₀ none none) session).any
    (fun s => s.world.notes.any endedWell) = true) := ⟨by decide +kernel⟩

end Sample

open Sample in
/-- A session is stopped, and its row is written. -/
theorem session_stopped : ∃ s, (machine "h" oneRow).Run .any (start₀ none none) s ∧
    s.world.notes.any endedWell = true ∧ ∀ n ∈ s.world.notes, n.Right "h" oneRow := by
  obtain ⟨s, hs, hp⟩ := Machine.Run.exists_of_run sessionRun.down
  exact ⟨s, hs, hp, (logs_sound "h" oneRow none none hs).2.2.2.2.1⟩

end OpenUI.Agent.Logging
