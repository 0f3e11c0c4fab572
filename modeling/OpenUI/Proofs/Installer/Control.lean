import OpenUI.Concurrency.History
import OpenUI.Concurrency.Mutex
import OpenUI.Installer.Control

/-!
# `OpenUI.Proofs.Installer.Control`: a stop is kept, an approval was given

`stop` and the two ways into the critical phase share the mutex, so a stop that has set its flag
keeps the operation out of it. `start` clears the flag without the mutex. A stop that comes between
the two stores of a start is answered with `Ok` and forgotten; `apart` leaves that out.

* `Guarded`: how the atomics, the mutex, the notes and the threads stay together.
* `control_sound`: in a run in which no stop and no start overlap, no critical phase follows a stop
  that returned `Ok` in the same operation. In every run, an approval follows a confirmation that
  was made after `await_approval` began to wait.
* `forgotten_stop`: the run that forgets a stop.
-/

set_option autoImplicit false

namespace OpenUI.Installer.Control

open OpenUI.Concurrency

-- The equations are stated here once, before the proofs that rewrite with them.
section
attribute [local simp] exec
end

/-! ### What the notes say -/

/-- A stop returned `Ok` while the latest operation was running. -/
def stoppedSince : List Note → Bool
  | [] => false
  | .started :: _ => false
  | .stopped running :: earlier => running || stoppedSince earlier
  | _ :: earlier => stoppedSince earlier

/-- The latest operation has begun to wait for an approval. -/
def waitingSince : List Note → Bool
  | [] => false
  | .started :: _ => false
  | .waiting :: _ => true
  | _ :: earlier => waitingSince earlier

/-- A confirmation was made after the latest operation began to wait the last time. -/
def confirmedSince : List Note → Bool
  | [] => false
  | .started :: _ => false
  | .waiting :: _ => false
  | .confirmed accepted :: earlier => accepted && waitingSince earlier || confirmedSince earlier
  | _ :: earlier => confirmedSince earlier

section
attribute [local simp] confirmedSince
end

/-- No critical phase after a stop of the operation. -/
def Note.Kept (n : Note) (earlier : List Note) : Prop :=
  n = .critical → stoppedSince earlier = false

/-- No approval without a confirmation. -/
def Note.Approved (n : Note) (earlier : List Note) : Prop :=
  n = .approved → confirmedSince earlier = true

/-- The note neither starts an operation nor begins a wait. -/
def Note.within : Note → Bool
  | .started | .waiting => false
  | _ => true

theorem waitingSince_cons {n : Note} {log : List Note} (hn : n.within = true)
    (h : waitingSince log = true) : waitingSince (n :: log) = true := by
  cases n with
  | started => cases hn
  | waiting => cases hn
  | _ => exact h

theorem confirmedSince_cons {n : Note} {log : List Note} (hn : n.within = true)
    (h : confirmedSince log = true) : confirmedSince (n :: log) = true := by
  cases n with
  | started => cases hn
  | waiting => cases hn
  | confirmed accepted => simp [confirmedSince, h]
  | _ => exact h

/-! ### The order of the actions -/

/-- Which actions a thread may perform where it stands. -/
def Ctx.allows (c : Ctx) {β : Type} : Call β → Prop
  | .swapRunning => c = {}
  | .storeRunning value => value = false ∧ c.operates = true ∧ c.holds = false
  | .storeCritical value => c.operates = true ∧ (value = true → c.clear = true)
  | .storeStopped true => c.holds = true
  | .storeStopped false => c.starting = true
  | .storeWaiting value => value = true → c.operates = true ∧ c.emptied = true
  | .lock => c.holds = false
  | .unlock => c.holds = true
  | .choice => c.holds = true
  | .setChoice value => c.holds = true ∧ (value = none → c.operates = true)
  | .stopReturns result => result.isOk = true → c.stopping = true
  | .approvalReturns result => result.isOk = true → c.chosen = true
  | _ => True

/-- The worker of the operation, between two calls. -/
structure Ctx.Working (c : Ctx) : Prop where
  operates : c.operates = true
  started : c.starting = false
  free : c.holds = false

/-- The worker waits for an approval, with the mutex. -/
structure Ctx.Waiting (c : Ctx) : Prop where
  operates : c.operates = true
  started : c.starting = false
  holds : c.holds = true
  awaiting : c.awaiting = true

/-- What each part needs of its thread. -/
def Body.pre : Body → Ctx → Prop
  | .operation, c => c = {}
  | .working, c => c.Working
  | .waiting, c => c.Waiting
  | .decided _, c => c.Waiting
  | .stop, c => c = {}
  | .confirm _, c => c = {}

def regime : installer.Regime where
  ok c a := c.allows a
  facts _ _ _ := True
  pre := Body.pre
  fin _ := True

theorem keeps_operation : regime.discipline.Triple (Body.pre .operation) (program .operation)
    regime.ends := by
  rintro c rfl
  refine ⟨rfl, fun busy _ _ => ?_⟩
  cases busy with
  | true => trivial
  | false =>
    refine ⟨⟨rfl, fun h => (by cases h)⟩, fun _ _ _ => ⟨rfl, fun _ _ _ => ⟨rfl, fun _ _ _ => ?_⟩⟩⟩
    refine ⟨⟨rfl, fun _ => rfl⟩, fun _ _ _ => ⟨rfl, fun _ _ _ => ?_⟩⟩
    exact ⟨rfl, rfl, rfl⟩

theorem keeps_beginApproval {c : Ctx} (hc : c.Working) :
    regime.discipline.wp beginApproval regime.ends c := by
  obtain ⟨hop, hst, hfree⟩ := hc
  refine ⟨trivial, fun stopped _ _ => ?_⟩
  cases stopped with
  | true => exact ⟨fun h => (by cases h), fun _ _ _ => ⟨hop, hst, hfree⟩⟩
  | false =>
    refine ⟨hfree, fun _ _ _ => ⟨⟨rfl, fun _ => hop⟩, fun _ _ _ => ⟨fun _ => ⟨hop, rfl⟩,
      fun _ _ _ => ?_⟩⟩⟩
    exact ⟨trivial, fun _ _ _ => ⟨hop, hst, rfl, rfl⟩⟩

theorem keeps_enterCritical {c : Ctx} (hc : c.Working) :
    regime.discipline.wp enterCritical (fun c' _ => c'.Working) c := by
  obtain ⟨hop, hst, hfree⟩ := hc
  refine ⟨hfree, fun _ _ _ => ⟨trivial, fun stopped _ _ => ?_⟩⟩
  cases stopped with
  | true => exact ⟨rfl, fun _ _ _ => ⟨hop, hst, rfl⟩⟩
  | false => exact ⟨⟨hop, fun _ => rfl⟩, fun _ _ _ => ⟨rfl, fun _ _ _ => ⟨hop, hst, rfl⟩⟩⟩

theorem keeps_working : regime.discipline.Triple (Body.pre .working) (program .working)
    regime.ends := by
  intro c hc
  refine ⟨trivial, fun next _ _ => ?_⟩
  cases next with
  | checkpoint => exact ⟨trivial, fun stopped _ _ => by cases stopped <;> exact ⟨hc.1, hc.2, hc.3⟩⟩
  | awaitApproval => exact keeps_beginApproval hc
  | enterCritical =>
    refine (regime.discipline.wp_bind enterCritical _ _ _).mpr ?_
    exact regime.discipline.wp_mono (keeps_enterCritical hc) fun _ _ h => h
  | finish =>
    refine ⟨fun h => (by cases h), fun _ _ _ => ⟨⟨hc.1, fun h => (by cases h)⟩, fun _ _ _ => ?_⟩⟩
    exact ⟨⟨rfl, hc.1, hc.3⟩, fun _ _ _ => trivial⟩

theorem keeps_waiting : regime.discipline.Triple (Body.pre .waiting) (program .waiting)
    regime.ends := by
  rintro c ⟨hop, hst, hholds, hwait⟩
  refine ⟨hholds, fun choice _ _ => ?_⟩
  cases choice with
  | some accepted => exact ⟨hop, hst, hholds, hwait⟩
  | none =>
    refine ⟨trivial, fun stopped _ _ => ?_⟩
    cases stopped with
    | true => exact ⟨hop, hst, hholds, hwait⟩
    | false =>
      refine ⟨trivial, fun elapsed _ _ => ?_⟩
      cases elapsed with
      | true => exact ⟨hop, hst, hholds, hwait⟩
      | false => exact ⟨hholds, fun _ _ _ => ⟨rfl, fun _ _ _ => ⟨hop, hst, rfl, hwait⟩⟩⟩

theorem keeps_refuse {c : Ctx} (hop : c.operates = true) (hst : c.starting = false)
    (hholds : c.holds = true) : regime.discipline.wp refuse regime.ends c :=
  ⟨hholds, fun _ _ _ => ⟨fun h => (by cases h), fun _ _ _ => ⟨hop, hst, rfl⟩⟩⟩

theorem keeps_decided (timedOut : Bool) : regime.discipline.Triple (Body.pre (.decided timedOut))
    (program (.decided timedOut)) regime.ends := by
  rintro c ⟨hop, hst, hholds, hwait⟩
  refine ⟨fun h => (by cases h), fun _ _ _ => ?_⟩
  cases timedOut with
  | true => exact keeps_refuse hop hst hholds
  | false =>
    refine ⟨hholds, fun choice _ _ => ?_⟩
    show regime.discipline.wp (if choice ≠ some true then refuse else _) _ _
    split
    · exact keeps_refuse hop hst hholds
    · rename_i hchoice
      have hyes : choice = some true := by simpa using hchoice
      refine ⟨trivial, fun stopped _ _ => ?_⟩
      cases stopped with
      | true => exact keeps_refuse hop hst hholds
      | false =>
        have hclear : (c.holds && !false) = true := by simp [hholds]
        have hchosen : (c.awaiting && choice == some true) = true := by simp [hwait, hyes]
        refine ⟨⟨hop, fun _ => hclear⟩, fun _ _ _ => ⟨hholds, fun _ _ _ => ?_⟩⟩
        exact ⟨fun _ => hchosen, fun _ _ _ => ⟨hop, hst, rfl⟩⟩

theorem keeps_stop : regime.discipline.Triple (Body.pre .stop) (program .stop) regime.ends := by
  rintro c rfl
  refine ⟨rfl, fun _ _ _ => ⟨trivial, fun critical _ _ => ?_⟩⟩
  cases critical with
  | true => exact ⟨rfl, fun _ _ _ => ⟨fun h => (by cases h), fun _ _ _ => trivial⟩⟩
  | false =>
    refine ⟨rfl, fun _ _ _ => ⟨trivial, fun _ _ _ => ⟨rfl, fun _ _ _ => ?_⟩⟩⟩
    exact ⟨fun _ => rfl, fun _ _ _ => trivial⟩

theorem keeps_confirm (accepted : Bool) : regime.discipline.Triple (Body.pre (.confirm accepted))
    (program (.confirm accepted)) regime.ends := by
  rintro c rfl
  refine ⟨rfl, fun _ _ _ => ⟨trivial, fun waiting _ _ => ?_⟩⟩
  cases waiting with
  | true =>
    refine ⟨⟨rfl, fun h => (by cases h)⟩, fun _ _ _ => ⟨trivial, fun _ _ _ => ⟨rfl,
      fun _ _ _ => ?_⟩⟩⟩
    trivial
  | false => exact ⟨rfl, fun _ _ _ => trivial⟩

/-- Every thread keeps to the rules. -/
theorem program_keeps : regime.Bodies := by
  intro body
  cases body with
  | operation => exact keeps_operation
  | working => exact keeps_working
  | waiting => exact keeps_waiting
  | decided timedOut => exact keeps_decided timedOut
  | stop => exact keeps_stop
  | confirm accepted => exact keeps_confirm accepted

/-! ### The invariant -/

/-- What a thread's record says of the atomics and the notes. -/
structure Sane (w : World) (c : Ctx) : Prop where
  starting : c.starting = true → c.operates = true
  clear : c.clear = true → c.holds = true ∧ w.stopped = false
  emptied : c.emptied = true → c.holds = true ∧ w.approval = none
  awaiting : c.awaiting = true → c.operates = true ∧ waitingSince w.log = true ∧
    (w.approval = some true → confirmedSince w.log = true)
  chosen : c.chosen = true → c.operates = true ∧ confirmedSince w.log = true

/-- At most one thread holds the mutex and at most one works on an operation, and the approvals are
sound. -/
structure Guarded (w : World) (cs : List Ctx) : Prop where
  mutex : Exclusive w.held Ctx.holds cs
  operation : Exclusive w.running Ctx.operates cs
  sane : ∀ c ∈ cs, Sane w c
  log : Each Note.Approved w.log

/-- A record in a world where the notes go on within the operation. -/
theorem Sane.frame {w w' : World} {c : Ctx} (h : Sane w c)
    (hstopped : c.holds = true → w'.stopped = w.stopped ∨ w'.stopped = false)
    (happroval : w'.approval = w.approval ∨ c.holds = false ∧
      (w'.approval = some true → waitingSince w.log = true → confirmedSince w'.log = true))
    (hwaiting : c.operates = true → waitingSince w.log = true → waitingSince w'.log = true)
    (hconfirmed : c.operates = true → confirmedSince w.log = true → confirmedSince w'.log = true) :
    Sane w' c where
  starting := h.starting
  clear hc := by
    obtain ⟨hholds, hno⟩ := h.clear hc
    rcases hstopped hholds with hs | hs
    · exact ⟨hholds, hs.trans hno⟩
    · exact ⟨hholds, hs⟩
  emptied hc := by
    obtain ⟨hholds, hno⟩ := h.emptied hc
    rcases happroval with ha | ⟨hfree, -⟩
    · exact ⟨hholds, ha.trans hno⟩
    · rw [hholds] at hfree
      cases hfree
  awaiting hc := by
    obtain ⟨hop, hwait, hyes⟩ := h.awaiting hc
    refine ⟨hop, hwaiting hop hwait, fun ha => ?_⟩
    rcases happroval with heq | ⟨-, hnew⟩
    · exact hconfirmed hop (hyes (heq.symm.trans ha))
    · exact hnew ha hwait
  chosen hc := by
    obtain ⟨hop, hyes⟩ := h.chosen hc
    exact ⟨hop, hconfirmed hop hyes⟩

/-- A record in a world that differs in nothing it speaks of. -/
theorem Sane.same {w w' : World} {c : Ctx} (h : Sane w c) (hstopped : w'.stopped = w.stopped)
    (happroval : w'.approval = w.approval) (hlog : w'.log = w.log) : Sane w' c :=
  h.frame (fun _ => .inl hstopped) (.inl happroval) (fun _ hw => by rwa [hlog])
    (fun _ hc => by rwa [hlog])

/-- One more note within the operation. -/
theorem Sane.noted {w w' : World} {c : Ctx} {n : Note} (h : Sane w c)
    (hstopped : w'.stopped = w.stopped) (happroval : w'.approval = w.approval)
    (hlog : w'.log = n :: w.log) (hn : n.within = true) : Sane w' c :=
  h.frame (fun _ => .inl hstopped) (.inl happroval)
    (fun _ hw => by rw [hlog]; exact waitingSince_cons hn hw)
    (fun _ hc => by rw [hlog]; exact confirmedSince_cons hn hc)

/-- The record of a thread that moves in nothing the invariant speaks of, other than that it may
cease to wait. -/
theorem Sane.moved {w : World} {c c' : Ctx} (h : Sane w c)
    (hsame : c'.starting = c.starting ∧ c'.clear = c.clear ∧ c'.emptied = c.emptied ∧
      c'.operates = c.operates ∧ c'.holds = c.holds)
    (hwait : c'.awaiting = true → c.awaiting = true) (hchosen : c'.chosen = true →
      c.chosen = true) :
    Sane w c' := by
  obtain ⟨hst, hclear, hempty, hop, hholds⟩ := hsame
  constructor
  · rw [hst, hop]
    exact h.starting
  · rw [hclear, hholds]
    exact h.clear
  · rw [hempty, hholds]
    exact h.emptied
  · intro hh
    rw [hop]
    exact h.awaiting (hwait hh)
  · intro hh
    rw [hop]
    exact h.chosen (hchosen hh)

/-- A thread that has just been started. -/
theorem sane_new (w : World) : Sane w {} where
  starting h := by cases h
  clear h := by cases h
  emptied h := by cases h
  awaiting h := by cases h
  chosen h := by cases h

section Step

variable {w : World} {cs : List Ctx} {i : Nat} {c : Ctx} {e : Input}

/-- A step that leaves the mutex and the operation with whom they were. -/
theorem Guarded.keep {w' : World} {c' : Ctx} (h : Guarded w cs) (hc : cs[i]? = some c)
    (hheld : w'.held = w.held) (hrunning : w'.running = w.running) (hholds : c'.holds = c.holds)
    (hop : c'.operates = c.operates) (hself : Sane w' c')
    (hothers : ∀ x ∈ cs, Sane w x → Sane w' x) (hlog : Each Note.Approved w'.log) :
    Guarded w' (cs.set i c' ++ []) where
  mutex := by
    rw [hheld]
    exact h.mutex.keep hc hholds (by simp)
  operation := by
    rw [hrunning]
    exact h.operation.keep hc hop (by simp)
  sane := Pool.forall_update (fun x hx => hothers x hx (h.sane x hx)) hself (by simp)
  log := hlog

/-- A step that changes nothing but the critical and the waiting flag, or nothing at all. -/
theorem Guarded.still {w' : World} (h : Guarded w cs) (hc : cs[i]? = some c)
    (hw : w' = { w with critical := w'.critical, waiting := w'.waiting }) :
    Guarded w' (cs.set i c ++ []) := by
  have hsame : w'.held = w.held ∧ w'.running = w.running ∧ w'.stopped = w.stopped ∧
      w'.approval = w.approval ∧ w'.log = w.log := by
    rw [hw]
    exact ⟨rfl, rfl, rfl, rfl, rfl⟩
  obtain ⟨hheld, hrunning, hstopped, happroval, hlog⟩ := hsame
  refine h.keep hc hheld hrunning rfl rfl ?_ (fun x _ hx => hx.same hstopped happroval hlog) ?_
  · exact (h.sane c (List.mem_of_getElem? hc)).same hstopped happroval hlog
  · rw [hlog]
    exact h.log

/-- The worker starts an operation. -/
theorem guarded_swapRunning (h : Guarded w cs) (hc : cs[i]? = some {}) :
    Guarded ({ w with running := true }.noteIf (!w.running) .started)
      (cs.set i (Ctx.after {} .swapRunning w.running w) ++ []) := by
  cases hr : w.running with
  | true =>
    have hw : ({ w with running := true } : World).noteIf (!true) .started = w := by
      show ({ w with running := true } : World) = w
      rw [← hr]
    rw [hw]
    exact h.still hc rfl
  | false =>
    -- No other thread works on an operation, so no other record speaks of the notes.
    have hidle := h.operation.free hr
    have hmutex := h.mutex
    have hop : Exclusive true Ctx.operates
        (cs.set i { operates := true, starting := true } ++ []) := by
      have hex := h.operation
      rw [hr] at hex
      exact hex.take hc
    refine ⟨h.mutex.keep hc rfl (by simp), hop, ?_, h.log.cons fun hn => by cases hn⟩
    refine Pool.forall_update (fun x hx => ?_) ?_ (by simp)
    · have hno := hidle x hx
      refine (h.sane x hx).frame (fun _ => .inl rfl) (.inl rfl) ?_ ?_
      · intro hyes
        rw [hno] at hyes
        cases hyes
      · intro hyes
        rw [hno] at hyes
        cases hyes
    · exact ⟨fun _ => rfl, fun hh => (by cases hh), fun hh => (by cases hh),
        fun hh => (by cases hh),
        fun hh => (by cases hh)⟩

/-- The worker ends its operation. -/
theorem guarded_storeRunning (h : Guarded w cs) (hc : cs[i]? = some c) (hop : c.operates = true)
    (hfree : c.holds = false) : Guarded { w with running := false } (cs.set i {} ++ []) where
  mutex := h.mutex.keep hc hfree.symm (by simp)
  operation := h.operation.release hc hop rfl
  sane := Pool.forall_update (fun x hx => (h.sane x hx).same rfl rfl rfl) (sane_new _) (by simp)
  log := h.log

/-- The flag is read, perhaps under the mutex. -/
theorem guarded_loadStopped (h : Guarded w cs) (hc : cs[i]? = some c) :
    Guarded w (cs.set i (c.after .loadStopped w.stopped w) ++ []) := by
  have hs := h.sane c (List.mem_of_getElem? hc)
  refine h.keep hc rfl rfl rfl rfl ?_ (fun x _ hx => hx) h.log
  exact {
    starting := hs.starting
    clear := fun hclear => by simpa [Ctx.after] using hclear
    emptied := hs.emptied
    awaiting := hs.awaiting
    chosen := hs.chosen }

/-- The flag is set under the mutex. -/
theorem guarded_storeStopped_true (h : Guarded w cs) (hc : cs[i]? = some c)
    (hholds : c.holds = true) :
    Guarded { w with stopped := true } (cs.set i (c.after (.storeStopped true) () w) ++ []) := by
  have hs := h.sane c (List.mem_of_getElem? hc)
  refine ⟨h.mutex.keep hc rfl (by simp), h.operation.keep hc rfl (by simp), ?_, h.log⟩
  intro x hx
  rcases Pool.mem_update hx with rfl | ⟨j, hj, hxj⟩ | hnew
  · exact ⟨hs.starting, fun hh => (by cases hh), hs.emptied, hs.awaiting, hs.chosen⟩
  · -- Another thread does not hold the mutex.
    have hno := Pool.others_not h.mutex.once hc hholds hj hxj
    refine (h.sane x (List.mem_of_getElem? hxj)).frame (fun hh => ?_) (.inl rfl) (fun _ hh => hh)
      (fun _ hh => hh)
    rw [hno] at hh
    cases hh
  · cases hnew

/-- A start clears the flag. -/
theorem guarded_storeStopped_false (h : Guarded w cs) (hc : cs[i]? = some c) :
    Guarded { w with stopped := false } (cs.set i (c.after (.storeStopped false) () w) ++ []) := by
  have hframe : ∀ x, Sane w x → Sane { w with stopped := false } x := fun x hx =>
    hx.frame (fun _ => .inr rfl) (.inl rfl) (fun _ hh => hh) (fun _ hh => hh)
  have hs := hframe c (h.sane c (List.mem_of_getElem? hc))
  refine h.keep hc rfl rfl rfl rfl ?_ (fun x _ hx => hframe x hx) h.log
  exact ⟨fun hh => (by cases hh), hs.clear, hs.emptied, hs.awaiting, hs.chosen⟩

/-- The worker begins to wait: nothing is chosen yet. -/
theorem guarded_storeWaiting_true (h : Guarded w cs) (hc : cs[i]? = some c)
    (hop : c.operates = true) (hempty : c.emptied = true) :
    Guarded ({ w with waiting := true }.noteIf true .waiting)
      (cs.set i (c.after (.storeWaiting true) () w) ++ []) := by
  have hs := h.sane c (List.mem_of_getElem? hc)
  obtain ⟨hholds, hnone⟩ := hs.emptied hempty
  refine ⟨h.mutex.keep hc rfl (by simp), h.operation.keep hc rfl (by simp), ?_,
    h.log.cons fun hn => by cases hn⟩
  intro x hx
  rcases Pool.mem_update hx with rfl | ⟨j, hj, hxj⟩ | hnew
  · refine ⟨hs.starting, hs.clear, hs.emptied, fun _ => ⟨hop, rfl, fun ha => ?_⟩,
      fun hh => (by cases hh)⟩
    have hsome : w.approval = some true := ha
    rw [hnone] at hsome
    cases hsome
  · -- Another thread does not work on the operation.
    have hno := Pool.others_not h.operation.once hc hop hj hxj
    refine (h.sane x (List.mem_of_getElem? hxj)).frame (fun _ => .inl rfl) (.inl rfl) ?_ ?_
    · intro hyes
      rw [hno] at hyes
      cases hyes
    · intro hyes
      rw [hno] at hyes
      cases hyes
  · cases hnew

theorem guarded_lock (h : Guarded w cs) (hc : cs[i]? = some c) (hheld : w.held = false) :
    Guarded { w with held := true } (cs.set i { c with holds := true } ++ []) := by
  have hs := h.sane c (List.mem_of_getElem? hc)
  have hmutex := h.mutex
  rw [hheld] at hmutex
  refine ⟨hmutex.take hc, h.operation.keep hc rfl (by simp), ?_, h.log⟩
  refine Pool.forall_update (fun x hx => (h.sane x hx).same rfl rfl rfl) ?_ (by simp)
  exact ⟨hs.starting, fun hh => ⟨rfl, (hs.clear hh).2⟩, fun hh => ⟨rfl, (hs.emptied hh).2⟩,
    hs.awaiting, hs.chosen⟩

theorem guarded_unlock (h : Guarded w cs) (hc : cs[i]? = some c) (hholds : c.holds = true) :
    Guarded { w with held := false } (cs.set i (c.after .unlock () w) ++ []) := by
  have hs := h.sane c (List.mem_of_getElem? hc)
  refine ⟨h.mutex.release hc hholds rfl, h.operation.keep hc rfl (by simp), ?_, h.log⟩
  refine Pool.forall_update (fun x hx => (h.sane x hx).same rfl rfl rfl) ?_ (by simp)
  exact ⟨hs.starting, fun hh => (by cases hh), fun hh => (by cases hh), hs.awaiting, hs.chosen⟩

/-- The choice is read by a worker that waits for it. -/
theorem guarded_choice (h : Guarded w cs) (hc : cs[i]? = some c) :
    Guarded w (cs.set i (c.after .choice w.approval w) ++ []) := by
  have hs := h.sane c (List.mem_of_getElem? hc)
  refine h.keep hc rfl rfl rfl rfl ?_ (fun x _ hx => hx) h.log
  refine ⟨hs.starting, hs.clear, hs.emptied, hs.awaiting, fun hh => ?_⟩
  have hboth : c.awaiting = true ∧ w.approval = some true := by simpa [Ctx.after] using hh
  obtain ⟨hop, -, hyes⟩ := hs.awaiting hboth.1
  exact ⟨hop, hyes hboth.2⟩

/-- A choice that was just made is a confirmation. -/
theorem confirmedSince_choice {accepted : Bool} {log : List Note}
    (h : (some accepted : Option Bool) = some true) (hw : waitingSince log = true) :
    confirmedSince (.confirmed accepted :: log) = true := by
  cases h
  simp [confirmedSince, hw]

/-- The choice is set under the mutex. -/
theorem guarded_setChoice (h : Guarded w cs) (hc : cs[i]? = some c) (hholds : c.holds = true)
    (value : Option Bool) :
    Guarded ({ w with approval := value }.noteIf value.isSome (.confirmed (value.getD false)))
      (cs.set i (c.after (.setChoice value) () w) ++ []) := by
  have hs := h.sane c (List.mem_of_getElem? hc)
  have hother : ∀ {j : Nat} {x : Ctx}, j ≠ i → cs[j]? = some x → x.holds = false :=
    fun hj hxj => Pool.others_not h.mutex.once hc hholds hj hxj
  cases value with
  | none =>
    refine ⟨h.mutex.keep hc rfl (by simp), h.operation.keep hc rfl (by simp), fun x hx => ?_, h.log⟩
    rcases Pool.mem_update hx with rfl | ⟨j, hj, hxj⟩ | hnew
    · exact ⟨hs.starting, hs.clear, fun _ => ⟨hholds, rfl⟩,
        fun hh => ⟨(hs.awaiting hh).1, (hs.awaiting hh).2.1, fun ha => (by cases ha)⟩, hs.chosen⟩
    · refine (h.sane x (List.mem_of_getElem? hxj)).frame (fun _ => .inl rfl)
        (.inr ⟨hother hj hxj, ?_⟩)
        (fun _ hh => hh) (fun _ hh => hh)
      intro ha
      cases ha
    · cases hnew
  | some accepted =>
    refine ⟨h.mutex.keep hc rfl (by simp), h.operation.keep hc rfl (by simp), fun x hx => ?_,
      h.log.cons fun hn => by cases hn⟩
    rcases Pool.mem_update hx with rfl | ⟨j, hj, hxj⟩ | hnew
    · refine ⟨hs.starting, hs.clear, fun hh => (by cases hh), fun hh => ?_, fun hh => ?_⟩
      · obtain ⟨hop, hwait, -⟩ := hs.awaiting hh
        exact ⟨hop, waitingSince_cons rfl hwait, fun ha => confirmedSince_choice ha hwait⟩
      · obtain ⟨hop, hyes⟩ := hs.chosen hh
        exact ⟨hop, confirmedSince_cons rfl hyes⟩
    · exact (h.sane x (List.mem_of_getElem? hxj)).frame (fun _ => .inl rfl)
        (.inr ⟨hother hj hxj, fun ha hwait => confirmedSince_choice ha hwait⟩)
        (fun _ hh => waitingSince_cons rfl hh) (fun _ hh => confirmedSince_cons rfl hh)
    · cases hnew

/-- A step that adds a note within the operation, and changes the record in nothing the invariant
speaks of. -/
theorem Guarded.noted {w' : World} {c' : Ctx} {n : Note} (h : Guarded w cs) (hc : cs[i]? = some c)
    (hw : w' = { w with critical := w'.critical, log := n :: w.log }) (hn : n.within = true)
    (hc' : c'.starting = c.starting ∧ c'.clear = c.clear ∧ c'.emptied = c.emptied ∧
      c'.operates = c.operates ∧ c'.holds = c.holds)
    (hwait : c'.awaiting = true → c.awaiting = true) (hchosen : c'.chosen = true → c.chosen = true)
    (happroved : n.Approved w.log) : Guarded w' (cs.set i c' ++ []) := by
  have hsame : w'.held = w.held ∧ w'.running = w.running ∧ w'.stopped = w.stopped ∧
      w'.approval = w.approval ∧ w'.log = n :: w.log := by
    rw [hw]
    exact ⟨rfl, rfl, rfl, rfl, rfl⟩
  obtain ⟨hheld, hrunning, hstopped, happroval, hlog⟩ := hsame
  have hs := (h.sane c (List.mem_of_getElem? hc)).noted hstopped happroval hlog hn
  refine h.keep hc hheld hrunning hc'.2.2.2.2 hc'.2.2.2.1 (hs.moved hc' hwait hchosen)
    (fun x _ hx => hx.noted hstopped happroval hlog hn) ?_
  rw [hlog]
  exact h.log.cons happroved

/-- A return to the caller, with a note if it is `Ok`. -/
theorem Guarded.returns {c' : Ctx} {n : Note} (h : Guarded w cs) (hc : cs[i]? = some c)
    (result : Outcome) (hn : n.within = true)
    (hc' : c'.starting = c.starting ∧ c'.clear = c.clear ∧ c'.emptied = c.emptied ∧
      c'.operates = c.operates ∧ c'.holds = c.holds)
    (hwait : c'.awaiting = true → c.awaiting = true) (hchosen : c'.chosen = true → c.chosen = true)
    (happroved : result.isOk = true → n.Approved w.log) :
    Guarded (w.noteIf result.isOk n) (cs.set i c' ++ []) := by
  cases hr : result.isOk with
  | true => exact h.noted hc rfl hn hc' hwait hchosen (happroved hr)
  | false =>
    have hs := h.sane c (List.mem_of_getElem? hc)
    exact h.keep hc rfl rfl hc'.2.2.2.2 hc'.2.2.2.1 (hs.moved hc' hwait hchosen)
      (fun x _ hx => hx) h.log

/-- Every allowed action keeps the invariant. -/
theorem guarded_act {β : Type} {a : Call β} {r : β} {w' : World} (h : Guarded w cs)
    (hc : cs[i]? = some c) (hok : c.allows a) (he : exec a c e w = some (r, w')) :
    Guarded w' (cs.set i (c.after a r w) ++ []) := by
  cases a with
  | swapRunning =>
    cases he
    rw [show c = {} from hok] at hc ⊢
    exact guarded_swapRunning h hc
  | storeRunning value =>
    cases he
    obtain ⟨rfl, hop, hfree⟩ := hok
    exact guarded_storeRunning h hc hop hfree
  | loadCritical =>
    cases he
    exact h.still hc rfl
  | storeCritical value =>
    cases he
    cases value with
    | false => exact h.still hc rfl
    | true =>
      exact h.noted hc rfl rfl ⟨rfl, rfl, rfl, rfl, rfl⟩ id id fun hn => by cases hn
  | loadStopped =>
    cases he
    exact guarded_loadStopped h hc
  | storeStopped value =>
    cases he
    cases value with
    | true => exact guarded_storeStopped_true h hc hok
    | false => exact guarded_storeStopped_false h hc
  | loadWaiting =>
    cases he
    exact h.still hc rfl
  | storeWaiting value =>
    cases he
    cases value with
    | true => exact guarded_storeWaiting_true h hc (hok rfl).1 (hok rfl).2
    | false => exact h.still hc rfl
  | lock =>
    simp only [exec] at he
    split at he
    · cases he
    · rename_i hheld
      cases he
      exact guarded_lock h hc (by simpa using hheld)
  | unlock =>
    cases he
    exact guarded_unlock h hc hok
  | choice =>
    cases he
    exact guarded_choice h hc
  | setChoice value =>
    cases he
    exact guarded_setChoice h hc hok.1 value
  | notifyAll =>
    cases he
    exact h.still hc rfl
  | notify =>
    cases he
    exact h.still hc rfl
  | elapsed =>
    cases he
    exact h.still hc rfl
  | next =>
    cases he
    exact h.still hc rfl
  | stopReturns result =>
    cases he
    exact h.returns hc result rfl ⟨rfl, rfl, rfl, rfl, rfl⟩ id id fun _ hn => by cases hn
  | approvalReturns result =>
    cases he
    refine h.returns hc result rfl ⟨rfl, rfl, rfl, rfl, rfl⟩ (fun hh => by cases hh)
      (fun hh => by cases hh) fun hr _ => ?_
    exact ((h.sane c (List.mem_of_getElem? hc)).chosen (hok hr)).2

end Step

/-- The invariant holds in every run, under any condition. -/
theorem run_guarded {K : Condition Call Ctx World Input Outside} {s : State Call Ctx World Body}
    (h : installer.Run K initial s) :
    Guarded s.world s.ctxs ∧ ∀ t ∈ s.threads, regime.Keeps t := by
  refine Machine.sound regime (I := Guarded) program_keeps ?_ ?_ ?_ (by simp [initial]) h
  · intro β w w' cs i c a e r hI hc hok _ he
    exact ⟨trivial, by simp [installer], guarded_act hI hc hok he⟩
  · intro w cs x o hI _ ho
    cases ho
    refine ⟨?_, ?_⟩
    · intro bc hbc
      rw [List.mem_singleton.mp hbc]
      cases x with
      | operation => rfl
      | stop => rfl
      | confirm accepted => rfl
    · refine ⟨hI.mutex.spawn (by simp), hI.operation.spawn (by simp), fun c hc => ?_, hI.log⟩
      rcases List.mem_append.mp hc with hc | hc
      · exact hI.sane c hc
      · rw [List.mem_singleton.mp hc]
        exact sane_new w
  · exact ⟨.nil, .nil, by simp [initial, State.ctxs], trivial⟩

/-! ### Stops -/

/-- No stop sets its flag while a start has still to clear it, and no operation is started while a
stop that has set its flag has still to return. -/
def apart : Condition Call Ctx World Input Outside where
  act w cs _ a _ := match a with
    | .swapRunning => w.running || cs.all fun x => !x.stopping
    | .storeStopped true => cs.all fun x => !x.starting
    | _ => true
  outside _ _ := true

/-- The flag stands for every stop that the operation has to heed. -/
structure Heeded (w : World) (cs : List Ctx) : Prop where
  stopping : ∀ x ∈ cs, x.stopping = true → w.stopped = true ∧ ∀ y ∈ cs, y.starting = false
  stopped : stoppedSince w.log = true → w.stopped = true ∧ ∀ y ∈ cs, y.starting = false
  log : Each Note.Kept w.log

section Stops

variable {w : World} {cs : List Ctx} {i : Nat} {c : Ctx} {e : Input}

/-- A step that starts nothing and stops nothing. -/
theorem Heeded.keep {w' : World} {c' : Ctx} (h : Heeded w cs) (hc : cs[i]? = some c)
    (hflag : w'.stopped = w.stopped) (hstop : c'.stopping = true → c.stopping = true)
    (hstart : c'.starting = true → c.starting = true)
    (hsince : stoppedSince w'.log = true → stoppedSince w.log = true)
    (hlog : Each Note.Kept w'.log) : Heeded w' (cs.set i c' ++ []) := by
  have hno : (∀ y ∈ cs, y.starting = false) → ∀ y ∈ cs.set i c' ++ [], y.starting = false := by
    intro hall
    refine Pool.forall_update hall ?_ (by simp)
    have hold := hall c (List.mem_of_getElem? hc)
    by_contra hne
    rw [hstart (by simpa using hne)] at hold
    cases hold
  refine ⟨fun x hx hs => ?_, fun hs => ?_, hlog⟩
  · rw [hflag]
    rcases Pool.mem_update hx with rfl | ⟨j, _, hxj⟩ | hnew
    · obtain ⟨hset, hall⟩ := h.stopping c (List.mem_of_getElem? hc) (hstop hs)
      exact ⟨hset, hno hall⟩
    · obtain ⟨hset, hall⟩ := h.stopping x (List.mem_of_getElem? hxj) hs
      exact ⟨hset, hno hall⟩
    · cases hnew
  · rw [hflag]
    obtain ⟨hset, hall⟩ := h.stopped (hsince hs)
    exact ⟨hset, hno hall⟩

/-- An operation is started while no stop is on its way. -/
theorem heeded_swapRunning (h : Heeded w cs) (hc : cs[i]? = some {})
    (hK : apart.act w cs {} .swapRunning e = true) :
    Heeded ({ w with running := true }.noteIf (!w.running) .started)
      (cs.set i (Ctx.after {} .swapRunning w.running w) ++ []) := by
  cases hr : w.running with
  | true => exact h.keep hc rfl id id id h.log
  | false =>
    have hall : (w.running || cs.all fun x => !x.stopping) = true := hK
    have hquiet : ∀ x ∈ cs, x.stopping = false := by simpa [hr] using hall
    refine ⟨fun x hx hs => ?_, fun hs => (by cases hs), h.log.cons fun hn => by cases hn⟩
    rcases Pool.mem_update hx with rfl | ⟨j, _, hxj⟩ | hnew
    · cases hs
    · rw [hquiet x (List.mem_of_getElem? hxj)] at hs
      cases hs
    · cases hnew

/-- A stop sets its flag while no start has still to clear it. -/
theorem heeded_storeStopped_true (h : Heeded w cs) (hc : cs[i]? = some c)
    (hK : apart.act w cs c (.storeStopped true) e = true) :
    Heeded { w with stopped := true } (cs.set i (c.after (.storeStopped true) () w) ++ []) := by
  have hquiet : ∀ x ∈ cs, x.starting = false := by
    have hall : (cs.all fun x => !x.starting) = true := hK
    simpa using hall
  have hall : ∀ y ∈ cs.set i (c.after (.storeStopped true) () w) ++ [], y.starting = false :=
    Pool.forall_update hquiet (hquiet c (List.mem_of_getElem? hc)) (by simp)
  exact ⟨fun _ _ _ => ⟨rfl, hall⟩, fun _ => ⟨rfl, hall⟩, h.log⟩

/-- A start clears the flag: there is no stop to forget. -/
theorem heeded_storeStopped_false (h : Heeded w cs) (hc : cs[i]? = some c)
    (hstart : c.starting = true) :
    Heeded { w with stopped := false } (cs.set i (c.after (.storeStopped false) () w) ++ []) := by
  have hmem := List.mem_of_getElem? hc
  refine ⟨fun x hx hs => ?_, fun hs => ?_, h.log⟩
  · have hold : ∃ y ∈ cs, y.stopping = true := by
      rcases Pool.mem_update hx with rfl | ⟨j, _, hxj⟩ | hnew
      · exact ⟨c, hmem, hs⟩
      · exact ⟨x, List.mem_of_getElem? hxj, hs⟩
      · cases hnew
    obtain ⟨y, hy, hys⟩ := hold
    rw [(h.stopping y hy hys).2 c hmem] at hstart
    cases hstart
  · rw [(h.stopped hs).2 c hmem] at hstart
    cases hstart

/-- A stop returns: its flag stands. -/
theorem heeded_stopReturns (h : Heeded w cs) (hc : cs[i]? = some c) (result : Outcome)
    (hok : result.isOk = true → c.stopping = true) :
    Heeded (w.noteIf result.isOk (.stopped w.running))
      (cs.set i (c.after (.stopReturns result) () w) ++ []) := by
  cases hr : result.isOk with
  | false => exact h.keep hc rfl (fun hs => by cases hs) id id h.log
  | true =>
    obtain ⟨hset, hall⟩ := h.stopping c (List.mem_of_getElem? hc) (hok hr)
    have hnew : ∀ y ∈ cs.set i (c.after (.stopReturns result) () w) ++ [], y.starting = false :=
      Pool.forall_update hall (hall c (List.mem_of_getElem? hc)) (by simp)
    exact ⟨fun _ _ _ => ⟨hset, hnew⟩, fun _ => ⟨hset, hnew⟩, h.log.cons fun hn => by cases hn⟩

/-- Every allowed action that keeps stops and starts apart keeps the stops. -/
theorem heeded_act {β : Type} {a : Call β} {r : β} {w' : World} (hg : Guarded w cs)
    (h : Heeded w cs) (hc : cs[i]? = some c) (hok : c.allows a) (hK : apart.act w cs c a e = true)
    (he : exec a c e w = some (r, w')) : Heeded w' (cs.set i (c.after a r w) ++ []) := by
  cases a with
  | swapRunning =>
    cases he
    rw [show c = {} from hok] at hc hK ⊢
    exact heeded_swapRunning h hc hK
  | storeRunning value =>
    cases he
    obtain ⟨rfl, -, -⟩ := hok
    exact h.keep hc rfl (fun hs => by cases hs) (fun hs => by cases hs) id h.log
  | storeCritical value =>
    cases he
    cases value with
    | false => exact h.keep hc rfl id id id h.log
    | true =>
      -- The worker has just seen under the mutex that nothing was stopped.
      have hclear := ((hg.sane c (List.mem_of_getElem? hc)).clear (hok.2 rfl)).2
      refine h.keep hc rfl id id id (h.log.cons fun _ => ?_)
      by_contra hne
      rw [(h.stopped (by simpa using hne)).1] at hclear
      cases hclear
  | storeStopped value =>
    cases he
    cases value with
    | true => exact heeded_storeStopped_true h hc hK
    | false => exact heeded_storeStopped_false h hc hok
  | storeWaiting value =>
    cases he
    cases value with
    | true => exact h.keep hc rfl id id id (h.log.cons fun hn => by cases hn)
    | false => exact h.keep hc rfl id id id h.log
  | lock =>
    simp only [exec] at he
    split at he
    · cases he
    · cases he
      exact h.keep hc rfl id id id h.log
  | setChoice value =>
    cases he
    cases value with
    | none => exact h.keep hc rfl id id id h.log
    | some accepted => exact h.keep hc rfl id id id (h.log.cons fun hn => by cases hn)
  | stopReturns result =>
    cases he
    exact heeded_stopReturns h hc result hok
  | approvalReturns result =>
    cases he
    cases hr : result.isOk with
    | false => exact h.keep hc rfl id id id h.log
    | true => exact h.keep hc rfl id id id (h.log.cons fun hn => by cases hn)
  | _ =>
    cases he
    exact h.keep hc rfl id id id h.log

end Stops

/-- Whatever the order, no operation enters its critical phase after a stop that returned `Ok` while
it was running, as long as stops and starts do not overlap; and whatever the order, an approval
follows a confirmation that was made after the operation began to wait for it. -/
theorem control_sound (s : State Call Ctx World Body) :
    (installer.Run apart initial s → Each Note.Kept s.world.log) ∧
    ∀ K, installer.Run K initial s → Each Note.Approved s.world.log := by
  refine ⟨fun h => ?_, fun K h => (run_guarded h).1.log⟩
  refine (Machine.sound_relative regime (G := Guarded) (J := Heeded) run_guarded ?_ ?_ ?_ h).log
  · intro β w w' cs i c a e r hG hJ hc hok hK he
    exact heeded_act hG hJ hc hok hK he
  · intro w cs x o _ hJ _ ho
    cases ho
    have hall : (∀ y ∈ cs, y.starting = false) → ∀ y ∈ cs ++ [({} : Ctx)], y.starting = false := by
      intro hcs y hy
      rcases List.mem_append.mp hy with hy | hy
      · exact hcs y hy
      · rw [List.mem_singleton.mp hy]
    refine ⟨fun y hy hs => ?_, fun hs => ?_, hJ.log⟩
    · rcases List.mem_append.mp hy with hy | hy
      · obtain ⟨hset, hcs⟩ := hJ.stopping y hy hs
        exact ⟨hset, hall hcs⟩
      · rw [List.mem_singleton.mp hy] at hs
        cases hs
    · obtain ⟨hset, hcs⟩ := hJ.stopped hs
      exact ⟨hset, hall hcs⟩
  · exact ⟨by simp [initial, State.ctxs], fun hs => (by cases hs), trivial⟩

/-! ### Two runs -/

/-- Turns of one thread, with what the environment answers to the last of them. -/
def turns (thread count : Nat) (last : Input) : List (Event Input Outside) :=
  List.replicate count (.thread thread {}) ++ [.thread thread last]

/-- An operation waits for an approval, is confirmed and enters its critical phase; a stop is
refused. -/
def approvedRun : List (Event Input Outside) :=
  .outside .operation :: (turns 0 7 { next := .awaitApproval } ++ turns 0 9 {} ++
    .outside (.confirm true) :: (turns 1 4 {} ++ turns 0 9 {} ++ .outside .stop :: turns 2 3 {}))

/-- The approved operation. -/
theorem approved_run_sound : ∃ s, installer.Run apart initial s ∧
    s.world.log = [.approved, .critical, .confirmed true, .waiting, .started] ∧
    Each Note.Kept s.world.log ∧ Each Note.Approved s.world.log := by
  have hrun : ((installer.run apart initial approvedRun).any fun s =>
      s.world.log == [.approved, .critical, .confirmed true, .waiting, .started]) = true := by
    decide +kernel
  obtain ⟨s, hs, hlog⟩ := Machine.Run.exists_of_run hrun
  exact ⟨s, hs, beq_iff_eq.mp hlog, (control_sound s).1 hs, (control_sound s).2 apart hs⟩

/-- A stop comes between the two stores of a start. -/
def forgetfulRun : List (Event Input Outside) :=
  .outside .operation :: (turns 0 0 {} ++ .outside .stop :: (turns 1 5 {} ++
    turns 0 6 { next := .enterCritical } ++ turns 0 2 {}))

/-- The stop is answered with `Ok`, and the operation enters its critical phase. -/
theorem forgotten_stop : ∃ s, installer.Run Condition.any initial s ∧
    ¬ Each Note.Kept s.world.log := by
  have hrun : ((installer.run Condition.any initial forgetfulRun).any fun s =>
      s.world.log == [.critical, .stopped true, .started]) = true := by decide +kernel
  obtain ⟨s, hs, hlog⟩ := Machine.Run.exists_of_run hrun
  refine ⟨s, hs, fun h => ?_⟩
  rw [beq_iff_eq.mp hlog] at h
  have hkept := h.1 rfl
  cases hkept

end OpenUI.Installer.Control
