import OpenUI.Proofs.Agent.Lan

/-!
# `OpenUI.Proofs.Agent.LanRetry`: when a pending LAN change can still be cleared

A pending change stays in the manager until its journal is removed. The removal unlinks the file and
then syncs the directory; when only the second fails, the caller is told that the removal failed,
and every later removal fails because there is nothing left to remove. From then on `expire` and
`confirm` cannot clear the change, and `begin` refuses every other one until the agent restarts
(`Stuck`).

* `Recorded`: what keeps a run out of this. A pending change has its journal on disk.
* `recorded_step`: every event keeps it, in which no removal of a pending change's journal reports
  a failure although the journal is gone.
* `lan_unwedged`: the manager is never stuck in such a run, and being stuck is the only way to
  wedge.
-/

set_option autoImplicit false

namespace OpenUI.Agent.Lan

open OpenUI.Concurrency OpenUI.Concurrency.Program

/-! ### What a client may still do -/

/-- The store and the settings service work. -/
def Answer.works (e : Answer) : Bool :=
  match e.fault with
  | .none => true
  | _ => false

/-- The functions that are called again while a change is pending. -/
def Op.retries : Op → Bool
  | .expire _ | .confirm _ => true
  | _ => false

/-- The worlds that finitely many calls of `expire` and `confirm` lead to, all calls of the backend
working. -/
inductive Retries (w : World) : World → Prop where
  | done : Retries w w
  | call {w₁ w₂ : World} (op : Op) (answers : List Answer) (h : Retries w w₁)
      (hop : op.retries = true) (hworks : ∀ e ∈ answers, e.works = true)
      (hs : w₁.step (.call op answers) = some w₂) : Retries w w₂
  | wait {w₁ w₂ : World} (d : Nat) (h : Retries w w₁) (hs : w₁.step (.wait d) = some w₂) :
      Retries w w₂

/-- `begin` accepts every change of the settings that passes its checks. -/
def Admits (w : World) : Prop :=
  ∀ proposed answers, validateLanSettings proposed = .ok () →
    validateLanSettings w.router.live = .ok () → w.router.live ≠ proposed →
    (w.manager.binding.fixed = true → w.router.live.ipaddr = proposed.ipaddr) →
    answers.length = 5 → (∀ e ∈ answers, e.works = true) →
    ∃ token m r, (w.manager.begin proposed).play Router.exec answers w.router =
      some (some (.ok (.changed proposed.ipaddr token (confirmTime / 1000)), m), r)

/-- Once the journal is gone, `expire` and `confirm` clear what is pending, and `begin` accepts. -/
def Unwedged (w : World) : Prop :=
  w.router.journal = none →
    ∃ w', Retries w w' ∧ w'.manager.pending = none ∧ Admits w'

/-! ### The manager that is stuck -/

/-- A change is pending and its journal is gone. -/
def Stuck (m : LanManager) (r : Router) : Prop := m.pending.isSome = true ∧ r.journal = none

/-- There is nothing to remove, so a removal fails. -/
theorem exec_clear_absent {confirms : Option Journal} {e : Answer} {r r' : Router}
    {x : Except String Unit} (hj : r.journal = none)
    (h : Router.exec (.clear confirms) e r = some (x, r')) :
    ∃ m d, x = .error m ∧ r' = r.wait d := by
  simp only [Router.exec] at h
  split at h
  · cases h
    exact ⟨_, _, rfl, rfl⟩
  · cases h
    exact ⟨_, _, rfl, rfl⟩
  · rename_i hsome
    rw [hj] at hsome
    cases hsome
  · rename_i hsome
    rw [hj] at hsome
    cases hsome
  · cases h

/-- A function leaves the manager stuck, whatever its calls answer. -/
abbrev StaysStuck {α : Type} (p : Program Call (α × LanManager)) (r : Router) : Prop :=
  p.Upholds Router.exec (fun _ => true) (fun _ => True) (fun x r' => Stuck x.2 r') r

theorem stuck_rollback {m : LanManager} {r : Router} (h : Stuck m r) :
    StaysStuck m.rollbackLocked r := by
  obtain ⟨hpending, hj⟩ := h
  unfold LanManager.rollbackLocked
  cases hp : m.pending with
  | none => exact .pure trivial ⟨hpending, hj⟩
  | some p =>
    refine .act trivial fun e x r₁ _ he => ?_
    rcases exec_apply he with ⟨rfl, d, rfl⟩ | ⟨error, live, d, rfl, rfl⟩
    · refine .act trivial fun e x r₂ _ he => ?_
      have hj₁ : ((r.wait d).applied p.journal.previous).journal = none := hj
      obtain ⟨error, d', rfl, rfl⟩ := exec_clear_absent hj₁ he
      exact .pure trivial ⟨by simp [LanManager.bind, hp], hj⟩
    · exact .pure trivial ⟨by simp, hj⟩

theorem stuck_expire {m : LanManager} {r : Router} (now : Nat) (h : Stuck m r) :
    StaysStuck (m.expire now) r := by
  unfold LanManager.expire
  cases hp : m.pending with
  | none => exact .pure trivial h
  | some p =>
    dsimp only
    split
    · refine .bind (stuck_rollback ?_) fun x r' _ hx => .pure trivial hx
      show (some p).isSome = true ∧ r.journal = none
      exact ⟨rfl, h.2⟩
    · exact .pure trivial h

theorem stuck_confirm {m : LanManager} {r : Router} (token : String) (h : Stuck m r) :
    StaysStuck (m.confirm token) r := by
  obtain ⟨p, hp⟩ := Option.isSome_iff_exists.mp h.1
  unfold LanManager.confirm LanManager.confirmPending
  rw [hp]
  refine .act trivial fun e now r₁ _ he => ?_
  cases he
  split
  · exact .pure trivial h
  · refine .act trivial fun e read r₁ _ he => ?_
    obtain ⟨⟨d, rfl⟩, -⟩ := exec_read he
    cases read with
    | error _ => exact .pure trivial h
    | ok live =>
      dsimp only
      split
      · exact .pure trivial h
      · refine .act trivial fun e x r₂ _ he => ?_
        have hj : (r.wait d).journal = none := h.2
        obtain ⟨error, d', rfl, rfl⟩ := exec_clear_absent hj he
        exact .pure trivial h

/-- No call of `expire` or `confirm` clears the change. -/
theorem stuck_step {w w' : World} {op : Op} {answers : List Answer}
    (h : Stuck w.manager w.router) (hop : op.retries = true)
    (hs : w.step (.call op answers) = some w') : Stuck w'.manager w'.router := by
  have hrun : StaysStuck (op.run w.manager) w.router := by
    cases op with
    | expire now => exact .bind (stuck_expire now h) fun _ _ _ hx => .pure trivial hx
    | confirm token => exact .bind (stuck_confirm token h) fun _ _ _ hx => .pure trivial hx
    | recover | begin _ | applyPending => cases hop
  simp only [World.step] at hs
  split at hs
  · rename_i res m r hplay
    cases hs
    exact (hrun.play (fun _ _ => rfl) hplay).2 _ rfl
  · cases hs

theorem stuck_retries {w w' : World} (h : Retries w w') (hw : Stuck w.manager w.router) :
    Stuck w'.manager w'.router := by
  induction h with
  | done => exact hw
  | call op answers _ hop _ hs ih => exact stuck_step ih hop hs
  | wait d _ hs ih =>
    cases hs
    exact ih

/-! ### What is accepted -/

theorem exec_works {e : Answer} {r : Router} (h : e.works = true) :
    Router.exec .load e r = some (.ok r.journal, r.wait e.elapsed) ∧
    Router.exec .read e r = some (.ok r.live, r.wait e.elapsed) ∧
    Router.exec .random e r = some (.ok e.token, r.wait e.elapsed) ∧
    ∀ j, Router.exec (.save j) e r = some (.ok (), (r.wait e.elapsed).saved j) := by
  obtain ⟨fault, elapsed, token⟩ := e
  cases fault with
  | none => exact ⟨rfl, rfl, rfl, fun _ => rfl⟩
  | failed | partly | replaced | removed => cases h

/-- With nothing pending and no journal, `begin` does what it is asked for. -/
theorem admits_of_idle {w : World} (hp : w.manager.pending = none) (hj : w.router.journal = none) :
    Admits w := by
  intro proposed answers hproposed hlive hne hfixed hlength hworks
  rcases answers with _ | ⟨e₁, _ | ⟨e₂, _ | ⟨e₃, _ | ⟨e₄, _ | ⟨e₅, rest⟩⟩⟩⟩⟩
  case cons.cons.cons.cons.cons =>
    have hload := (exec_works (r := w.router) (hworks e₁ (by simp))).1
    have hread := (exec_works (r := w.router.wait e₁.elapsed) (hworks e₂ (by simp))).2.1
    have hrandom := (exec_works (r := (w.router.wait e₁.elapsed).wait e₂.elapsed)
      (hworks e₃ (by simp))).2.2.1
    have hsave := (exec_works (r := ((w.router.wait e₁.elapsed).wait e₂.elapsed).wait e₃.elapsed)
      (hworks e₄ (by simp))).2.2.2 ⟨w.router.live, proposed, e₃.token⟩
    have haddress : ¬(w.manager.binding.fixed = true ∧ w.router.live.ipaddr ≠ proposed.ipaddr) :=
      fun h => h.2 (hfixed h.1)
    have hlive' : (w.router.wait e₁.elapsed).live = w.router.live := rfl
    let journal : Journal := ⟨w.router.live, proposed, e₃.token⟩
    let saved := ((((w.router.wait e₁.elapsed).wait e₂.elapsed).wait e₃.elapsed).wait
      e₄.elapsed).saved journal
    refine ⟨e₃.token, { w.manager with
      confirmed := none
      pending := some { journal, deadline := saved.now + confirmTime, applied := false } },
      saved, ?_⟩
    simp only [LanManager.begin, hp, Option.isSome_none, Bool.false_eq_true, if_false]
    rw [play_act hload]
    simp only [hj, hproposed]
    rw [play_act hread]
    simp only [hlive', hlive, hne, if_false, haddress]
    unfold LanManager.beginRecorded
    rw [play_act hrandom]
    dsimp only
    rw [play_act hsave]
    dsimp only
    rw [play_act rfl]
    rfl
  all_goals simp at hlength

/-- The manager wedges exactly when it is stuck. -/
theorem unwedged_iff (w : World) : Unwedged w ↔ ¬Stuck w.manager w.router := by
  constructor
  · intro h hstuck
    obtain ⟨w', hretries, hnone, -⟩ := h hstuck.2
    have hpending := (stuck_retries hretries hstuck).1
    rw [hnone] at hpending
    cases hpending
  · intro h hj
    have hnone : w.manager.pending = none := by
      by_contra hsome
      exact h ⟨Option.isSome_iff_ne_none.mpr hsome, hj⟩
    exact ⟨w, .done, hnone, admits_of_idle hnone hj⟩

/-! ### What keeps the manager out of it -/

/-- A pending change has its journal on disk. -/
def Recorded (m : LanManager) (r : Router) : Prop :=
  ∀ p, m.pending = some p → r.journal = some p.journal

theorem Recorded.of_none {m : LanManager} {r : Router} (h : m.pending = none) : Recorded m r := by
  intro p hp
  rw [h] at hp
  cases hp

theorem Recorded.not_stuck {m : LanManager} {r : Router} (h : Recorded m r) : ¬Stuck m r := by
  intro hstuck
  obtain ⟨p, hp⟩ := Option.isSome_iff_exists.mp hstuck.1
  have hj := h p hp
  rw [hstuck.2] at hj
  cases hj

/-- A function leaves every pending change recorded, if its calls answer as `K` says. -/
abbrev Records {α : Type} (K : Answer → Bool) (p : Program Call (α × LanManager)) (r : Router) :
    Prop :=
  p.Upholds Router.exec K (fun _ => True) (fun x r' => Recorded x.2 r') r

section Pending

variable {m : LanManager} {r : Router}

theorem records_rollback (h : Recorded m r) :
    Records Answer.keepsJournal m.rollbackLocked r := by
  unfold LanManager.rollbackLocked
  cases hp : m.pending with
  | none => exact .pure trivial h
  | some p =>
    have hj := h p hp
    refine .act trivial fun e x r₁ _ he => ?_
    rcases exec_apply he with ⟨rfl, d, rfl⟩ | ⟨error, live, d, rfl, rfl⟩
    · refine .act trivial fun e x r₂ hK he => ?_
      rcases exec_clear hK he with ⟨rfl, d', rfl⟩ | ⟨error, d', rfl, rfl⟩
      · exact .pure trivial (.of_none rfl)
      · exact .pure trivial h
    · refine .pure trivial fun p' hp' => ?_
      obtain rfl : p = p' := Option.some.inj hp'
      exact hj

theorem records_applyPending (h : Recorded m r) :
    Records Answer.keepsJournal m.applyPending r := by
  unfold LanManager.applyPending
  cases hp : m.pending with
  | none => exact .pure trivial h
  | some p =>
    have hj := h p hp
    refine .act trivial fun e x r₁ _ he => ?_
    rcases exec_apply he with ⟨rfl, d, rfl⟩ | ⟨error, live, d, rfl, rfl⟩
    · refine .pure trivial fun p' hp' => ?_
      obtain rfl : { p with applied := true } = p' := Option.some.inj hp'
      exact hj
    · refine records_rollback fun p' hp' => ?_
      obtain rfl : p = p' := Option.some.inj hp'
      exact hj

theorem records_expire (now : Nat) (h : Recorded m r) :
    Records Answer.keepsJournal (m.expire now) r := by
  unfold LanManager.expire
  cases hp : m.pending with
  | none => exact .pure trivial h
  | some p =>
    have hj := h p hp
    dsimp only
    split
    · refine .bind (records_rollback fun p' hp' => ?_) fun x r' _ hx => .pure trivial hx
      obtain rfl : p = p' := Option.some.inj hp'
      exact hj
    · exact .pure trivial h

theorem records_begin (proposed : LanSettings) (hp : m.pending = none) :
    Records (fun _ => true) (m.begin proposed) r := by
  have hnone : ∀ r', Recorded m r' := fun _ => .of_none hp
  unfold LanManager.begin LanManager.beginRecorded
  rw [hp]
  refine .act trivial fun e loaded r₁ _ he => ?_
  split
  · exact .pure trivial (hnone _)
  · exact .pure trivial (hnone _)
  · split
    · exact .pure trivial (hnone _)
    · refine .act trivial fun e read r₂ _ he => ?_
      split
      · exact .pure trivial (hnone _)
      · split
        · exact .pure trivial (hnone _)
        · split
          · exact .pure trivial (hnone _)
          · split
            · exact .pure trivial (hnone _)
            · refine .act trivial fun e random r₃ _ he => ?_
              split
              · exact .pure trivial (hnone _)
              · refine .act trivial fun e saved r₄ _ he => ?_
                split
                · exact .pure trivial (hnone _)
                · refine .act trivial fun e now r₅ _ he' => ?_
                  cases he'
                  refine .pure trivial fun p hpend => ?_
                  obtain rfl := Option.some.inj hpend
                  -- The save succeeded, so the journal is there.
                  rcases exec_save he with ⟨d, rfl⟩ | ⟨_, _, hx, -⟩
                  · rfl
                  · cases hx

theorem records_confirm (token : String) (h : Recorded m r) :
    Records Answer.keepsJournal (m.confirm token) r := by
  unfold LanManager.confirm LanManager.confirmPending
  split
  · refine .act trivial fun e now r₁ _ he => ?_
    cases he
    split
    · exact .pure trivial h
    · refine .act trivial fun e read r₁ _ he => ?_
      obtain ⟨⟨d, rfl⟩, -⟩ := exec_read he
      split
      · exact .pure trivial h
      · split
        · exact .pure trivial h
        · refine .act trivial fun e x r₂ hK he => ?_
          rcases exec_clear hK he with ⟨rfl, d', rfl⟩ | ⟨error, d', rfl, rfl⟩
          · exact .pure trivial (.of_none rfl)
          · exact .pure trivial h
  · exact .pure trivial h
  · split
    · exact .pure trivial h
    · refine .act trivial fun e read r₁ _ he => ?_
      obtain ⟨⟨d, rfl⟩, -⟩ := exec_read he
      split
      · exact .pure trivial h
      · exact .pure trivial h

theorem records_recover (h : Recorded m r) : Records Answer.keepsJournal m.recover r := by
  refine .act trivial fun e loaded r₁ _ he => ?_
  obtain ⟨⟨d, rfl⟩, -⟩ := exec_load he
  split
  · exact .pure trivial h
  · exact .pure trivial (.of_none rfl)
  · split
    · exact .pure trivial h
    · refine .act trivial fun e x r₂ _ he => ?_
      rcases exec_apply he with ⟨rfl, d', rfl⟩ | ⟨error, live, d', rfl, rfl⟩
      · refine .act trivial fun e x r₃ hK he => ?_
        rcases exec_clear hK he with ⟨rfl, d'', rfl⟩ | ⟨error, d'', rfl, rfl⟩
        · exact .pure trivial (.of_none rfl)
        · exact .pure trivial h
      · exact .pure trivial h

/-- A start-up recovery leaves nothing pending, however its calls end. -/
theorem records_recover_idle (hp : m.pending = none) : Records (fun _ => true) m.recover r := by
  refine .act trivial fun e loaded r₁ _ he => ?_
  split
  · exact .pure trivial (.of_none hp)
  · exact .pure trivial (.of_none rfl)
  · split
    · exact .pure trivial (.of_none hp)
    · refine .act trivial fun e x r₂ _ he => ?_
      split
      · exact .pure trivial (.of_none hp)
      · refine .act trivial fun e x r₃ _ he => ?_
        split
        · exact .pure trivial (.of_none hp)
        · exact .pure trivial (.of_none rfl)

/-- With nothing pending, `confirm` removes nothing. -/
theorem records_confirm_idle (token : String) (hp : m.pending = none) :
    Records (fun _ => true) (m.confirm token) r := by
  have hnone : ∀ r', Recorded m r' := fun _ => .of_none hp
  unfold LanManager.confirm
  rw [hp]
  split
  · contradiction
  · exact .pure trivial (hnone _)
  · split
    · exact .pure trivial (hnone _)
    · refine .act trivial fun e read r₁ _ he => ?_
      split
      · exact .pure trivial (hnone _)
      · exact .pure trivial (hnone _)

/-- Every function leaves a pending change recorded. -/
theorem records_run (op : Op) (h : Recorded m r) : Records Answer.keepsJournal (op.run m) r := by
  cases op with
  | recover => exact .bind (records_recover h) fun _ _ _ hx => .pure trivial hx
  | begin proposed =>
    cases hp : m.pending with
    | none =>
      refine .bind (R := fun x r' => Recorded x.2 r') ?_ fun _ _ _ hx => .pure trivial hx
      exact (records_begin proposed hp).restrict fun _ _ => rfl
    | some p =>
      refine .bind (R := fun x r' => Recorded x.2 r') ?_ fun _ _ _ hx => .pure trivial hx
      unfold LanManager.begin
      simp only [hp, Option.isSome_some, if_true]
      exact .pure trivial h
  | applyPending => exact .bind (records_applyPending h) fun _ _ _ hx => .pure trivial hx
  | expire now => exact .bind (records_expire now h) fun _ _ _ hx => .pure trivial hx
  | confirm token => exact .bind (records_confirm token h) fun _ _ _ hx => .pure trivial hx

/-- With nothing pending it does so however its calls end. -/
theorem records_run_idle (op : Op) (hp : m.pending = none) :
    Records (fun _ => true) (op.run m) r := by
  have hnone : ∀ r', Recorded m r' := fun _ => .of_none hp
  cases op with
  | recover => exact .bind (records_recover_idle hp) fun _ _ _ hx => .pure trivial hx
  | begin proposed => exact .bind (records_begin proposed hp) fun _ _ _ hx => .pure trivial hx
  | applyPending =>
    simp only [Op.run, LanManager.applyPending, hp]
    exact .pure trivial (hnone _)
  | expire now =>
    simp only [Op.run, LanManager.expire, hp]
    exact .pure trivial (hnone _)
  | confirm token =>
    exact .bind (records_confirm_idle token hp) fun _ _ _ hx => .pure trivial hx

end Pending

/-! ### Runs -/

/-- While a change is pending, no removal of the journal reports a failure although the journal is
gone. -/
def Event.Calm (w : World) : Event → Prop
  | .call _ answers => w.manager.pending.isSome = true → ∀ e ∈ answers, e.keepsJournal = true
  | _ => True

/-- The worlds reached by events that meet this. -/
inductive CalmlyReaches : World → Prop where
  | start (live : LanSettings) (binding : Binding) (now : Nat) :
      CalmlyReaches ⟨.new binding, { live, now, confirmed := live }⟩
  | step {w w' : World} (event : Event) (h : CalmlyReaches w) (hcalm : event.Calm w)
      (hs : w.step event = some w') : CalmlyReaches w'

theorem recorded_step {w w' : World} {event : Event} (h : Recorded w.manager w.router)
    (hcalm : event.Calm w) (hs : w.step event = some w') : Recorded w'.manager w'.router := by
  cases event with
  | call op answers =>
    simp only [World.step] at hs
    split at hs
    · rename_i res m r hplay
      cases hs
      cases hp : w.manager.pending with
      | none => exact ((records_run_idle op hp).play (fun _ _ => rfl) hplay).2 _ rfl
      | some p =>
        have hkeeps := hcalm (by rw [hp]; rfl)
        exact ((records_run op h).play hkeeps hplay).2 _ rfl
    · cases hs
  | cut op answers binding =>
    simp only [World.step] at hs
    split at hs
    · cases hs
      exact .of_none rfl
    · cases hs
  | restart binding =>
    cases hs
    exact .of_none rfl
  | wait d =>
    cases hs
    exact h

theorem calmlyReaches_recorded {w : World} (h : CalmlyReaches w) :
    Recorded w.manager w.router := by
  induction h with
  | start live binding now => exact .of_none rfl
  | step event _ hcalm hs ih => exact recorded_step ih hcalm hs

/-- **A LAN change can be cleared.** In every run in which no removal of a pending change's journal
reports a failure although the journal is gone: wherever the journal is gone, finitely many calls of
`expire` and `confirm` with a working store clear what is pending, and `begin` accepts again. In any
state at all, the manager is wedged exactly when a change is pending whose journal is gone. -/
theorem lan_unwedged (w : World) :
    (CalmlyReaches w → Unwedged w) ∧
    (Unwedged w ↔ ¬(w.manager.pending.isSome = true ∧ w.router.journal = none)) :=
  ⟨fun h => (unwedged_iff w).mpr (calmlyReaches_recorded h).not_stuck, unwedged_iff w⟩

/-! ### A confirmed change, and one whose journal is lost -/

/-- Several events, one after the other. -/
theorem CalmlyReaches.events {w w' : World} (h : CalmlyReaches w) (events : List Event)
    (hcalm : ∀ event ∈ events, ∀ e ∈ event.answers, e.keepsJournal = true)
    (hs : events.foldlM World.step w = some w') : CalmlyReaches w' := by
  induction events generalizing w with
  | nil =>
    cases hs
    exact h
  | cons event events ih =>
    rw [List.foldlM_cons] at hs
    obtain ⟨w₁, h₁, hs⟩ := Option.bind_eq_some_iff.mp hs
    have hevent : event.Calm w := by
      cases event with
      | call op answers => exact fun _ => hcalm (.call op answers) List.mem_cons_self
      | cut | restart | wait => trivial
    exact ih (h.step event hevent h₁) (fun event' h' => hcalm event' (List.mem_cons_of_mem _ h')) hs

open Sample in
/-- A change that was confirmed leaves the manager open for the next one. -/
theorem lan_unwedged_sample : settled.journal = none ∧ Unwedged ⟨idle, settled⟩ := by
  have hstart : CalmlyReaches start := .start previous _ 0
  have hreached : CalmlyReaches ⟨idle, settled⟩ :=
    hstart.events confirmation (by decide) run_confirmation
  exact ⟨rfl, (lan_unwedged _).1 hreached⟩

namespace Sample

/-- The deadline passes, the previous settings are restored and the journal is unlinked; then the
directory cannot be synced. -/
def lost : List Event := [.wait 120000, .call (.expire 120000)
  [{}, { fault := .removed "fsync: input/output error" }]]

/-- The router after it. -/
def restored : Router where
  live := previous
  now := 120000
  confirmed := previous
  log := [.applied previous, .applied proposed, .saved journal 0]

/-- The manager after it. -/
def blocked : LanManager where
  pending := some { journal, deadline := confirmTime, applied := true }
  error := some ("LAN restored but recovery record could not be cleared: " ++
    "fsync: input/output error")
  binding := { address := "192.168.0.1:9090", generation := 2 }

theorem run_lost : (change ++ lost).foldlM World.step start = some ⟨blocked, restored⟩ := by
  rw [List.foldlM_append, run_change]
  rfl

end Sample

open Sample in
/-- One failed directory sync wedges the manager. -/
theorem wedged_by_sync : ¬ ∀ w, Reaches (fun _ => true) w → Unwedged w := by
  intro hclaim
  have hstart : Reaches (fun _ => true) start := .start previous _ 0
  have hreached : Reaches (fun _ => true) ⟨blocked, restored⟩ :=
    hstart.run (change ++ lost) (fun _ _ _ _ => rfl) run_lost
  exact (unwedged_iff _).mp (hclaim _ hreached) ⟨rfl, rfl⟩

end OpenUI.Agent.Lan
