import OpenUI.Agent.Lan

/-!
# `OpenUI.Proofs.Agent.Lan`: no LAN change outlives its journal unconfirmed

The journal is written before a change is applied, and removed once the settings are the previous
ones again or the change is confirmed. So the previous settings are always known: without a journal
they are in force, and with one they stand in it (`Router.Safe`). This holds at every point where
the process may die, as long as the calls that fail to remove the journal leave it.

* `upholds_rollback`, `upholds_begin`, `upholds_confirm`, …: one rule for each function.
* `lan_safe`: every run.
-/

set_option autoImplicit false

namespace OpenUI.Agent.Lan

open OpenUI.Concurrency OpenUI.Concurrency.Program

-- The equations are stated here once, before the proofs that rewrite with them.
section
attribute [local simp] Router.exec World.step
end

/-! ### What holds -/

/-- The last confirmed settings are in force, or stand in the journal. -/
structure Router.Safe (r : Router) : Prop where
  free : r.journal = none → r.live = r.confirmed
  recorded : ∀ j, r.journal = some j → j.previous = r.confirmed

/-- The change of `j` was recorded at `time`, and its settings were in force at some point since. -/
def AppliedSince (log : List Done) (j : Journal) (time : Nat) : Prop :=
  ∃ after before, log = after ++ .saved j time :: before ∧ .applied j.proposed ∈ after

/-- The manager knows what the router has on record. -/
structure Agrees (m : LanManager) (r : Router) : Prop where
  pending : ∀ p, m.pending = some p → r.journal = some p.journal ∧
    ∃ time, p.deadline = time + confirmTime ∧
      (∃ after before, r.log = after ++ .saved p.journal time :: before) ∧
      (p.applied = true → AppliedSince r.log p.journal time)
  confirmed : ∀ j, m.confirmed = some j →
    .confirmed j ∈ r.log ∧ ∃ time, AppliedSince r.log j time

/-- A call that fails to remove the journal leaves it. -/
def Answer.keepsJournal (e : Answer) : Bool :=
  match e.fault with
  | .removed _ => false
  | _ => true

/-- What a successful `confirm` of `token` needs of the router it starts on and the one it ends
on. -/
def ConfirmedInTime (token : String) (r r' : Router) : Prop :=
  ∃ j time, token = j.token ∧ AppliedSince r.log j time ∧ r'.live = j.proposed ∧
    r.now < time + confirmTime

/-- The same change was confirmed before. -/
def ConfirmedAgain (token : String) (r r' : Router) : Prop :=
  ∃ j time, token = j.token ∧ AppliedSince r.log j time ∧ r'.live = j.proposed ∧
    .confirmed j ∈ r.log

theorem AppliedSince.grow {log : List Done} {j : Journal} {time : Nat} (new : List Done)
    (h : AppliedSince log j time) : AppliedSince (new ++ log) j time := by
  obtain ⟨after, before, rfl, ha⟩ := h
  exact ⟨new ++ after, before, by rw [List.append_assoc], List.mem_append_right _ ha⟩

/-! ### The calls -/

@[simp] theorem Router.safe_wait (d : Nat) (r : Router) : (r.wait d).Safe ↔ r.Safe :=
  ⟨fun h => ⟨h.free, h.recorded⟩, fun h => ⟨h.free, h.recorded⟩⟩

@[simp] theorem agrees_wait (m : LanManager) (d : Nat) (r : Router) :
    Agrees m (r.wait d) ↔ Agrees m r :=
  ⟨fun h => ⟨h.pending, h.confirmed⟩, fun h => ⟨h.pending, h.confirmed⟩⟩

/-- With a journal, any settings may be in force. -/
theorem Router.Safe.of_journal {r r' : Router} (h : r.Safe) {j : Journal}
    (hj : r.journal = some j) (hj' : r'.journal = r.journal) (hc : r'.confirmed = r.confirmed) :
    r'.Safe := by
  refine ⟨fun hn => ?_, fun j' h' => ?_⟩
  · rw [hj', hj] at hn
    cases hn
  · rw [hc]
    exact h.recorded j' (hj' ▸ h')

section Calls

variable {e : Answer} {r r' : Router}

/-- What a call returns that only looks. -/
theorem exec_read {x : Except String LanSettings} (h : Router.exec .read e r = some (x, r')) :
    (∃ d, r' = r.wait d) ∧ (x = .ok r.live ∨ ∃ m, x = .error m) := by
  simp only [Router.exec] at h
  split at h <;> cases h
  · exact ⟨⟨_, rfl⟩, .inl rfl⟩
  · exact ⟨⟨_, rfl⟩, .inr ⟨_, rfl⟩⟩

theorem exec_load {x : Except String (Option Journal)}
    (h : Router.exec .load e r = some (x, r')) :
    (∃ d, r' = r.wait d) ∧ (x = .ok r.journal ∨ ∃ m, x = .error m) := by
  simp only [Router.exec] at h
  split at h <;> cases h
  · exact ⟨⟨_, rfl⟩, .inl rfl⟩
  · exact ⟨⟨_, rfl⟩, .inr ⟨_, rfl⟩⟩

theorem exec_random {x : Except String String} (h : Router.exec .random e r = some (x, r')) :
    ∃ d, r' = r.wait d := by
  simp only [Router.exec] at h
  split at h <;> cases h <;> exact ⟨_, rfl⟩

/-- An apply puts its settings in force, or fails and leaves any. -/
theorem exec_apply {settings : LanSettings} {x : Except String Unit}
    (h : Router.exec (.apply settings) e r = some (x, r')) :
    (x = .ok () ∧ ∃ d, r' = (r.wait d).applied settings) ∨
      ∃ m live d, x = .error m ∧ r' = { r.wait d with live } := by
  simp only [Router.exec] at h
  split at h <;> cases h
  · exact .inl ⟨rfl, _, rfl⟩
  · exact .inr ⟨_, r.live, _, rfl, rfl⟩
  · exact .inr ⟨_, _, _, rfl, rfl⟩

/-- A save writes the journal, or fails; it may do both. -/
theorem exec_save {journal : Journal} {x : Except String Unit}
    (h : Router.exec (.save journal) e r = some (x, r')) :
    (∃ d, r' = (r.wait d).saved journal) ∨ ∃ m d, x = .error m ∧ r' = r.wait d := by
  simp only [Router.exec] at h
  split at h <;> cases h
  · exact .inl ⟨_, rfl⟩
  · exact .inr ⟨_, _, rfl, rfl⟩
  · exact .inl ⟨_, rfl⟩

/-- A clear removes the journal, or fails and leaves it. -/
theorem exec_clear {confirms : Option Journal} {x : Except String Unit}
    (hK : e.keepsJournal = true) (h : Router.exec (.clear confirms) e r = some (x, r')) :
    (x = .ok () ∧ ∃ d, r' = (r.wait d).cleared confirms) ∨ ∃ m d, x = .error m ∧ r' = r.wait d := by
  simp only [Router.exec] at h
  split at h
  · cases h
    exact .inr ⟨_, _, rfl, rfl⟩
  · cases h
    exact .inr ⟨_, _, rfl, rfl⟩
  · cases h
    exact .inl ⟨rfl, _, rfl⟩
  · rename_i hf _
    rw [Answer.keepsJournal, hf] at hK
    cases hK
  · cases h

end Calls

/-! ### The functions -/

/-- A function keeps the router safe, and the manager's knowledge of it. -/
abbrev Keeps {α : Type} (p : Program Call (α × LanManager)) (r : Router)
    (Q : α → Router → Prop) : Prop :=
  p.Upholds Router.exec Answer.keepsJournal Router.Safe
    (fun x r' => Agrees x.2 r' ∧ Q x.1 r') r

/-- No claim on the result. -/
abbrev anything {α : Type} (_ : α) (_ : Router) : Prop := True

/-- Only what the manager has pending and confirmed counts. -/
theorem Agrees.of_eq {m m' : LanManager} {r : Router} (h : Agrees m r)
    (hp : m'.pending = m.pending) (hc : m'.confirmed = m.confirmed) : Agrees m' r :=
  ⟨fun p hpend => h.pending p (hp ▸ hpend), fun j hj => h.confirmed j (hc ▸ hj)⟩

/-- More was done, and the journal stays. -/
theorem Agrees.grow {m : LanManager} {r r' : Router} (new : List Done) (h : Agrees m r)
    (hj : r'.journal = r.journal) (hlog : r'.log = new ++ r.log) : Agrees m r' := by
  refine ⟨fun p hp => ?_, fun j hconfirmed => ?_⟩
  · obtain ⟨hjournal, time, hdeadline, ⟨after, before, hsaved⟩, happlied⟩ := h.pending p hp
    rw [hj, hlog]
    exact ⟨hjournal, time, hdeadline, ⟨new ++ after, before, by rw [hsaved, List.append_assoc]⟩,
      fun ha => (happlied ha).grow new⟩
  · obtain ⟨hmem, time, happlied⟩ := h.confirmed j hconfirmed
    rw [hlog]
    exact ⟨List.mem_append_right _ hmem, time, happlied.grow new⟩

/-- With nothing pending, the journal does not matter. -/
theorem Agrees.idle {m m' : LanManager} {r r' : Router} (new : List Done) (h : Agrees m r)
    (hp : m'.pending = none) (hc : m'.confirmed = m.confirmed)
    (hlog : r'.log = new ++ r.log) : Agrees m' r' := by
  refine ⟨fun p hpend => ?_, fun j hconfirmed => ?_⟩
  · rw [hp] at hpend
    cases hpend
  · obtain ⟨hmem, time, happlied⟩ := h.confirmed j (hc ▸ hconfirmed)
    rw [hlog]
    exact ⟨List.mem_append_right _ hmem, time, happlied.grow new⟩

/-- The journal of `j` can go once its previous settings are in force again. -/
theorem Router.Safe.undone {r : Router} (h : r.Safe) {j : Journal} (hj : r.journal = some j)
    (d d' : Nat) : ((((r.wait d).applied j.previous).wait d').cleared none).Safe :=
  ⟨fun _ => h.recorded j hj, fun _ h => by cases h⟩

theorem upholds_rollback {m : LanManager} {r : Router} (hr : r.Safe) (hm : Agrees m r) :
    Keeps m.rollbackLocked r anything := by
  unfold LanManager.rollbackLocked
  cases hp : m.pending with
  | none => exact .pure hr ⟨hm, trivial⟩
  | some p =>
    obtain ⟨hj, -⟩ := hm.pending p hp
    refine .act hr fun e x r₁ hK he => ?_
    rcases exec_apply he with ⟨rfl, d, rfl⟩ | ⟨error, live, d, rfl, rfl⟩
    · have hsafe : ((r.wait d).applied p.journal.previous).Safe := hr.of_journal hj rfl rfl
      have hagrees : Agrees m ((r.wait d).applied p.journal.previous) :=
        hm.grow [_] rfl rfl
      refine .act hsafe fun e x r₂ hK he => ?_
      rcases exec_clear hK he with ⟨rfl, d', rfl⟩ | ⟨error, d', rfl, rfl⟩
      · exact .pure (hr.undone hj d d') ⟨hm.idle [_] rfl rfl rfl, trivial⟩
      · exact .pure ((Router.safe_wait _ _).mpr hsafe)
          ⟨((agrees_wait _ _ _).mpr hagrees).of_eq rfl rfl, trivial⟩
    · have hgrown : Agrees m { r.wait d with live } := hm.grow [] rfl rfl
      exact .pure (hr.of_journal hj rfl rfl) ⟨hgrown.of_eq hp.symm rfl, trivial⟩

theorem upholds_applyPending {m : LanManager} {r : Router} (hr : r.Safe) (hm : Agrees m r) :
    Keeps m.applyPending r anything := by
  unfold LanManager.applyPending
  cases hp : m.pending with
  | none => exact .pure hr ⟨hm, trivial⟩
  | some p =>
    obtain ⟨hj, time, hdeadline, ⟨after, before, hsaved⟩, -⟩ := hm.pending p hp
    refine .act hr fun e x r₁ hK he => ?_
    rcases exec_apply he with ⟨rfl, d, rfl⟩ | ⟨error, live, d, rfl, rfl⟩
    · have hgrown : Agrees m ((r.wait d).applied p.journal.proposed) :=
        hm.grow [_] rfl rfl
      refine .pure (hr.of_journal hj rfl rfl) ⟨⟨fun p' hp' => ?_, hgrown.confirmed⟩, trivial⟩
      obtain rfl : { p with applied := true } = p' := Option.some.inj hp'
      have hlog : ((r.wait d).applied p.journal.proposed).log =
          (.applied p.journal.proposed :: after) ++ .saved p.journal time :: before := by
        rw [List.cons_append, ← hsaved]
        rfl
      exact ⟨hj, time, hdeadline, ⟨_, _, hlog⟩, fun _ => ⟨_, _, hlog, List.mem_cons_self⟩⟩
    · have hgrown : Agrees m { r.wait d with live } := hm.grow [] rfl rfl
      exact upholds_rollback (hr.of_journal hj rfl rfl) (hgrown.of_eq hp.symm rfl)

theorem upholds_expire {m : LanManager} {r : Router} (now : Nat) (hr : r.Safe) (hm : Agrees m r) :
    Keeps (m.expire now) r anything := by
  unfold LanManager.expire
  cases hp : m.pending with
  | none => exact .pure hr ⟨hm, trivial⟩
  | some p =>
    dsimp only
    split
    · refine .bind (upholds_rollback hr (hm.of_eq hp.symm rfl)) fun x r' hr' hx => ?_
      exact .pure hr' ⟨hx.1, trivial⟩
    · exact .pure hr ⟨hm, trivial⟩

theorem upholds_beginRecorded {m : LanManager} {r : Router} {previous : LanSettings}
    (proposed : LanSettings) (hp : m.pending = none) (hr : r.Safe) (hm : Agrees m r)
    (hprevious : previous = r.confirmed) :
      Keeps (m.beginRecorded previous proposed) r anything := by
  refine .act hr fun e x r₁ _ he => ?_
  obtain ⟨d, rfl⟩ := exec_random he
  have hr₁ := (Router.safe_wait d r).mpr hr
  have hm₁ := (agrees_wait m d r).mpr hm
  cases x with
  | error _ => exact .pure hr₁ ⟨hm₁, trivial⟩
  | ok token =>
    refine .act hr₁ fun e x r₂ _ he => ?_
    rcases exec_save he with ⟨d', rfl⟩ | ⟨error, d', rfl, rfl⟩
    · have hsafe : (((r.wait d).wait d').saved { previous, proposed, token }).Safe := by
        refine ⟨by rintro ⟨⟩, fun j hj => ?_⟩
        rw [← Option.some.inj hj]
        exact hprevious
      cases x with
      | error _ => exact .pure hsafe ⟨hm.idle [_] hp rfl rfl, trivial⟩
      | ok _ =>
        refine .act hsafe fun e now r₃ _ he => ?_
        cases he
        refine .pure hsafe ⟨⟨fun p hpend => ?_, by simp⟩, trivial⟩
        obtain rfl := Option.some.inj hpend
        exact ⟨rfl, _, rfl, ⟨[], _, rfl⟩, by simp⟩
    · exact .pure ((Router.safe_wait _ _).mpr hr₁) ⟨(agrees_wait _ _ _).mpr hm₁, trivial⟩

theorem upholds_begin {m : LanManager} {r : Router} (proposed : LanSettings) (hr : r.Safe)
    (hm : Agrees m r) : Keeps (m.begin proposed) r anything := by
  unfold LanManager.begin
  split
  · exact .pure hr ⟨hm, trivial⟩
  · rename_i hpending
    have hp : m.pending = none := by simpa using hpending
    refine .act hr fun e loaded r₁ _ he => ?_
    obtain ⟨⟨d, rfl⟩, hloaded⟩ := exec_load he
    have hr₁ := (Router.safe_wait d r).mpr hr
    have hm₁ := (agrees_wait m d r).mpr hm
    split
    · exact .pure hr₁ ⟨hm₁, trivial⟩
    · exact .pure hr₁ ⟨hm₁, trivial⟩
    · have hfree : r.journal = none := by
        rcases hloaded with h | ⟨_, h⟩
        · exact (Except.ok.inj h).symm
        · cases h
      split
      · exact .pure hr₁ ⟨hm₁, trivial⟩
      · refine .act hr₁ fun e read r₂ _ he' => ?_
        obtain ⟨⟨d', rfl⟩, hread⟩ := exec_read he'
        have hr₂ := (Router.safe_wait d' _).mpr hr₁
        have hm₂ := (agrees_wait m d' _).mpr hm₁
        cases read with
        | error _ => exact .pure hr₂ ⟨hm₂, trivial⟩
        | ok previous =>
          -- Nothing is on record, so the settings in force are the confirmed ones.
          have hprevious : previous = r.confirmed := by
            rcases hread with h | ⟨_, h⟩
            · exact (Except.ok.inj h).trans (hr.free hfree)
            · cases h
          dsimp only
          split
          · exact .pure hr₂ ⟨hm₂, trivial⟩
          · split
            · exact .pure hr₂ ⟨hm₂, trivial⟩
            · split
              · exact .pure hr₂ ⟨hm₂, trivial⟩
              · exact upholds_beginRecorded proposed hp hr₂ hm₂ hprevious

theorem upholds_recover {m : LanManager} {r : Router} (hr : r.Safe) (hm : Agrees m r) :
    Keeps m.recover r anything := by
  refine .act hr fun e loaded r₁ _ he => ?_
  obtain ⟨⟨d, rfl⟩, hloaded⟩ := exec_load he
  have hr₁ := (Router.safe_wait d r).mpr hr
  have hm₁ := (agrees_wait m d r).mpr hm
  split
  · exact .pure hr₁ ⟨hm₁.of_eq rfl rfl, trivial⟩
  · exact .pure hr₁ ⟨hm₁.idle [] rfl rfl rfl, trivial⟩
  · rename_i journal
    have hj : (r.wait d).journal = some journal := by
      rcases hloaded with h | ⟨_, h⟩
      · exact (Except.ok.inj h).symm
      · cases h
    split
    · exact .pure hr₁ ⟨hm₁.of_eq rfl rfl, trivial⟩
    · refine .act hr₁ fun e x r₂ _ he => ?_
      rcases exec_apply he with ⟨rfl, d', rfl⟩ | ⟨error, live, d', rfl, rfl⟩
      · have hsafe : (((r.wait d).wait d').applied journal.previous).Safe :=
          hr₁.of_journal hj rfl rfl
        have hgrown : Agrees m (((r.wait d).wait d').applied journal.previous) :=
          hm₁.grow [_] rfl rfl
        refine .act hsafe fun e x r₃ hK he => ?_
        rcases exec_clear hK he with ⟨rfl, d'', rfl⟩ | ⟨error, d'', rfl, rfl⟩
        · exact .pure (hr₁.undone hj d' d'') ⟨hm₁.idle [_] rfl rfl rfl, trivial⟩
        · exact .pure ((Router.safe_wait _ _).mpr hsafe)
            ⟨((agrees_wait _ _ _).mpr hgrown).of_eq rfl rfl, trivial⟩
      · have hgrown : Agrees m { (r.wait d).wait d' with live } := hm₁.grow [] rfl rfl
        exact .pure (hr₁.of_journal hj rfl rfl) ⟨hgrown.of_eq rfl rfl, trivial⟩

/-- What a successful `confirm` comes with. -/
def Confirms (token : String) (r : Router) (x : Except String Unit) (r' : Router) : Prop :=
  x = .ok () → ConfirmedInTime token r r' ∨ ConfirmedAgain token r r'

theorem upholds_confirmPending {m : LanManager} {r : Router} {p : Pending} (token : String)
    (hp : m.pending = some p) (hr : r.Safe) (hm : Agrees m r) :
    Keeps (m.confirmPending token p) r (Confirms token r) := by
  obtain ⟨hj, time, hdeadline, -, happlied⟩ := hm.pending p hp
  refine .act hr fun e now r₁ _ he => ?_
  cases he
  split
  · exact .pure hr ⟨hm, fun h => by cases h⟩
  · rename_i hvalid
    simp only [Bool.not_eq_true', not_or, Bool.not_eq_false, Nat.not_le, ne_eq,
      not_not] at hvalid
    obtain ⟨ha, hnow, htoken⟩ := hvalid
    refine .act hr fun e read r₁ _ he => ?_
    obtain ⟨⟨d, rfl⟩, hread⟩ := exec_read he
    have hr₁ := (Router.safe_wait d r).mpr hr
    have hm₁ := (agrees_wait m d r).mpr hm
    cases read with
    | error _ => exact .pure hr₁ ⟨hm₁, fun h => by cases h⟩
    | ok live =>
      have hlive : live = r.live := by
        rcases hread with h | ⟨_, h⟩
        · exact Except.ok.inj h
        · cases h
      dsimp only
      split
      · exact .pure hr₁ ⟨hm₁, fun h => by cases h⟩
      · rename_i hproposed
        have hproposed : r.live = p.journal.proposed := hlive ▸ not_not.mp hproposed
        refine .act hr₁ fun e x r₂ hK he => ?_
        rcases exec_clear hK he with ⟨rfl, d', rfl⟩ | ⟨error, d', rfl, rfl⟩
        · refine .pure ⟨fun _ => hproposed, fun _ h => by cases h⟩ ⟨⟨by simp, fun j hj => ?_⟩,
            fun _ =>
            .inl ⟨p.journal, time, htoken, happlied ha, hproposed, hdeadline ▸ hnow⟩⟩
          rw [← Option.some.inj hj]
          exact ⟨List.mem_cons_self, time, (happlied ha).grow [_]⟩
        · exact .pure ((Router.safe_wait _ _).mpr hr₁) ⟨(agrees_wait _ _ _).mpr hm₁,
            fun h => by cases h⟩

theorem upholds_confirm {m : LanManager} {r : Router} (token : String) (hr : r.Safe)
    (hm : Agrees m r) : Keeps (m.confirm token) r (Confirms token r) := by
  unfold LanManager.confirm
  split
  · rename_i p hp
    exact upholds_confirmPending token hp hr hm
  · exact .pure hr ⟨hm, fun h => by cases h⟩
  · rename_i confirmed _ hc
    obtain ⟨hmem, time, happlied⟩ := hm.confirmed confirmed hc
    split
    · exact .pure hr ⟨hm, fun h => by cases h⟩
    · rename_i htoken
      refine .act hr fun e read r₁ _ he => ?_
      obtain ⟨⟨d, rfl⟩, hread⟩ := exec_read he
      have hr₁ := (Router.safe_wait d r).mpr hr
      have hm₁ := (agrees_wait m d r).mpr hm
      cases read with
      | error _ => exact .pure hr₁ ⟨hm₁, fun h => by cases h⟩
      | ok live =>
        have hlive : live = r.live := by
          rcases hread with h | ⟨_, h⟩
          · exact Except.ok.inj h
          · cases h
        refine .pure hr₁ ⟨hm₁, fun hok => .inr ⟨confirmed, time, not_not.mp htoken, happlied, ?_,
          hmem⟩⟩
        split at hok
        · rename_i hproposed
          exact hlive ▸ hproposed
        · cases hok

/-! ### Runs -/

/-- Every function keeps the router safe. -/
theorem upholds_run {m : LanManager} {r : Router} (op : Op) (hr : r.Safe) (hm : Agrees m r) :
    Keeps (op.run m) r anything := by
  cases op with
  | recover => exact .bind (upholds_recover hr hm) fun _ _ hr' h => .pure hr' ⟨h.1, trivial⟩
  | begin proposed =>
    exact .bind (upholds_begin proposed hr hm) fun _ _ hr' h => .pure hr' ⟨h.1, trivial⟩
  | applyPending =>
    exact .bind (upholds_applyPending hr hm) fun _ _ hr' h => .pure hr' ⟨h.1, trivial⟩
  | expire now =>
    exact .bind (upholds_expire now hr hm) fun _ _ hr' h => .pure hr' ⟨h.1, trivial⟩
  | confirm token =>
    exact .bind (upholds_confirm token hr hm) fun _ _ hr' h => .pure hr' ⟨h.1, trivial⟩

/-- A new process knows of no change. -/
theorem agrees_new (binding : Binding) (r : Router) : Agrees (.new binding) r :=
    ⟨by rintro _ ⟨⟩, by rintro _ ⟨⟩⟩

/-- Every event keeps the router safe. -/
theorem step_safe {w w' : World} {event : Event} (hr : w.router.Safe)
    (hm : Agrees w.manager w.router) (hK : ∀ e ∈ event.answers, e.keepsJournal = true)
    (hs : w.step event = some w') : w'.router.Safe ∧ Agrees w'.manager w'.router := by
  cases event with
  | call op answers =>
    simp only [World.step] at hs
    split at hs
    · rename_i res m r hplay
      cases hs
      obtain ⟨hsafe, hpost⟩ := (upholds_run op hr hm).play hK hplay
      exact ⟨hsafe, (hpost _ rfl).1⟩
    · cases hs
  | cut op answers binding =>
    simp only [World.step] at hs
    split at hs
    · rename_i r hplay
      cases hs
      exact ⟨((upholds_run op hr hm).play hK hplay).1, agrees_new binding r⟩
    · cases hs
  | restart binding =>
    cases hs
    exact ⟨hr, agrees_new binding w.router⟩
  | wait d =>
    cases hs
    exact ⟨(Router.safe_wait d _).mpr hr, (agrees_wait _ d _).mpr hm⟩

theorem reaches_safe {w : World} (h : Reaches Answer.keepsJournal w) :
    w.router.Safe ∧ Agrees w.manager w.router := by
  induction h with
  | start live binding now => exact ⟨⟨fun _ => rfl, by simp⟩, agrees_new binding _⟩
  | step event _ hK hs ih => exact step_safe ih.1 ih.2 hK hs

/-- **LAN transition safety.** In every run in which a call that fails to remove the journal leaves
it, wherever the process dies and whatever else fails: without a journal the last confirmed settings
are in force, and with one they are its previous settings. A `confirm` that succeeds carries the
token of a change whose settings were applied after it was recorded and are in force; and either the
deadline has not passed, or the same change was confirmed before. -/
theorem lan_safe {w : World} (h : Reaches Answer.keepsJournal w) :
    (w.router.journal = none → w.router.live = w.router.confirmed) ∧
    (∀ j, w.router.journal = some j → j.previous = w.router.confirmed) ∧
    ∀ token answers m r, (∀ e ∈ answers, e.keepsJournal = true) →
      (w.manager.confirm token).play Router.exec answers w.router = some (some (.ok (), m), r) →
      ConfirmedInTime token w.router r ∨ ConfirmedAgain token w.router r := by
  obtain ⟨hr, hm⟩ := reaches_safe h
  refine ⟨hr.free, hr.recorded, fun token answers m r hK hplay => ?_⟩
  exact (((upholds_confirm token hr hm).play hK hplay).2 _ rfl).2 rfl

/-! ### A change, its confirmation, and a late one -/

/-- Several events, one after the other. -/
theorem Reaches.run {K : Answer → Bool} {w w' : World} (h : Reaches K w) (events : List Event)
    (hK : ∀ event ∈ events, ∀ e ∈ event.answers, K e = true)
    (hs : events.foldlM World.step w = some w') : Reaches K w' := by
  induction events generalizing w with
  | nil =>
    cases hs
    exact h
  | cons event events ih =>
    rw [List.foldlM_cons] at hs
    obtain ⟨w₁, h₁, hs⟩ := Option.bind_eq_some_iff.mp hs
    exact ih (h.step event (hK event List.mem_cons_self) h₁)
      (fun event' h' => hK event' (List.mem_cons_of_mem _ h')) hs

namespace Sample

/-- A router's settings in a net. -/
def settings (net : String) : LanSettings where
  ipaddr := net ++ ".1"
  netmask := "255.255.255.0"
  dhcpEnabled := true
  dhcpStart := net ++ ".100"
  dhcpEnd := net ++ ".200"
  leaseSeconds := 86400

def previous : LanSettings := settings "192.168.0"

def proposed : LanSettings := settings "192.168.1"

def journal : Journal := { previous, proposed, token := "5eed" }

/-- A new process on a router with the previous settings. -/
def start : World where
  manager := .new { address := "192.168.0.1:9090" }
  router := { live := previous, confirmed := previous }

/-- The change is recorded and applied. -/
def change : List Event :=
  [.call (.begin proposed) [{}, {}, { token := "5eed" }, {}, {}], .call .applyPending [{}]]

/-- It is confirmed, and long after that confirmed once more. -/
def confirmation : List Event := change ++ [.call (.confirm "5eed") [{}, {}, {}], .wait 200000]

/-- The router while the change is pending. -/
def changed : Router where
  live := proposed
  journal := some journal
  confirmed := previous
  log := [.applied proposed, .saved journal 0]

/-- The manager while the change is pending. -/
def pending : LanManager where
  pending := some { journal, deadline := confirmTime, applied := true }
  binding := { address := "192.168.1.1:9090", generation := 1 }

/-- The router long after the confirmation. -/
def settled : Router where
  live := proposed
  now := 200000
  confirmed := proposed
  log := [.confirmed journal, .applied proposed, .saved journal 0]

/-- The manager after the confirmation. -/
def idle : LanManager where
  confirmed := some journal
  binding := { address := "192.168.1.1:9090", generation := 1 }

theorem run_change : change.foldlM World.step start = some ⟨pending, changed⟩ := rfl

theorem run_confirmation : confirmation.foldlM World.step start = some ⟨idle, settled⟩ := by
  rw [confirmation, List.foldlM_append, run_change]
  rfl

end Sample

open Sample in
/-- A change that is confirmed in time. -/
theorem lan_safe_sample :
    (changed.journal = none → changed.live = changed.confirmed) ∧
    (∀ j, changed.journal = some j → j.previous = changed.confirmed) ∧
    (ConfirmedInTime "5eed" changed { settled with now := 0 } ∨
      ConfirmedAgain "5eed" changed { settled with now := 0 }) := by
  have hstart : Reaches Answer.keepsJournal start := .start previous _ 0
  have hreached : Reaches Answer.keepsJournal ⟨pending, changed⟩ :=
    hstart.run change (by decide) run_change
  obtain ⟨hfree, hrecorded, hconfirm⟩ := lan_safe hreached
  exact ⟨hfree, hrecorded, hconfirm "5eed" [{}, {}, {}] idle _ (by decide) rfl⟩

namespace Sample

/-- A confirmation whose journal is gone although its removal failed. -/
def halfCleared : Event :=
  .call (.confirm "5eed") [{}, {}, { fault := .removed "fsync: input/output error" }]

/-- The router after it: the proposed settings are in force, and were never confirmed. -/
def adrift : Router where
  live := proposed
  confirmed := previous
  log := [.applied proposed, .saved journal 0]

theorem run_halfCleared :
    (change ++ [halfCleared]).foldlM World.step start = some ⟨pending, adrift⟩ := by
  rw [List.foldlM_append, run_change]
  rfl

end Sample

open Sample in
/-- Without the condition on the journal's removal the settings in force may be unconfirmed and on
no record. And a confirmation whose answer was lost may be repeated after the deadline. -/
theorem late_retry :
    (¬ ∀ w : World, Reaches (fun _ => true) w →
      w.router.journal = none → w.router.live = w.router.confirmed) ∧
    ¬ ∀ w : World, Reaches (fun _ => true) w → ∀ token answers m r,
      (w.manager.confirm token).play Router.exec answers w.router = some (some (.ok (), m), r) →
      ConfirmedInTime token w.router r := by
  have hstart : Reaches (fun _ => true) start := .start previous _ 0
  constructor
  · intro hclaim
    have hreached : Reaches (fun _ => true) ⟨pending, adrift⟩ :=
      hstart.run (change ++ [halfCleared]) (fun _ _ _ _ => rfl) run_halfCleared
    have hlive : proposed = previous := hclaim _ hreached rfl
    exact absurd hlive (by decide)
  · intro hclaim
    have hreached : Reaches (fun _ => true) ⟨idle, settled⟩ :=
      hstart.run confirmation (fun _ _ _ _ => rfl) run_confirmation
    have hplay : (idle.confirm "5eed").play Router.exec [{}] settled =
        some (some (.ok (), idle), settled) := rfl
    obtain ⟨j, time, -, ⟨after, before, hlog, -⟩, -, hintime⟩ :=
      hclaim _ hreached "5eed" [{}] idle settled hplay
    -- The change was recorded at the start, and its deadline has passed.
    have hsaved : .saved j time ∈ settled.log := hlog ▸ by simp
    obtain ⟨-, rfl⟩ : j = journal ∧ time = 0 := by simpa [settled] using hsaved
    exact absurd hintime (by decide)

end OpenUI.Agent.Lan
