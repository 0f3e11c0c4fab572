import OpenUI.Proofs.Agent.Esim.Runs

/-!
# `OpenUI.Proofs.Agent.Esim.Revision`: what a client's revision covers

A client sends the revision of the profile list it saw, and `admit` compares it with the current
one. `Inner.Follows` says what may become of the list between two moments of one process: the
revision does not fall, and while it stands still an inventory that was there is still there, with
the same EID and the same profiles. A read is the only action that changes either
(`absorbRead_follows`), so it holds over every run without a restart.
-/

set_option autoImplicit false

namespace OpenUI.Agent.Esim

open OpenUI.Json OpenUI.Text OpenUI.Concurrency

variable {P : Platform} {t : Timing}

/-- The process is not restarted. -/
def withinProcess : Steps where
  act _ _ _ _ _ := true
  outside _ x := match x with
    | .restart _ _ => false
    | _ => true

/-- What `after` may be when `before` was: a later revision, or the same one with the same list. -/
structure Inner.Follows (before after : Inner) : Prop where
  le : before.revision ≤ after.revision
  same : after.revision = before.revision → ∀ inv, before.inventory = some inv →
    ∃ inv', after.inventory = some inv' ∧ inv'.eid = inv.eid ∧ inv'.profiles = inv.profiles

namespace Inner

theorem Follows.of_eq {before after : Inner} (hr : after.revision = before.revision)
    (hi : after.inventory = before.inventory) : before.Follows after :=
  ⟨Nat.le_of_eq hr.symm, fun _ inv h => ⟨inv, hi.trans h, rfl, rfl⟩⟩

theorem Follows.trans {i₁ i₂ i₃ : Inner} (h : i₁.Follows i₂) (h' : i₂.Follows i₃) :
    i₁.Follows i₃ := by
  refine ⟨Nat.le_trans h.le h'.le, fun heq inv hinv => ?_⟩
  have hmid : i₂.revision = i₁.revision :=
    Nat.le_antisymm (heq ▸ h'.le) h.le
  obtain ⟨inv₂, hinv₂, heid₂, hprofiles₂⟩ := h.same hmid inv hinv
  obtain ⟨inv₃, hinv₃, heid₃, hprofiles₃⟩ := h'.same (heq.trans hmid.symm) inv₂ hinv₂
  exact ⟨inv₃, hinv₃, heid₃.trans heid₂, hprofiles₃.trans hprofiles₂⟩

/-- A bump covers whatever became of the list. -/
theorem Follows.of_bump {before after : Inner} (hr : after.revision = before.revision + 1) :
    before.Follows after :=
  ⟨hr ▸ Nat.le_succ _, fun heq => absurd (hr.symm.trans heq) (Nat.succ_ne_self _)⟩

/-- A new inventory has a new revision, unless its content is the old one's. -/
theorem takeInventory_follows (inv : Inventory) (before : Inner) :
    before.Follows (before.takeInventory P inv).2 := by
  cases hold : before.inventory with
  | none => exact .of_bump (by simp [takeInventory, hold])
  | some old =>
    by_cases hsame : old.sameContent inv = true
    · have hrevision : (before.takeInventory P inv).2.revision = before.revision := by
        simp [takeInventory, hold, hsame]
      refine ⟨Nat.le_of_eq hrevision.symm, fun _ inv' h => ⟨inv, rfl, ?_⟩⟩
      obtain rfl := Option.some.inj (hold.symm.trans h)
      simp only [Inventory.sameContent, Bool.and_eq_true, beq_iff_eq] at hsame
      exact ⟨hsame.1.symm, hsame.2.symm⟩
    · exact .of_bump (by simp [takeInventory, hold, hsame])

/-- A card that is gone takes its revision with it. -/
theorem lost_follows {before after : Inner} (hi : after.inventory = none)
    (hr : after.revision =
      if before.inventory.isSome then before.revision + 1 else before.revision) :
    before.Follows after := by
  cases hold : before.inventory with
  | none =>
    rw [hold, Option.isSome_none, if_neg Bool.false_ne_true] at hr
    exact .of_eq hr (hi.trans hold.symm)
  | some old =>
    rw [hold, Option.isSome_some, if_pos rfl] at hr
    exact .of_bump hr

/-- Whatever a read brings, the state after it follows the state before. -/
theorem absorbRead_follows (now : Nat) (o : HelperOutcome) (ready : Bool) (before : Inner) :
    before.Follows (before.absorbRead P t now o ready).2 := by
  have hkept : ∀ {after : Inner}, after.revision = before.revision →
      after.inventory = before.inventory → before.Follows after := .of_eq
  unfold absorbRead
  cases o with
  | ok data =>
    dsimp only
    split
    · rename_i inv _
      have hattempt : before.Follows { before with readAttempt := some now } := hkept rfl rfl
      exact hattempt.trans (takeInventory_follows inv _)
    · exact hkept rfl rfl
  | failed kind message detail =>
    dsimp only
    split
    · exact hkept rfl rfl
    · split
      · split
        · exact hkept rfl rfl
        · exact lost_follows rfl rfl
      · split
        · split <;> exact hkept rfl rfl
        · exact hkept rfl rfl
  | _ => exact hkept rfl rfl

end Inner

/-- Every action keeps the revision law. -/
theorem exec_follows {β : Type} {w w' : World} {c : Ctx} {a : Act β} {e : Choice} {r : β}
    (he : exec P t a c e w = some (r, w')) : w.inner.Follows w'.inner := by
  have hframe : a.touches .revision = false → a.touches .card = false →
      w.inner.Follows w'.inner :=
    fun hr hc => .of_eq (exec_same he .revision hr) (exec_same he .card hc).2
  cases a with
  | absorbRead o ready =>
    simp only [exec, Option.some.injEq, Prod.mk.injEq] at he
    obtain ⟨-, rfl⟩ := he
    rw [noteAbsorbed_inner]
    exact Inner.absorbRead_follows w.now o ready w.inner
  | _ => exact hframe rfl rfl

/-- One step of a process. -/
theorem step_follows {s s' : AgentState} {ev : Turn} (hK : withinProcess.check s ev = true)
    (hs : (manager P t).step s ev = some s') : s.world.inner.Follows s'.world.inner := by
  cases Machine.step_cases hs with
  | goto _ _ => exact .of_eq rfl rfl
  | act _ _ he => exact exec_follows he
  | outside ho =>
    rcases occur_cases ho with ⟨d, rfl⟩ | ⟨r, -, rfl⟩ | ⟨salt, readable, rfl, -, -⟩
    · exact .of_eq rfl rfl
    · exact .of_eq rfl rfl
    · cases hK

/-- A run of a process. -/
theorem run_follows {s s' : AgentState} (h : (manager P t).Run withinProcess s s') :
    s.world.inner.Follows s'.world.inner := by
  induction h with
  | refl => exact .of_eq rfl rfl
  | step ev _ hK hs ih => exact ih.trans (step_follows hK hs)

/-- **The revision law.** Between two moments of one process the revision does not fall. When an
inventory is present at both with the same revision, both have the same EID and the same
profiles. And a change that is admitted at the later moment under the earlier one's revision acts
on the card and the profile that the list showed then. -/
theorem revision_law {s s' : AgentState} (h : (manager P t).Run withinProcess s s') :
    s.world.inner.revision ≤ s'.world.inner.revision ∧
    (∀ inv inv', s.world.inner.inventory = some inv → s'.world.inner.inventory = some inv' →
      s'.world.inner.revision = s.world.inner.revision →
        inv'.eid = inv.eid ∧ inv'.profiles = inv.profiles) ∧
    ∀ kind id handle a inner' inv, s.world.inner.inventory = some inv →
      s'.world.inner.admitChange kind id handle s.world.inner.revision = (.ok a, inner') →
        a.eid = inv.eid ∧ inv.find handle = some a.target := by
  have hf := run_follows h
  refine ⟨hf.le, fun inv inv' hinv hinv' heq => ?_, fun kind id handle a inner' inv hinv ha => ?_⟩
  · obtain ⟨inv'', hinv'', heid, hprofiles⟩ := hf.same heq inv hinv
    obtain rfl := Option.some.inj (hinv'.symm.trans hinv'')
    exact ⟨heid, hprofiles⟩
  · obtain ⟨-, hrevision, -, inv', hinv', -, heid, -, htarget⟩ := admitChange_ok ha
    obtain ⟨inv'', hinv'', heid', hprofiles⟩ := hf.same hrevision.symm inv hinv
    obtain rfl := Option.some.inj (hinv'.symm.trans hinv'')
    refine ⟨heid.trans heid', ?_⟩
    rw [Inventory.find, ← hprofiles]
    exact htarget

/-- The sample card is read again, with one more receipt on it. -/
def rereadTurns : List Turn :=
  .outside (.request .refresh) :: turns 2 1 ++ readTurns 2 (sampleInventory "8904"
    [sampleProfile "8988" "disabled", sampleProfile "8989" "disabled"] [5, 6]) false

theorem revision_law_sample : ∃ s s' : AgentState,
    (manager samplePlatform {}).Run withinProcess s s' ∧
    ∃ inv inv', s.world.inner.inventory = some inv ∧ s'.world.inner.inventory = some inv' ∧
      inv.notifications ≠ inv'.notifications ∧ inv'.profiles = inv.profiles := by
  obtain ⟨s, -, hs⟩ := sample_run .any loadedTurns (fun s =>
    ((manager samplePlatform {}).run withinProcess s rereadTurns).any fun s' =>
      s'.world.inner.revision == s.world.inner.revision &&
        s.world.inner.inventory.any fun inv => s'.world.inner.inventory.any fun inv' =>
          inv.notifications != inv'.notifications) (by decide +kernel)
  obtain ⟨s', hrun, hcheck⟩ := Machine.Run.exists_of_run hs
  simp only [Bool.and_eq_true, beq_iff_eq, Option.any_eq_true, bne_iff_ne] at hcheck
  obtain ⟨hrevision, inv, hinv, inv', hinv', hne⟩ := hcheck
  exact ⟨s, s', hrun, inv, inv', hinv, hinv', hne,
    ((revision_law hrun).2.1 inv inv' hinv hinv' hrevision).2⟩

end OpenUI.Agent.Esim
