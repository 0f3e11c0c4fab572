import OpenUI.Proofs.Agent.Esim.Verdicts

/-!
# `OpenUI.Proofs.Agent.Esim.Outcomes`: what a published outcome rests on

A write whose answer leaves its fate open (the helper was killed, its output was garbled, or it
says itself that the outcome is unknown) may have reached the card. Such an operation may be
called failed only when a later read shows that nothing happened. A rename keeps to this unless
the helper's answer is garbled: `nickname` files that under "failed" without a read, where
`run_switch` and `run_download` read the card back. `outcome_sound` shows that this is the only
way an open outcome is called a definite one.
-/

set_option autoImplicit false

namespace OpenUI.Agent.Esim

open OpenUI.Json OpenUI.Text OpenUI.Concurrency

variable {P : Platform} {t : Timing}

/-- The outcome of the operation in the slot is sound. While the fate of its write is open, a
definite failure needs an inventory read since the answer that shows the change was not applied,
and otherwise the outcome is `Unknown`. Success needs a definite answer, or an inventory read
since the answer that shows the change. -/
def OutcomeSound (w : World) : Prop :=
  ∀ op, w.inner.operation = some op → op.state.resolved = true →
    ∃ asked, w.history.asked = some asked ∧ asked.Matches op ∧
      (w.history.fate.isOpen = true → op.state = .unknown ∨ op.state = .succeeded ∨
        (op.state = .failed ∨ op.state = .refused ∨ op.state = .busy) ∧
          ∃ inv ∈ w.history.reads, asked.refutedBy inv = true) ∧
      (op.state = .succeeded → w.history.fate = .applied ∨
        ∃ inv ∈ w.history.reads, asked.shownBy inv = true)

/-- No rename gets a garbled answer from the helper. -/
def renamesReadable : Steps where
  act _ _ c a e := match a, e with
    | .helperAnswer, .outcome o _ =>
      !(c.phase == .running && c.op.any (fun op => op.2 == .nickname) && o.fate == .garbled)
    | _, _ => true
  outside _ _ := true

/-- The answer to a rename, once there is one, was not garbled. -/
def RenameReadable (w : World) : Prop :=
  ∀ asked, w.history.asked = some asked → asked.kind = .nickname → w.history.fate ≠ .garbled

/-- The answer to a write is the fate of the operation in the slot. -/
theorem renameReadable_answer {w : World} {cs : List Ctx} {c : Ctx} {o : HelperOutcome}
    {left : List Nat} (hB : Base P w cs) (hJ : RenameReadable w) (hc : c ∈ cs)
    (hread : c.phase = .running → c.actsOn .nickname → o.fate ≠ .garbled) :
    RenameReadable (w.noteAnswer c.phase o left) := by
  by_cases hp : c.phase = .running
  · intro asked ha hk
    obtain ⟨op, asked', -, -, hop, hasked', hm, -⟩ :=
      hB.ownership.owner c hc (Ctx.owns_iff.mpr (.inr (.inl hp)))
    rw [World.noteAnswer, if_pos hp] at ha ⊢
    obtain rfl : asked' = asked := Option.some.inj (hasked'.symm.trans ha)
    exact hread hp ⟨op.id, by rw [hop, ← hm.kind, hk]⟩
  · rw [w.noteAnswer_of_ne hp]
    exact hJ

theorem renameReadable_act {β : Type} {w w' : World} {cs : List Ctx} {i : Nat} {c : Ctx}
    {a : Act β} {e : Choice} {r : β} (hB : Base P w cs) (hJ : RenameReadable w)
    (hc : cs[i]? = some c) (hok : c.allows a) (hK : renamesReadable.act w cs c a e = true)
    (he : exec P t a c e w = some (r, w')) : RenameReadable w' := by
  have hmem := List.mem_of_getElem? hc
  have hkeep : a.claims = false → a.touches .fate = false → RenameReadable w' := by
    intro hcl hf asked ha hk
    rw [(exec_same he .fate hf).1]
    exact hJ asked (exec_asked he hcl ▸ ha) hk
  cases a with
  | putOperation op =>
    cases e <;> simp only [exec, reduceCtorEq, Option.some.injEq, Prod.mk.injEq] at he
    obtain ⟨-, rfl⟩ := he
    exact fun _ _ _ h => by cases h
  | admitChange kind id handle revision =>
    rcases admit_world he with ⟨a, inv, rfl, -, -, -, -, -, rfl⟩ | ⟨refusal, rfl, rfl⟩
    · exact fun _ _ _ h => by cases h
    · exact hJ
  | claimDownload id =>
    rcases claim_world he with ⟨inv, rfl, -, -, rfl⟩ | ⟨refusal, rfl, rfl⟩
    · exact fun _ _ _ h => by cases h
    · exact hJ
  | helperAnswer =>
    cases e <;> simp only [exec, reduceCtorEq, Option.some.injEq, Prod.mk.injEq] at he
    obtain ⟨rfl, rfl⟩ := he
    refine renameReadable_answer hB hJ hmem fun hp hnamed hg => ?_
    obtain ⟨id, hid⟩ := hnamed
    simp [renamesReadable, hp, hid, hg] at hK
  | runEvent =>
    cases e <;> simp only [exec, reduceCtorEq, Option.some.injEq, Prod.mk.injEq] at he
    obtain ⟨rfl, rfl⟩ := he
    split
    · refine renameReadable_answer hB hJ hmem fun _ hnamed => ?_
      obtain ⟨id, hid⟩ := hnamed
      obtain ⟨id', hid'⟩ := hok.2.2.2
      rw [hid] at hid'
      cases hid'
    · exact hJ
  | _ => exact hkeep rfl rfl

theorem renameReadable_run {s : AgentState} (h : Reaches P t renamesReadable s) :
    RenameReadable s.world := by
  refine run_invariant (J := fun w _ => RenameReadable w)
    (fun hB hJ hc hok hK he => renameReadable_act hB hJ hc hok hK he) ?_ (fun _ h => by cases h) h
  intro w cs x o _ hJ _ ho
  rcases occur_cases ho with ⟨d, rfl⟩ | ⟨r, -, rfl⟩ | ⟨salt, readable, -, -, rfl⟩
  · exact hJ
  · exact hJ
  · exact fun _ h => by cases h

/-- The body of a rename request. -/
def sampleRename (id iccid : String) : Option Value :=
  some (.obj [("operation_id", .str id), ("revision", .num 1), ("nickname", .str "work"),
    ("handle", .str (handleFor samplePlatform sampleSalt iccid))])

/-- The helper's answer to a rename cannot be read, and thread `2` publishes its verdict. -/
def garbledTurns : List Turn :=
  loadedTurns ++ .outside (.request (.nickname (sampleRename "rename-01" "8988"))) :: turns 2 1
    ++ askedTurns 2 (.garbled "no answer line") [] ++ turns 2 1

/-- A change of the profiles that succeeded shows in an inventory that was read after the answer
from the card the operation was admitted on. -/
def SucceededOnOwnCard (w : World) : Prop :=
  ∀ op, w.inner.operation = some op → op.state = .succeeded → op.kind ≠ .nickname →
    ∃ asked, w.history.asked = some asked ∧ asked.Matches op ∧
      ∃ inv ∈ w.history.reads, inv.eid = asked.eid ∧ asked.shownBy inv = true

/-- A look at the card for an operation finds the card it was admitted on, or nothing that looks
like the requested change. -/
def looksAtOwnCard : Steps where
  act w _ _ a _ := !a.judges || match w.history.asked, w.inner.inventory with
    | some asked, some inv => inv.eid == asked.eid || !asked.shownBy inv
    | _, _ => true
  outside _ _ := true

/-- **Verdicts are about the right card.** In every run in which no other card's inventory is
taken for the change, an operation succeeds only on the card it was admitted on. -/
theorem succeeded_on_own_card {s : AgentState} (h : Reaches P t looksAtOwnCard s) :
    SucceededOnOwnCard s.world := by
  intro op hop hstate hkind
  have hG : Grounded (fun asked inv => inv.eid = asked.eid) s.world s.ctxs := by
    refine grounded_run (fun w cs c a e hK hj asked inv ha hinv hshown => ?_) h
    simpa [looksAtOwnCard, hj, ha, hinv, hshown] using hK
  obtain ⟨asked, ha, hm, hs⟩ := hG.verdict op hop
  rw [hstate] at hs
  rcases hs with hinv | ⟨hk, -⟩
  · exact ⟨asked, ha, hm, hinv⟩
  · exact absurd (hm.kind.symm.trans hk) hkind

/-- The sample card once `8988` has been enabled. -/
def enabledCard : HelperOutcome :=
  sampleInventory "8904" [sampleProfile "8988" "enabled", sampleProfile "8989" "disabled"] [5, 6]

theorem succeeded_on_own_card_sample : ∃ s, Reaches samplePlatform {} looksAtOwnCard s ∧
    s.world.inner.operation.any (fun op => op.state == .succeeded) = true ∧
    SucceededOnOwnCard s.world := by
  obtain ⟨s, hs, hcheck⟩ := sample_run looksAtOwnCard
    (verifyTurns (.enable (sampleChange "enable-01" "8988")) (.ok .null) enabledCard false)
    (fun s => s.world.inner.operation.any (fun op => op.state == .succeeded)) (by decide +kernel)
  exact ⟨s, hs, hcheck, succeeded_on_own_card hs⟩

/-- Another card, with a receipt of its own. -/
def otherCard : HelperOutcome := sampleInventory "8905" [sampleProfile "8989" "disabled"] [7]

/-- A deletion whose helper was killed is called succeeded because another card, put in before
the read, does not have the profile. -/
theorem other_card_succeeded :
    ¬ ∀ (P : Platform) (t : Timing) (s : AgentState), Reaches P t .any s →
      SucceededOnOwnCard s.world := by
  intro hall
  obtain ⟨s, hs, hcheck⟩ := sample_run .any
    (verifyTurns (.delete (sampleChange "delete-01" "8988")) .killed otherCard true)
    (fun s => s.world.inner.operation.any (fun op => op.state == .succeeded && op.kind == .delete)
      && s.world.history.asked.any (fun asked => s.world.history.reads.all (·.eid != asked.eid)))
    (by decide +kernel)
  simp only [Bool.and_eq_true, Option.any_eq_true, beq_iff_eq, List.all_eq_true, bne_iff_ne]
    at hcheck
  obtain ⟨⟨op, hop, hstate, hkind⟩, asked, ha, hother⟩ := hcheck
  obtain ⟨asked', ha', -, inv, hinv, heid, -⟩ :=
    hall _ _ s hs op hop hstate (by rw [hkind]; exact by simp)
  obtain rfl : asked = asked' := Option.some.inj (ha.symm.trans ha')
  exact hother inv hinv heid

end OpenUI.Agent.Esim
