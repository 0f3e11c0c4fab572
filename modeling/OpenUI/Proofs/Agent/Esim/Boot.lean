import OpenUI.Proofs.Agent.Esim.Ownership

/-!
# `OpenUI.Proofs.Agent.Esim.Boot`: the start of the process

Until `recover` has put the journalled operation into the slot, the main thread and the receipt
worker it may have started are alone, and neither acts for an operation. `boot_act` proves that
every allowed action keeps `Boot`.
-/

set_option autoImplicit false

namespace OpenUI.Agent.Esim

open OpenUI.Json OpenUI.Text OpenUI.Concurrency

variable {P : Platform} {t : Timing}

/-- The action that puts the recovered operation into the slot. -/
def Act.isPut {β : Type} : Act β → Bool
  | .putOperation _ => true
  | _ => false

/-- A thread that acts for nothing and is no client stays so, and starts only such threads, unless
it puts the recovered operation into the slot. -/
theorem unbound_act {β : Type} {a : Act β} {c : Ctx} {r : β} {w : World} (hok : c.allows a)
    (hp : c.phase = .free) (hop : c.op = none) (hcl : c.client = false) (ha : a.isPut = false) :
    ((c.after a r w).phase = .free ∧ (c.after a r w).op = none) ∧
      ∀ x ∈ (spawns c a r).map Prod.snd, x.phase = .free ∧ x.op = none ∧ x.client = false := by
  have hframe : a.moves = false → ((c.after a r w).phase = .free ∧ (c.after a r w).op = none) ∧
      ∀ x ∈ (spawns c a r).map Prod.snd, x.phase = .free ∧ x.op = none ∧ x.client = false := by
    intro hm
    obtain ⟨hrole, hsp⟩ := after_role (c := c) (r := r) (w := w) hm
    rw [hsp]
    exact ⟨⟨(congrArg Role.phase hrole).trans hp, (congrArg Role.op hrole).trans hop⟩,
      fun x hx => absurd hx List.not_mem_nil⟩
  have hnew : c ≠ .newClient := fun h => by rw [h] at hcl; cases hcl
  have howns : c.owns = false := by simp [Ctx.owns, hp]
  cases a with
  | putOperation op => cases ha
  | admitChange _ _ _ _ => exact absurd hok.1 hnew
  | claimDownload _ => exact absurd hok.1 hnew
  | startHelper request =>
    refine ⟨?_, fun x hx => absurd hx List.not_mem_nil⟩
    cases request <;> simp [hp, hop]
  | helperAnswer => simp [Ctx.answered, hp, hop, spawns]
  | runEvent => cases r <;> simp [Ctx.answered, hp, hop, spawns]
  | setOp _ _ => exact absurd (hp.symm.trans hok.1) (by simp)
  | dropOperation => exact absurd (hp.symm.trans hok) (by simp)
  | journalExists => cases r <;> simp [hp, hop, spawns]
  | spawn b =>
    cases b with
    | runSwitch _ _ => exact absurd hok.1 (by simp [howns])
    | verify _ _ => exact absurd hok.1 (by simp [howns])
    | runDownload _ _ => exact absurd hok.1 (by simp [howns])
    | settleDownload _ => exact absurd hok.1 (by simp [howns])
    | receiptWorker =>
      refine ⟨⟨hp, hop⟩, fun x hx => ?_⟩
      rw [List.mem_singleton.mp hx]
      exact ⟨rfl, rfl, rfl⟩
    | detect => exact absurd hok (by simp [Ctx.allows, hcl])
    | _ => exact hok.elim
  | removeJournal => exact ⟨⟨rfl, hop⟩, fun x hx => absurd hx List.not_mem_nil⟩
  | serve | writeJournal _ | journalOperation =>
    exact ⟨⟨hp, hop⟩, fun x hx => absurd hx List.not_mem_nil⟩
  | _ => exact hframe rfl

/-- Nothing but a claim fills the empty slot. -/
theorem slot_none {β : Type} {w w' : World} {c : Ctx} {a : Act β} {e : Choice} {r : β}
    (he : exec P t a c e w = some (r, w')) (hn : w.inner.operation = none) (ha : a.isPut = false)
    (hnew : c ≠ .newClient) (hok : c.allows a) : w'.inner.operation = none := by
  have hframe : a.touches .slot = false → w'.inner.operation = none :=
    fun h => (exec_same he .slot h).1.trans hn
  cases a with
  | putOperation op => cases ha
  | admitChange _ _ _ _ => exact absurd hok.1 hnew
  | claimDownload _ => exact absurd hok.1 hnew
  | confirm id install nickname =>
    rcases confirm_slot he with h | ⟨op, op', h, -⟩
    · exact h.1.trans hn
    · rw [hn] at h; cases h
  | downloadInstalled _ | downloadBaseline _ =>
    simp only [exec, Option.some.injEq, Prod.mk.injEq] at he
    obtain ⟨-, rfl⟩ := he
    rw [(noteProduced_same _ (p := .slot) (by simp)).1]
    simp [Inner.downloadInstalled, Inner.downloadBaseline, Inner.updateOp, hn]
  | dropOperation | setOp _ _ | takeFound _ | onProgress _ _ _ =>
    simp only [exec, Option.some.injEq, Prod.mk.injEq] at he
    obtain ⟨-, rfl⟩ := he
    simp [Inner.setOp, Inner.takeFound, Inner.onProgress, Inner.updateOp, hn]
  | _ => exact hframe rfl

/-- Only `serve` ends the start, and nothing makes a client of a thread. -/
theorem after_booting {β : Type} (c : Ctx) (a : Act β) (r : β) (w : World) :
    ((c.after a r w).booting = true → c.booting = true) ∧ (c.after a r w).client = c.client := by
  by_cases hm : a.moves = false
  · obtain ⟨hrole, -⟩ := after_role (c := c) (r := r) (w := w) hm
    exact ⟨fun h => (congrArg Role.booting hrole).symm.trans h, congrArg Role.client hrole⟩
  · cases a with
    | startHelper request =>
      cases request <;> first
        | exact ⟨id, rfl⟩
        | (simp only [Ctx.after]; split <;> exact ⟨id, by trivial⟩)
    | helperAnswer => simp only [Ctx.after, Ctx.answered]; split <;> exact ⟨id, rfl⟩
    | runEvent =>
      cases r with
      | done o => simp only [Ctx.after, Ctx.answered]; split <;> exact ⟨id, rfl⟩
      | _ => exact ⟨id, rfl⟩
    | setOp _ _ => simp only [Ctx.after, Ctx.publish]; split <;> exact ⟨id, rfl⟩
    | admitChange _ _ _ _ => cases r <;> exact ⟨id, rfl⟩
    | claimDownload _ => cases r <;> exact ⟨id, rfl⟩
    | journalExists => cases r <;> exact ⟨id, rfl⟩
    | spawn b => cases b <;> exact ⟨id, rfl⟩
    | serve => exact ⟨fun h => (by cases h), rfl⟩
    | putOperation _ | writeJournal _ | journalOperation | removeJournal | dropOperation =>
      exact ⟨id, rfl⟩
    | _ => exact absurd rfl hm

/-- New threads are not the main thread, and clients only when a client starts them. -/
theorem spawns_booting {β : Type} {c : Ctx} {a : Act β} {r : β} (hok : c.allows a) {x : Ctx}
    (hx : x ∈ (spawns c a r).map Prod.snd) : x.booting = false ∧ (x.client = true →
      c.client = true) := by
  cases a with
  | spawn b =>
    cases b with
    | receiptWorker => rw [List.mem_singleton.mp hx]; exact ⟨rfl, by simp⟩
    | detect => rw [List.mem_singleton.mp hx]; exact ⟨rfl, fun _ => hok⟩
    | _ => rw [List.mem_singleton.mp hx]; exact ⟨rfl, fun h => by cases h⟩
  | _ => cases hx

/-- No action makes a thread forget which operation it acts for. -/
theorem after_op {β : Type} {c : Ctx} {a : Act β} {r : β} {w : World}
    (h : (c.after a r w).op = none) : c.op = none ∧ a.isPut = false := by
  by_cases hm : a.moves = false
  · obtain ⟨hrole, -⟩ := after_role (c := c) (r := r) (w := w) hm
    refine ⟨(congrArg Role.op hrole).symm.trans h, ?_⟩
    cases a <;> first
      | rfl
      | cases hm
  · cases a with
    | putOperation op => cases h
    | startHelper request =>
      refine ⟨?_, rfl⟩
      cases request <;> first
        | exact h
        | (simp only [Ctx.after] at h; split at h <;> exact h)
    | helperAnswer =>
      simp only [Ctx.after, Ctx.answered] at h
      split at h <;> exact ⟨h, rfl⟩
    | runEvent =>
      cases r with
      | done o =>
        simp only [Ctx.after, Ctx.answered] at h
        split at h <;> exact ⟨h, rfl⟩
      | _ => exact ⟨h, rfl⟩
    | setOp _ _ =>
      simp only [Ctx.after, Ctx.publish] at h
      split at h <;> exact ⟨h, rfl⟩
    | admitChange _ _ _ _ => cases r <;> first | exact ⟨h, rfl⟩ | cases h
    | claimDownload _ => cases r <;> first | exact ⟨h, rfl⟩ | cases h
    | journalExists => cases r <;> exact ⟨h, rfl⟩
    | spawn b => cases b <;> exact ⟨h, rfl⟩
    | serve | writeJournal _ | journalOperation | removeJournal | dropOperation => exact ⟨h, rfl⟩
    | _ => exact absurd rfl hm

/-- The journal of the main thread is the one on disk, as long as only the main thread may touch
it. -/
theorem journal_start {β : Type} {w w' : World} {c : Ctx} {a : Act β} {e : Choice} {r : β}
    (hok : c.allows a) (he : exec P t a c e w = some (r, w')) (hp : c.phase = .free) :
    (c.booting = false → w'.journalFile = w.journalFile) ∧
      ((∀ j, c.journal = some j → w.journalFile = some j) →
        ∀ j, (c.after a r w).journal = some j → w'.journalFile = some j) := by
  have hframe : a.touches .journal = false → (c.after a r w).journal = c.journal →
      (c.booting = false → w'.journalFile = w.journalFile) ∧
      ((∀ j, c.journal = some j → w.journalFile = some j) →
        ∀ j, (c.after a r w).journal = some j → w'.journalFile = some j) := by
    intro hs hj
    have hfile : w'.journalFile = w.journalFile := (exec_same he .journal hs).1
    exact ⟨fun _ => hfile, fun h j hj' => hfile.trans (h j (hj ▸ hj'))⟩
  cases a with
  | readJournal =>
    cases e <;> simp only [exec, reduceCtorEq, Option.some.injEq, Prod.mk.injEq] at he
    obtain ⟨rfl, rfl⟩ := he
    refine ⟨fun _ => rfl, fun _ j hj => ?_⟩
    simp only [Ctx.after] at hj
    split at hj
    · exact hj
    · cases hj
  | removeJournal =>
    refine ⟨fun hb => ?_, fun _ j hj => by cases hj⟩
    rcases hok with h | ⟨-, h, -⟩
    · exact absurd (hp.symm.trans h) (by simp)
    · rw [hb] at h; cases h
  | writeJournal _ => exact absurd (hp.symm.trans hok.1) (by simp)
  | journalOperation => exact absurd (hp.symm.trans hok.1) (by simp)
  | receiptsPending => exact hframe rfl (by cases r <;> rfl)
  | journalExists => exact hframe rfl (by cases r <;> rfl)
  | startHelper request =>
    refine hframe rfl ?_
    cases request <;> first
      | rfl
      | (simp only [Ctx.after]; split <;> rfl)
  | helperAnswer => exact hframe rfl (by simp only [Ctx.after, Ctx.answered]; split <;> rfl)
  | runEvent =>
    refine hframe rfl ?_
    cases r with
    | done o => simp only [Ctx.after, Ctx.answered]; split <;> rfl
    | _ => rfl
  | admitChange _ _ _ _ => exact hframe rfl (by cases r <;> rfl)
  | claimDownload _ => exact hframe rfl (by cases r <;> rfl)
  | setOp _ _ => exact hframe rfl (by simp only [Ctx.after, Ctx.publish]; split <;> rfl)
  | setLock _ _ => exact hframe rfl (by cases r <;> rfl)
  | workerRound => exact hframe rfl (by cases r <;> rfl)
  | spawn b => exact hframe rfl (by cases b <;> rfl)
  | _ => exact hframe rfl rfl

theorem boot_act {β : Type} {w w' : World} {cs : List Ctx} {i : Nat} {c : Ctx} {a : Act β}
    {e : Choice} {r : β} (hB : Base P w cs) (hc : cs[i]? = some c) (hok : c.allows a)
    (he : exec P t a c e w = some (r, w')) :
    Boot w' (cs.set i (c.after a r w) ++ (spawns c a r).map Prod.snd) := by
  obtain ⟨hone, hclosed, hbefore⟩ := hB.boot
  have hmem := List.mem_of_getElem? hc
  have hafter := after_booting c a r w
  have hspawn : ∀ x ∈ (spawns c a r).map Prod.snd,
      x.booting = false ∧ (x.client = true → c.client = true) := fun x hx => spawns_booting hok hx
  have hcount := Pool.countP_update Ctx.booting (c.after a r w) ((spawns c a r).map Prod.snd) hc
  have hzero : ((spawns c a r).map Prod.snd).countP Ctx.booting = 0 :=
    List.countP_eq_zero.mpr fun x hx => by simp [(hspawn x hx).1]
  -- A thread that is still the main thread after the step was one before it.
  have hold : ∀ x ∈ cs.set i (c.after a r w) ++ (spawns c a r).map Prod.snd, x.booting = true →
      x = c.after a r w ∧ c.booting = true ∨ x ∈ cs ∧ ∃ j, j ≠ i ∧ cs[j]? = some x := by
    intro x hx hb
    rcases Pool.mem_update hx with rfl | ⟨j, hj, hxj⟩ | hx
    · exact .inl ⟨rfl, hafter.1 hb⟩
    · exact .inr ⟨List.mem_of_getElem? hxj, j, hj, hxj⟩
    · rw [(hspawn x hx).1] at hb; cases hb
  refine ⟨?_, fun x hx hb => ?_, fun x hx hb hop => ?_⟩
  · have : (if (c.after a r w).booting then 1 else 0) ≤ if c.booting then 1 else 0 := by
      cases h : (c.after a r w).booting with
      | false => simp
      | true => simp [hafter.1 h]
    omega
  · have hex : ∃ y ∈ cs, y.booting = true := by
      rcases hold x hx hb with ⟨rfl, h⟩ | ⟨h, -⟩
      · exact ⟨c, hmem, h⟩
      · exact ⟨x, h, hb⟩
    obtain ⟨y, hy, hyb⟩ := hex
    obtain ⟨hserv, hcl⟩ := hclosed y hy hyb
    refine ⟨?_, Pool.forall_update hcl (hafter.2.trans (hcl c hmem)) fun z hz => ?_⟩
    · cases hs : a.touches .serving with
      | false => exact Eq.trans (exec_same he .serving hs) hserv
      | true =>
        -- After `serve` no thread is starting any more.
        cases a with
        | serve =>
          rcases hold x hx hb with ⟨rfl, -⟩ | ⟨-, j, hj, hxj⟩
          · cases hb
          · rw [Pool.others_not hone hc hok.1 hj hxj] at hb
            cases hb
        | _ => cases hs
    · have := (hspawn z hz).2
      rw [hcl c hmem] at this
      cases hzc : z.client with
      | false => rfl
      | true => exact absurd (this hzc) (by simp)
  · have hex : ∃ y ∈ cs, y.booting = true ∧ y.op = none := by
      rcases hold x hx hb with ⟨rfl, h⟩ | ⟨h, -⟩
      · exact ⟨c, hmem, h, (after_op hop).1⟩
      · exact ⟨x, h, hb, hop⟩
    obtain ⟨y, hy, hyb, hyop⟩ := hex
    obtain ⟨hslot, hfree, -⟩ := hbefore y hy hyb hyop
    have hcl := (hclosed y hy hyb).2
    obtain ⟨hcp, hcop⟩ := hfree c hmem
    have hnew : c ≠ .newClient := fun h => by
      have := hcl c hmem
      rw [h] at this
      cases this
    have hput : a.isPut = false := by
      rcases hold x hx hb with ⟨rfl, h⟩ | ⟨-, j, hj, hxj⟩
      · exact (after_op hop).2
      · cases a with
        | putOperation op =>
          rw [Pool.others_not hone hc hok.1 hj hxj] at hb
          cases hb
        | _ => rfl
    have hact := unbound_act (r := r) (w := w) hok hcp hcop (hcl c hmem) hput
    refine ⟨slot_none he hslot hput hnew hok,
      Pool.forall_update hfree hact.1 fun z hz => ⟨(hact.2 z hz).1, (hact.2 z hz).2.1⟩, ?_⟩
    obtain ⟨hother, hmine⟩ := journal_start hok he hcp
    rcases hold x hx hb with ⟨rfl, h⟩ | ⟨h, j, hj, hxj⟩
    · exact hmine (hbefore c hmem h hcop).2.2
    · intro j' hj'
      have hcb : c.booting = false := by
        cases hcb : c.booting with
        | false => rfl
        | true =>
          rw [Pool.others_not hone hc hcb hj hxj] at hb
          cases hb
      exact (hother hcb).trans ((hbefore x h hb hop).2.2 j' hj')

end OpenUI.Agent.Esim
