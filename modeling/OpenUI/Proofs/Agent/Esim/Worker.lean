import OpenUI.Proofs.Agent.Esim.Runs

/-!
# `OpenUI.Proofs.Agent.Esim.Worker`: the receipt worker's hand-over

The flag `receipts.worker` is claimed under the mutex by the thread that starts the worker, and
given back under the mutex by the worker's exit test. `Handover` ties the flag to the threads: it
is set exactly while one thread is the worker or is about to start it, and a queue with rounds
left has the flag set or a thread that pushed and has yet to look at it.

* `handover_act`: every allowed action keeps `Handover`.
* `worker_handover`: at most one worker, and no wake-up is lost.
-/

set_option autoImplicit false

namespace OpenUI.Agent.Esim

open OpenUI.Json OpenUI.Text OpenUI.Concurrency

variable {P : Platform} {t : Timing}

/-- The thread is the receipt worker, or holds its place. -/
def Ctx.atWork (c : Ctx) : Bool := c.worker || c.claimedWorker

/-- The queue is to be delivered: it is not empty, and there are rounds left. -/
def Receipts.Waiting (q : Receipts) : Prop := q.pending ≠ [] ∧ q.round < receiptMaxRounds

/-- The worker's flag is set exactly while one thread is at work, and a waiting queue has the
flag set, or a thread that pushed and has not seen to the worker yet. -/
structure Handover (w : World) (cs : List Ctx) : Prop where
  flag : cs.countP Ctx.atWork = if w.inner.receipts.worker then 1 else 0
  woken : w.inner.receipts.Waiting → w.inner.receipts.worker = true ∨ ∃ c ∈ cs, c.pushed = true

/-- What a step must show: the flag moves with the thread at work, and a queue that waits after
the step waited before it, or the acting thread sees to it. -/
theorem Handover.update {w w' : World} {cs new : List Ctx} {i : Nat} {c c' : Ctx}
    (h : Handover w cs) (hc : cs[i]? = some c)
    (hwork : (if c'.atWork then 1 else 0) + new.countP Ctx.atWork
        + (if w.inner.receipts.worker then 1 else 0)
      = (if c.atWork then 1 else 0) + if w'.inner.receipts.worker then 1 else 0)
    (hwoken : w'.inner.receipts.Waiting →
      w'.inner.receipts.worker = true ∨ c'.pushed = true ∨
        w.inner.receipts.Waiting ∧ (w.inner.receipts.worker = true →
          w'.inner.receipts.worker = true) ∧
          (c.pushed = true → c'.pushed = true)) :
    Handover w' (cs.set i c' ++ new) := by
  have hcount := Pool.countP_update Ctx.atWork c' new hc
  have hflag := h.flag
  refine ⟨by omega, fun hw => ?_⟩
  rcases hwoken hw with hf | hp | ⟨hwait, hf, hp⟩
  · exact .inl hf
  · exact .inr ⟨c', Pool.self_mem hc, hp⟩
  · exact (h.woken hwait).imp hf (Pool.exists_update hc hp)

/-- The queue, and the acting thread's part in the work, stay as they are. -/
theorem Handover.frame {w w' : World} {cs new : List Ctx} {i : Nat} {c c' : Ctx}
    (h : Handover w cs) (hc : cs[i]? = some c)
    (hwork : (if c'.atWork then 1 else 0) + new.countP Ctx.atWork = if c.atWork then 1 else 0)
    (hpushed : c.pushed = true → c'.pushed = true)
    (hqueue : w'.inner.receipts = w.inner.receipts) : Handover w' (cs.set i c' ++ new) :=
  h.update hc (by rw [hqueue, hwork]) fun hw =>
    .inr (.inr ⟨hqueue ▸ hw, by rw [hqueue]; exact id, hpushed⟩)

/-- A delivery round only takes receipts off the queue, and uses a round up. -/
theorem absorbDelivery_waiting (o : HelperOutcome) (inner : Inner) :
    (inner.absorbDelivery o).receipts.worker = inner.receipts.worker ∧
      ((inner.absorbDelivery o).receipts.Waiting → inner.receipts.Waiting) := by
  have hround : ∀ {q : Receipts}, q.round = inner.receipts.round + 1 →
      (q.pending ≠ [] → inner.receipts.pending ≠ []) → q.Waiting → inner.receipts.Waiting := by
    intro q hr hp hw
    exact ⟨hp hw.1, by have := hw.2; omega⟩
  unfold Inner.absorbDelivery
  cases o with
  | ok data =>
    refine ⟨rfl, hround rfl fun hne hp => hne ?_⟩
    show inner.receipts.pending.filter _ = []
    rw [hp, List.filter_nil]
  | failed kind message detail =>
    dsimp only
    split
    · exact ⟨rfl, hround rfl fun hne => absurd rfl hne⟩
    · exact ⟨rfl, hround rfl id⟩
  | _ => exact ⟨rfl, hround rfl id⟩

@[simp] theorem noteDelivery_inner (w : World) (eid : Option String) (o : HelperOutcome) :
    (w.noteDelivery eid o).inner = w.inner := by
  unfold World.noteDelivery
  repeat' split
  all_goals rfl

/-- A read keeps the queue, or empties it for a new card; the worker keeps its place. -/
theorem Absorbed.waiting {now : Nat} {before after : Inner} {r : Except (String × String) Bool}
    (h : Absorbed P t now before after r) : after.receipts.worker = before.receipts.worker ∧
      (after.receipts.Waiting → before.receipts.Waiting) := by
  cases h with
  | taken data _ _ _ hq =>
    rw [hq]
    split
    · exact ⟨rfl, fun hw => absurd rfl hw.1⟩
    · exact ⟨rfl, id⟩
  | kept _ _ hq | lost _ _ _ hq => rw [hq]; exact ⟨rfl, id⟩

theorem handover_act {β : Type} {w w' : World} {cs : List Ctx} {i : Nat} {c : Ctx} {a : Act β}
    {e : Choice} {r : β} (h : Handover w cs) (hc : cs[i]? = some c) (hok : c.allows a)
    (he : exec P t a c e w = some (r, w')) :
    Handover w' (cs.set i (c.after a r w) ++ (spawns c a r).map Prod.snd) := by
  have hframe : a.touches .queue = false → a.takes = false →
      Handover w' (cs.set i (c.after a r w) ++ (spawns c a r).map Prod.snd) := by
    intro hq ht
    have hholds := after_holds (c := c) (r := r) (w := w) ht
    have hw : (c.after a r w).worker = c.worker := congrArg Holds.worker hholds
    have hcl : (c.after a r w).claimedWorker = c.claimedWorker :=
      congrArg Holds.claimedWorker hholds
    have hp : (c.after a r w).pushed = c.pushed := congrArg Holds.pushed hholds
    have hsp : spawns c a r = [] := by
      cases a with
      | spawn b => cases ht
      | _ => rfl
    rw [hsp]
    exact h.frame hc (by rw [Ctx.atWork, hw, hcl]; rfl) (hp ▸ id) (exec_same he .queue hq).1
  cases a with
  | receiptsPending =>
    obtain ⟨hr, rfl⟩ : (!w.inner.receipts.pending.isEmpty) = r ∧ w = w' := by simpa [exec] using he
    subst hr
    refine h.update hc ?_ fun hw => .inr (.inr ⟨hw, id, ?_⟩)
    · cases w.inner.receipts.pending <;> simp [spawns, Ctx.atWork]
    · -- It goes on only when it saw an empty queue, and this one waits.
      simp [hw.1]
  | pushReceipts seqs =>
    simp only [exec, Option.some.injEq, Prod.mk.injEq] at he
    obtain ⟨-, rfl⟩ := he
    have hworker : ∀ found, (({ w with inner := w.inner.pushReceipts seqs } : World).noteQueued P
        found seqs).inner.receipts.worker = w.inner.receipts.worker := by
      intro found
      unfold World.noteQueued
      split <;> rfl
    refine h.update hc ?_ fun _ => .inr (.inl rfl)
    rw [hworker]
    simp [spawns, Ctx.atWork]
  | claimWorker =>
    simp only [exec, Option.some.injEq, Prod.mk.injEq] at he
    obtain ⟨rfl, rfl⟩ := he
    have hw : c.worker = false := hok.1
    have hcl : c.claimedWorker = false := hok.2
    refine h.update hc ?_ fun _ => .inl ?_
    · cases hf : w.inner.receipts.worker <;>
        simp [spawns, Ctx.atWork, Inner.claimWorker, hf, hw, hcl]
    · cases hf : w.inner.receipts.worker <;> simp [Inner.claimWorker, hf]
  | workerRound =>
    simp only [exec, Option.some.injEq, Prod.mk.injEq] at he
    obtain ⟨rfl, rfl⟩ := he
    have hone : 0 < cs.countP Ctx.atWork :=
      List.countP_pos_iff.mpr ⟨c, List.mem_of_getElem? hc, by simp [Ctx.atWork, hok.worker]⟩
    have hf : w.inner.receipts.worker = true := by
      have := h.flag
      split at this
      · assumption
      · omega
    unfold Inner.workerRound
    split
    · rename_i hstop
      refine h.update hc (by simp [spawns, Ctx.atWork, hok.worker, hok.idle.2.2.2.2.2, hf])
        fun hw => ?_
      -- The exit test and the flag are under one lock: a queue left behind does not wait.
      rcases hstop with hempty | hrounds
      · exact absurd hempty hw.1
      · exact absurd hw.2 (Nat.not_lt.mpr hrounds)
    · exact h.frame hc (by simp [spawns, Ctx.atWork]) id rfl
  | absorbDelivery o =>
    simp only [exec, Option.some.injEq, Prod.mk.injEq] at he
    obtain ⟨-, rfl⟩ := he
    obtain ⟨hworker, hwait⟩ := absorbDelivery_waiting o w.inner
    refine h.update hc ?_ fun hw => .inr (.inr ⟨hwait ?_, ?_, id⟩)
    · rw [noteDelivery_inner, hworker]
      rfl
    · rwa [noteDelivery_inner] at hw
    · rw [noteDelivery_inner, hworker]
      exact id
  | absorbRead o ready =>
    obtain ⟨inner, habs, rfl⟩ := absorb_world he
    obtain ⟨hworker, hwait⟩ := habs.waiting
    refine h.update hc ?_ fun hw => .inr (.inr ⟨hwait ?_, ?_, id⟩)
    · rw [noteAbsorbed_inner, hworker]
      rfl
    · rwa [noteAbsorbed_inner] at hw
    · rw [noteAbsorbed_inner, hworker]
      exact id
  | spawn b =>
    have hqueue := (exec_same he .queue rfl).1
    cases b with
    | receiptWorker =>
      exact h.frame hc (by simp [spawns, Ctx.atWork, hok.1, hok.2]) id hqueue
    | detect => exact h.frame hc (by simp [spawns, Ctx.atWork]) id hqueue
    | runSwitch _ _ | verify _ _ | runDownload _ _ | settleDownload _ =>
      exact h.frame hc (by simp [spawns, Ctx.atWork, Ctx.child]) id hqueue
    | _ => exact hok.elim
  | setLock _ _ =>
    exact h.frame hc (by cases r <;> rfl) (by cases r <;> exact id) (exec_same he .queue rfl).1
  | startHelper request =>
    have hqueue := (exec_same he .queue rfl).1
    generalize hx : c.after (.startHelper request) r w = c'
    cases hx ▸ after_startHelper c request w with
    | _ => exact h.frame hc rfl id hqueue
  | snapshot | writeState _ | lockCard | tryLockCard | unlockCard =>
    exact h.frame hc rfl id (exec_same he .queue rfl).1
  | _ => exact hframe rfl rfl

/-- What the state file gives at the start counts as pushed by the main thread. -/
theorem handover_outside {w : World} {cs : List Ctx} {x : Outside}
    {o : Occurrence Ctx World Body} (h : Handover w cs) (ho : occur x w = some o) :
    Handover o.world ((if o.kill then [] else cs) ++ o.starts.map Prod.snd) := by
  rcases occur_cases ho with ⟨d, rfl⟩ | ⟨r, -, rfl⟩ | ⟨salt, readable, -, -, rfl⟩
  · rw [List.map_nil, List.append_nil]
    exact ⟨h.flag, h.woken⟩
  · refine ⟨?_, fun hw => (h.woken hw).imp id fun hpushed => hpushed.imp fun c hc =>
      ⟨List.mem_append_left _ hc.1, hc.2⟩⟩
    have : (cs ++ [Ctx.newClient]).countP Ctx.atWork = cs.countP Ctx.atWork := by
      simp [Ctx.newClient, Ctx.atWork]
    exact this.trans h.flag
  · exact ⟨rfl, fun _ => .inr ⟨.boot, List.mem_singleton.mpr rfl, rfl⟩⟩

theorem handover_run {K : Steps} {s : AgentState} (h : Reaches P t K s) :
    Handover s.world s.ctxs :=
  run_invariant (fun _ hJ hc hok _ he => handover_act hJ hc hok he)
    (fun _ hJ _ ho => handover_outside hJ ho) ⟨rfl, fun hw => absurd rfl hw.1⟩ h

/-- **The receipt worker's hand-over.** In every state of every run at most one thread is the
receipt worker; and when no thread stands between pushing to the queue and starting the worker,
a queue that is not empty and has rounds left has exactly one worker, which has not ended. -/
theorem worker_handover {s : AgentState} (h : Reaches P t .any s) :
    s.ctxs.countP Ctx.worker ≤ 1 ∧
      ((∀ c ∈ s.ctxs, c.pushed = false ∧ c.claimedWorker = false) →
        s.world.inner.receipts.pending ≠ [] →
        s.world.inner.receipts.round < receiptMaxRounds →
        s.ctxs.countP Ctx.worker = 1 ∧ ∃ th ∈ s.threads, th.ctx.worker = true ∧ ¬ Ended th) := by
  obtain ⟨hflag, hwoken⟩ := handover_run h
  have hle : s.ctxs.countP Ctx.worker ≤ s.ctxs.countP Ctx.atWork :=
    List.countP_mono_left fun c _ hc => by simp [Ctx.atWork, hc]
  refine ⟨by split at hflag <;> omega, fun hidle hne hrounds => ?_⟩
  have hset : s.world.inner.receipts.worker = true := by
    rcases hwoken ⟨hne, hrounds⟩ with hf | ⟨c, hc, hp⟩
    · exact hf
    · rw [(hidle c hc).1] at hp
      cases hp
  -- With nobody holding the place, the one thread at work is the worker itself.
  have heq : s.ctxs.countP Ctx.worker = s.ctxs.countP Ctx.atWork :=
    List.countP_congr fun c hc => by simp [Ctx.atWork, (hidle c hc).2]
  have hone : s.ctxs.countP Ctx.worker = 1 := by rw [heq, hflag, if_pos hset]
  refine ⟨hone, ?_⟩
  obtain ⟨c, hc, hw⟩ := List.countP_pos_iff.mp (by omega : 0 < s.ctxs.countP Ctx.worker)
  obtain ⟨th, hth, rfl⟩ := List.mem_map.mp hc
  refine ⟨th, hth, hw, fun he => ?_⟩
  rw [(fin_of_ended h hth he).worker] at hw
  cases hw

/-- The user sends the sample card's receipts: thread `3` is the worker. -/
def sendTurns : List Turn :=
  loadedTurns ++ .outside (.request .receiptsSend) :: turns 2 3 ++ fileDone 2 ++ turns 2 4

theorem worker_handover_sample : ∃ s, Reaches samplePlatform {} .any s ∧
    s.world.inner.receipts.pending = [5] ∧ s.ctxs.countP Ctx.worker = 1 := by
  obtain ⟨s, hs, hcheck⟩ := sample_run .any sendTurns
    (fun s => s.ctxs.all (fun c => !c.pushed && !c.claimedWorker)
      && s.world.inner.receipts.pending == [5] && s.world.inner.receipts.round == 0)
    (by decide +kernel)
  simp only [Bool.and_eq_true, List.all_eq_true, Bool.not_eq_true', beq_iff_eq] at hcheck
  obtain ⟨⟨hidle, hpending⟩, hround⟩ := hcheck
  exact ⟨s, hs, hpending, ((worker_handover hs).2 hidle (by simp [hpending])
    (by simp [hround, receiptMaxRounds])).1⟩

end OpenUI.Agent.Esim
