import OpenUI.Proofs.Agent.Esim.Runs

/-!
# `OpenUI.Proofs.Agent.Esim.Resolution`: no operation is left unresolved

An unresolved operation blocks every later change until a restart, so its owner must not end
before it is resolved. Two facts of the earlier modules say that it cannot: an unresolved
operation has an owner (`Ownership`), and a thread that has ended owns nothing (`threadFin`). The
early return of `settle_download` needs a missing operation or inventory, and neither goes
missing while the operation is unresolved.
-/

set_option autoImplicit false

namespace OpenUI.Agent.Esim

open OpenUI.Json OpenUI.Text OpenUI.Concurrency

variable {P : Platform} {t : Timing}

/-- An unresolved operation is owned by a thread that has not ended. -/
theorem owner_of_unresolved {K : Steps} {s : AgentState} (h : Reaches P t K s) {op : Operation}
    (hop : s.world.inner.operation = some op) (hres : op.state.resolved = false) :
    ∃ th ∈ s.threads, th.ctx.owns = true ∧ th.ctx.op = some (op.id, op.kind) ∧ ¬ Ended th := by
  obtain ⟨hB, -⟩ := base_run h
  have hbusy : s.world.inner.operationBusy = true := by
    rw [Inner.operationBusy, hop]
    simp [hres]
  obtain ⟨c, hc, ho⟩ := List.countP_pos_iff.mp (hB.ownership.busy hbusy)
  obtain ⟨op', asked, hslot, -, hid, -⟩ := hB.ownership.owner c hc ho
  obtain rfl : op' = op := Option.some.inj (hslot.symm.trans hop)
  obtain ⟨th, hth, rfl⟩ := List.mem_map.mp hc
  refine ⟨th, hth, ho, hid, fun he => ?_⟩
  have hphase := (fin_of_ended h hth he).phase
  rw [Ctx.owns, hphase] at ho
  cases ho

/-- A thread about to look for the installed profile finds an operation and an inventory. -/
theorem findInstalled_of_act {K : Steps} {s : AgentState} (h : Reaches P t K s)
    {th : Thread Act Ctx Body} (hth : th ∈ s.threads)
    {k : Option (Option (String × String × String)) → Prog (Next Body)}
    (hp : th.prog = .act .findInstalled k) : s.world.inner.findInstalled ≠ none := by
  have hok := allowed_of_act h hth hp
  obtain ⟨i, hi⟩ := List.mem_iff_getElem?.mp hth
  exact learns_act (t := t) (e := .none) (base_run h).1 (Machine.ctxs_getElem? hi) hok rfl

/-- **No stuck operation.** In every state of every run an unresolved operation is owned by a
thread that has not ended, and `settle_download` never returns early. -/
theorem never_stuck {s : AgentState} (h : Reaches P t .any s) :
    (∀ op, s.world.inner.operation = some op → op.state.resolved = false →
      ∃ th ∈ s.threads, th.ctx.owns = true ∧ th.ctx.op = some (op.id, op.kind) ∧ ¬ Ended th) ∧
    ∀ th ∈ s.threads, ∀ k, th.prog = .act .findInstalled k →
      s.world.inner.findInstalled ≠ none :=
  ⟨fun _ hop hres => owner_of_unresolved h hop hres, fun _ hth _ hp =>
    findInstalled_of_act h hth hp⟩

/-- The body of a download request. -/
def sampleDownload (id : String) : Option Value :=
  some (.obj [("operation_id", .str id), ("activation_code", .str "LPA:1$rsp.example.com$A1")])

/-- Thread `2` admits a download and thread `3` starts it. -/
def downloadTurns : List Turn :=
  loadedTurns ++ .outside (.request (.download (sampleDownload "download-1"))) :: turns 2 1
    ++ .thread 2 (.flag true) :: fileDone 2 ++ turns 2 3 ++ turns 3 3

/-- The helper is killed, and thread `3` has read the card. -/
def settleTurns : List Turn :=
  downloadTurns ++ turns 3 2 ++ .thread 3 (.event (.done .killed)) :: turns 3 4
    ++ readTurns 3 sampleCard false

theorem never_stuck_sample : ∃ s, Reaches samplePlatform {} .any s ∧
    s.world.inner.operationBusy = true ∧
    ∃ th ∈ s.threads, th.ctx.owns = true ∧ ¬ Ended th := by
  obtain ⟨s, hs, hcheck⟩ := sample_run .any settleTurns
    (fun s => s.world.inner.operation.any (fun op => !op.state.resolved)) (by decide +kernel)
  rw [Option.any_eq_true] at hcheck
  obtain ⟨op, hop, hres⟩ := hcheck
  obtain ⟨th, hth, ho, -, he⟩ := (never_stuck hs).1 op hop (by simpa using hres)
  refine ⟨s, hs, ?_, th, hth, ho, he⟩
  rw [Inner.operationBusy, hop]
  exact hres

end OpenUI.Agent.Esim
