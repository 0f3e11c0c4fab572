import OpenUI.Proofs.Agent.Esim.Invariants

/-!
# `OpenUI.Proofs.Agent.Esim.Ownership`: one owner for the operation in the slot

An operation is admitted under the mutex, carried out by one thread after another, and resolved
once. `ownership_act` proves that every allowed action keeps `Ownership`.

* `Ownership.update` is the step lemma all cases use; `frame`, `bystander`, `keep`, `release` and
  `claim` are what an action can do to the owner.
* `Ctx.OwnsIn.updated`: a change of the operation that leaves its identity alone.
* `admitChange_ok`, `claimDownload_ok`: what a successful admission says of the slot.
-/

set_option autoImplicit false

namespace OpenUI.Agent.Esim

open OpenUI.Json OpenUI.Text OpenUI.Concurrency

variable {P : Platform} {t : Timing}

theorem Ctx.owns_iff {c : Ctx} :
    c.owns = true ↔ c.phase = .claimed ∨ c.phase = .running ∨ c.phase = .settling := by
  unfold Ctx.owns
  cases c.phase <;> decide

/-- Two contexts own the same operation in the same way. -/
def Ctx.SameOwner (c c' : Ctx) : Prop :=
  c'.op = c.op ∧ c'.admitted = c.admitted ∧ c'.phase = c.phase ∧ c'.fate = c.fate

theorem Ctx.SameOwner.of_role {c c' : Ctx} (h : c'.role = c.role) : c.SameOwner c' :=
  ⟨congrArg Role.op h, congrArg Role.admitted h, congrArg Role.phase h, congrArg Role.fate h⟩

theorem Ctx.SameOwner.owns {c c' : Ctx} (h : c.SameOwner c') : c'.owns = c.owns := by
  simp [Ctx.owns, h.2.2.1]

theorem Ctx.OwnsIn.of_sameOwner {c c' : Ctx} {w : World} (h : c.OwnsIn w) (hs : c.SameOwner c') :
    c'.OwnsIn w := by
  obtain ⟨op, asked, hslot, hres, hop, hasked, hm, hstage⟩ := h
  obtain ⟨hop', hadm, hphase, hfate⟩ := hs
  refine ⟨op, asked, hslot, hres, hop' ▸ hop, hasked, hm, ?_⟩
  unfold Ctx.stage at hstage ⊢
  rw [hphase, hadm, hfate]
  exact hstage

theorem Ctx.OwnsIn.of_same {c : Ctx} {w w' : World} (h : c.OwnsIn w) (hs : w.Same w' .slot)
    (hf : w.Same w' .fate) : c.OwnsIn w' := by
  obtain ⟨op, asked, hslot, hres, hop, hasked, hm, hstage⟩ := h
  exact ⟨op, asked, hs.1.trans hslot, hres, hop, hs.2.trans hasked, hm, hf.1 ▸ hstage⟩

theorem operationBusy_of_same {w w' : World} (hs : w.Same w' .slot) :
    w'.inner.operationBusy = w.inner.operationBusy := by
  rw [Inner.operationBusy, Inner.operationBusy, hs.1]

/-- A step in which ownership stays where it is, or moves from the acting thread to a thread it
starts. -/
theorem Ownership.update {w w' : World} {cs new : List Ctx} {i : Nat} {c c' : Ctx}
    (h : Ownership w cs) (hc : cs[i]? = some c)
    (hcount : (if c'.owns then 1 else 0) + new.countP Ctx.owns = if c.owns then 1 else 0)
    (hbusy : w'.inner.operationBusy = true → w.inner.operationBusy = true)
    (hme : c'.owns = true → c'.OwnsIn w') (hnew : ∀ x ∈ new, x.owns = true → x.OwnsIn w')
    (hothers : c.owns = false → ∀ x ∈ cs, x.owns = true → x.OwnsIn w → x.OwnsIn w') :
    Ownership w' (cs.set i c' ++ new) := by
  have htotal := Pool.countP_update Ctx.owns c' new hc
  have hsame : (cs.set i c' ++ new).countP Ctx.owns = cs.countP Ctx.owns := by omega
  refine ⟨hsame ▸ h.one, fun hb => hsame ▸ h.busy (hbusy hb), ?_⟩
  · intro x hx hox
    rcases Pool.mem_update hx with rfl | ⟨j, hj, hxj⟩ | hx
    · exact hme hox
    · cases hown : c.owns with
      | true =>
        rw [Pool.others_not h.one hc hown hj hxj] at hox
        cases hox
      | false =>
        have hmem := List.mem_of_getElem? hxj
        exact hothers hown x hmem hox (h.owner x hmem hox)
    · exact hnew x hx hox

/-- Ownership does not move, and the slot is as it was. -/
theorem Ownership.frame {w w' : World} {cs : List Ctx} {i : Nat} {c c' : Ctx}
    (h : Ownership w cs) (hc : cs[i]? = some c) (ho : c.SameOwner c') (hs : w.Same w' .slot)
    (hf : w.Same w' .fate) : Ownership w' (cs.set i c' ++ []) := by
  have howns := ho.owns
  refine h.update hc (by simp [howns]) (fun hb => operationBusy_of_same hs ▸ hb) (fun hx => ?_)
    (fun x hx => by cases hx) fun _ x hx hox hin => hin.of_same hs hf
  rw [howns] at hx
  exact ((h.owner c (List.mem_of_getElem? hc) hx).of_same hs hf).of_sameOwner ho

/-- A thread that owns nothing still owns nothing, and the slot is as it was. -/
theorem Ownership.bystander {w w' : World} {cs : List Ctx} {i : Nat} {c c' : Ctx}
    (h : Ownership w cs) (hc : cs[i]? = some c) (ho : c.owns = false) (ho' : c'.owns = false)
    (hs : w.Same w' .slot) (hf : w.Same w' .fate) : Ownership w' (cs.set i c' ++ []) :=
  h.update hc (by simp [ho, ho']) (fun hb => operationBusy_of_same hs ▸ hb)
    (fun hx => by rw [ho'] at hx; cases hx) (fun x hx => by cases hx)
    fun _ x hx hox hin => hin.of_same hs hf

/-- The owner goes on. -/
theorem Ownership.keep {w w' : World} {cs : List Ctx} {i : Nat} {c c' : Ctx}
    (h : Ownership w cs) (hc : cs[i]? = some c) (ho : c.owns = true) (ho' : c'.owns = true)
    (hb : w'.inner.operationBusy = true → w.inner.operationBusy = true) (hin : c'.OwnsIn w') :
    Ownership w' (cs.set i c' ++ []) :=
  h.update hc (by simp [ho, ho']) hb (fun _ => hin) (fun x hx => by cases hx)
    fun hno => by rw [ho] at hno; cases hno

/-- The owner lets go: the operation is resolved, or gone. -/
theorem Ownership.release {w w' : World} {cs : List Ctx} {i : Nat} {c c' : Ctx}
    (h : Ownership w cs) (hc : cs[i]? = some c) (ho : c.owns = true) (ho' : c'.owns = false)
    (hb : w'.inner.operationBusy = false) : Ownership w' (cs.set i c' ++ []) := by
  have htotal := Pool.countP_update Ctx.owns c' [] hc
  rw [ho, ho'] at htotal
  have hone := h.one
  have hzero : (cs.set i c' ++ []).countP Ctx.owns = 0 := by
    simp only [if_true, Bool.false_eq_true, if_false, List.countP_nil] at htotal
    omega
  refine ⟨by omega, fun h' => absurd h' (by simp [hb]), fun x hx hox => ?_⟩
  rw [Pool.not_of_countP_eq_zero hzero hx] at hox
  cases hox

/-- A thread takes the free slot. -/
theorem Ownership.claim {w' : World} {cs : List Ctx} {i : Nat} {c c' : Ctx}
    (hc : cs[i]? = some c) (hzero : cs.countP Ctx.owns = 0) (ho' : c'.owns = true)
      (hin : c'.OwnsIn w') :
    Ownership w' (cs.set i c' ++ []) := by
  have htotal := Pool.countP_update Ctx.owns c' [] hc
  have ho : c.owns = false := Pool.not_of_countP_eq_zero hzero (List.mem_of_getElem? hc)
  rw [ho, ho'] at htotal
  simp only [if_true, Bool.false_eq_true, if_false, List.countP_nil] at htotal
  refine ⟨by omega, fun _ => by omega, fun x hx hox => ?_⟩
  rcases Pool.mem_update hx with rfl | ⟨j, hj, hxj⟩ | hx
  · exact hin
  · rw [Pool.not_of_countP_eq_zero hzero (List.mem_of_getElem? hxj)] at hox
    cases hox
  · cases hx

/-- The slot is free when no operation in it is unresolved. -/
theorem Ownership.free {w : World} {cs : List Ctx} (h : Ownership w cs)
    (hb : w.inner.operationBusy = false) : cs.countP Ctx.owns = 0 := by
  rw [List.countP_eq_zero]
  intro c hc hown
  obtain ⟨op, asked, hslot, hres, -⟩ := h.owner c hc hown
  rw [Inner.operationBusy, hslot] at hb
  simp [hres] at hb

/-- The operation of a thread past the helper's answer has its answer. -/
theorem Ownership.fate_of_settling {w : World} {cs : List Ctx} {c : Ctx} (h : Ownership w cs)
    (hc : c ∈ cs) (hp : c.phase = .settling) :
    w.history.fate = c.fate ∧ w.history.fate ≠ .unsent := by
  obtain ⟨op, asked, -, -, -, -, -, hstage⟩ := h.owner c hc (Ctx.owns_iff.mpr (.inr (.inr hp)))
  unfold Ctx.stage at hstage
  rwa [hp] at hstage

/-- An owned operation is unresolved. -/
theorem Ownership.busy_of_owns {w : World} {cs : List Ctx} {c : Ctx} (h : Ownership w cs)
    (hc : c ∈ cs) (ho : c.owns = true) : w.inner.operationBusy = true := by
  obtain ⟨op, asked, hslot, hres, -⟩ := h.owner c hc ho
  rw [Inner.operationBusy, hslot]
  simp [hres]

/-- The owner's operation after a change that leaves its identity alone. -/
theorem Ctx.OwnsIn.updated {c c' : Ctx} {w w' : World} {f : Operation → Operation}
    (h : c.OwnsIn w) (hp : c.phase ≠ .claimed) (ho : c.SameOwner c')
    (hslot' : w'.inner.operation = w.inner.operation.map f)
    (hasked' : w'.history.asked = w.history.asked) (hfate : w'.history.fate = w.history.fate)
    (hid : ∀ op, (f op).id = op.id ∧ (f op).kind = op.kind ∧
      (f op).profilesBefore = op.profilesBefore)
    (htarget : ∀ op, c.op = some (op.id, op.kind) → op.kind ≠ .download → (f op).target = op.target)
    (hres' : ∀ op, op.state.resolved = false → (f op).state.resolved = false) : c'.OwnsIn w' := by
  obtain ⟨op, asked, hslot, hres, hop, hasked, hm, hstage⟩ := h
  obtain ⟨hop', hadm, hphase, hfate'⟩ := ho
  obtain ⟨hi, hk, hb⟩ := hid op
  refine ⟨f op, asked, by rw [hslot', hslot]; rfl, hres' op hres, ?_, hasked'.trans hasked, ?_, ?_⟩
  · rw [hop', hop, hi, hk]
  · exact ⟨hm.kind.trans hk.symm, hm.profiles.trans hb.symm, fun hne => by
      rw [hk] at hne
      rw [htarget op hop hne, hm.target hne]⟩
  · unfold Ctx.stage at hstage ⊢
    rw [hphase, hfate, hfate']
    cases hph : c.phase <;> rw [hph] at hstage hp
    · exact hstage
    · exact absurd rfl hp
    · exact hstage
    · exact hstage
    · exact hstage

/-- `admit` succeeded: the slot was free, and what was claimed is what the card in memory shows. -/
theorem admitChange_ok {kind : Kind} {id handle : String} {revision : Nat} {inner inner' : Inner}
    {a : Admitted} (h : inner.admitChange kind id handle revision = (.ok a, inner')) :
    inner.operationBusy = false ∧ revision = inner.revision ∧
      inner' = { inner with operation := some a.op } ∧
      ∃ inv, inner.inventory = some inv ∧ a.op = Inner.newOperation kind id handle inv ∧
        a.eid = inv.eid ∧ a.active = inv.enabled ∧ inv.find handle = some a.target := by
  unfold Inner.admitChange at h
  split at h
  · split at h <;> cases h
  · split at h
    · cases h
    · rename_i hbusy
      split at h
      · cases h
      · split at h
        · cases h
        · rename_i inv hinv
          split at h
          · cases h
          · rename_i hrevision
            split at h
            · cases h
            · rename_i target htarget
              split at h
              · cases h
              · cases h
                exact ⟨by simpa using hbusy, Decidable.not_not.mp hrevision, rfl, inv, hinv, rfl,
                  rfl, rfl, htarget⟩

theorem claimDownload_ok {id eid : String} {ch : Nat} {inner inner' : Inner}
    (h : inner.claimDownload id ch = (.ok eid, inner')) :
    inner.operationBusy = false ∧ ∃ inv, inner.inventory = some inv ∧ eid = inv.eid ∧
      inner' = { inner with operation := some (Inner.newDownload id ch inv) } := by
  unfold Inner.claimDownload at h
  split at h
  · split at h <;> cases h
  · split at h
    · cases h
    · rename_i hbusy
      split at h
      · cases h
      · split at h
        · cases h
        · rename_i inv hinv
          cases h
          exact ⟨by simpa using hbusy, inv, hinv, rfl, rfl⟩

/-- A refused claim changes nothing. -/
theorem admitChange_error {kind : Kind} {id handle : String} {revision : Nat} {inner inner' : Inner}
    {refusal : Refusal} (h : inner.admitChange kind id handle revision = (.error refusal, inner')) :
    inner' = inner := by
  unfold Inner.admitChange at h
  repeat' split at h
  all_goals first
    | (cases h; rfl)
    | cases h

theorem claimDownload_error {id : String} {ch : Nat} {inner inner' : Inner} {refusal : Refusal}
    (h : inner.claimDownload id ch = (.error refusal, inner')) : inner' = inner := by
  unfold Inner.claimDownload at h
  repeat' split at h
  all_goals first
    | (cases h; rfl)
    | cases h

/-- `admit` in the world: the slot is claimed, or nothing changes. -/
theorem admit_world {kind : Kind} {id handle : String} {revision : Nat} {c : Ctx} {e : Choice}
    {w w' : World} {r : Except Refusal Admitted}
    (he : exec P t (.admitChange kind id handle revision) c e w = some (r, w')) :
    (∃ a inv, r = .ok a ∧ w.inner.operationBusy = false ∧ w.inner.inventory = some inv ∧
      a.op = Inner.newOperation kind id handle inv ∧ a.eid = inv.eid ∧
      (∃ p ∈ inv.profiles, p.handle = handle) ∧
      w' = { w with inner := { w.inner with operation := some a.op } }.noteClaim a.op a.eid) ∨
    (∃ refusal, r = .error refusal ∧ w' = w) := by
  simp only [exec] at he
  split at he
  · rename_i a inner h
    simp only [Option.some.injEq, Prod.mk.injEq] at he
    obtain ⟨rfl, rfl⟩ := he
    obtain ⟨hbusy, -, rfl, inv, hinv, hop, heid, -, hp⟩ := admitChange_ok h
    exact .inl ⟨a, inv, rfl, hbusy, hinv, hop, heid,
      ⟨a.target, List.mem_of_find?_eq_some hp, by simpa using List.find?_some hp⟩, rfl⟩
  · rename_i refusal inner h
    simp only [Option.some.injEq, Prod.mk.injEq] at he
    obtain ⟨rfl, rfl⟩ := he
    exact .inr ⟨refusal, rfl, by rw [admitChange_error h]⟩

/-- The claim of `download` in the world. -/
theorem claim_world {id : String} {c : Ctx} {e : Choice} {w w' : World}
    {r : Except Refusal (String × Nat)}
    (he : exec P t (.claimDownload id) c e w = some (r, w')) :
    (∃ inv, r = .ok (inv.eid, w.chans.length) ∧ w.inner.operationBusy = false ∧
      w.inner.inventory = some inv ∧
      w' = ({ w with
        inner := { w.inner with operation := some (Inner.newDownload id w.chans.length inv) }
        chans := w.chans ++ [[]] } : World).noteClaim
          (Inner.newDownload id w.chans.length inv) inv.eid) ∨
    (∃ refusal, r = .error refusal ∧ w' = w) := by
  simp only [exec] at he
  split at he
  · rename_i eid inner h
    simp only [Option.some.injEq, Prod.mk.injEq] at he
    obtain ⟨rfl, rfl⟩ := he
    obtain ⟨hbusy, inv, hinv, rfl, rfl⟩ := claimDownload_ok h
    exact .inl ⟨inv, rfl, hbusy, hinv, rfl⟩
  · rename_i refusal inner h
    simp only [Option.some.injEq, Prod.mk.injEq] at he
    obtain ⟨rfl, rfl⟩ := he
    exact .inr ⟨refusal, rfl, by rw [claimDownload_error h]⟩

/-- `on_progress` leaves a download unresolved, and leaves who it is alone. -/
theorem onProgress_eq (now : Nat) (step : String) (data : Value) (eid : String) (inner : Inner) :
    ∃ f : Operation → Operation, inner.onProgress t now step data eid = inner.updateOp f ∧
      (∀ op, (f op).id = op.id ∧ (f op).kind = op.kind ∧
        (f op).profilesBefore = op.profilesBefore ∧ (f op).target = op.target ∧
        (f op).receiptBefore = op.receiptBefore ∧ (f op).control = op.control) ∧
      ∀ op, op.state.resolved = false → (f op).state.resolved = false := by
  refine ⟨_, rfl, fun op => ?_, fun op hop => ?_⟩
  · dsimp only
    repeat' split
    all_goals simp
  · dsimp only
    repeat' split
    all_goals first
      | exact hop
      | rfl

/-- A recovered operation is the one that was journalled. -/
theorem putOperation_owns {w : World} {cs : List Ctx} {c : Ctx} {op : Operation} {left : List Nat}
    (hB : Base P w cs) (hc : c ∈ cs) (hok : c.allows (.putOperation op)) :
    (c.after (.putOperation op) () w).OwnsIn
      (({ w with inner := { w.inner with operation := some op } }.note fun h =>
        { h with asked := h.journalAsked }).noteFate .unknown left) := by
  obtain ⟨hb, hop, -, j, hj, hrec⟩ := hok
  obtain ⟨-, -, hfile⟩ := hB.boot.before c hc hb hop
  obtain ⟨op', eid, rfl, hrecoverable, -, hasked⟩ := hB.journal j (hfile j hj)
  rw [Operation.recovered_journal hrecoverable, Option.some.injEq] at hrec
  subst hrec
  refine ⟨_, op'.asked eid, rfl, rfl, rfl, hasked, ⟨rfl, ?_, fun _ => rfl⟩, ?_⟩
  · exact (Operation.recovering_profilesBefore op' op'.kind op'.id op'.target).symm
  · exact ⟨rfl, fun h => by cases h⟩

/-- The change of the slot's operation is the owner's. -/
theorem ownership_updateOp {w w' : World} {cs : List Ctx} {i : Nat} {c c' : Ctx}
    {f : Operation → Operation} (h : Ownership w cs) (hc : cs[i]? = some c)
    (hp : c.phase = .running ∨ c.phase = .settling) (ho : c.SameOwner c')
    (hslot' : w'.inner.operation = w.inner.operation.map f)
    (hasked' : w'.history.asked = w.history.asked) (hfate : w'.history.fate = w.history.fate)
    (hid : ∀ op, (f op).id = op.id ∧ (f op).kind = op.kind ∧
      (f op).profilesBefore = op.profilesBefore)
    (htarget : ∀ op, c.op = some (op.id, op.kind) → op.kind ≠ .download → (f op).target = op.target)
    (hres' : ∀ op, op.state.resolved = false → (f op).state.resolved = false) :
    Ownership w' (cs.set i c' ++ []) := by
  have howns : c.owns = true := Ctx.owns_iff.mpr (.inr hp)
  obtain ⟨op, asked, hslot, hres, hrest⟩ := h.owner c (List.mem_of_getElem? hc) howns
  have hin : c.OwnsIn w := ⟨op, asked, hslot, hres, hrest⟩
  refine h.keep hc howns (ho.owns.trans howns) (fun _ => ?_)
    (hin.updated (by rcases hp with hp | hp <;> simp [hp]) ho hslot' hasked' hfate hid htarget
      hres')
  rw [Inner.operationBusy, hslot]
  simp [hres]

/-- An answered write has a fate. -/
theorem HelperOutcome.fate_ne_unsent (o : HelperOutcome) : o.fate ≠ .unsent := by
  cases o with
  | failed kind message detail =>
    simp only [HelperOutcome.fate]
    split <;> simp
  | _ => simp [HelperOutcome.fate]

/-- A thread that is not waiting for the answer to its write only waits for a read. -/
theorem Ctx.answered_of_ne {c : Ctx} (h : c.phase ≠ .running) (o : HelperOutcome) :
    c.answered o = c := if_neg h

theorem World.noteAnswer_of_ne (w : World) {phase : Phase} (h : phase ≠ .running)
    (o : HelperOutcome) (left : List Nat) : w.noteAnswer phase o left = w := if_neg h

theorem ownership_answered {w : World} {cs : List Ctx} {i : Nat} {c : Ctx} (o : HelperOutcome)
    (left : List Nat) (hO : Ownership w cs) (hc : cs[i]? = some c) :
    Ownership (w.noteAnswer c.phase o left) (cs.set i (c.answered o) ++ []) := by
  by_cases hp : c.phase = .running
  · have howns : c.owns = true := Ctx.owns_iff.mpr (.inr (.inl hp))
    obtain ⟨op, asked, hslot, hres, hop, hasked, hm, -⟩ :=
      hO.owner c (List.mem_of_getElem? hc) howns
    rw [World.noteAnswer, if_pos hp, Ctx.answered, if_pos hp]
    refine hO.keep hc howns rfl (fun h => h) ⟨op, asked, hslot, hres, hop, hasked, hm, ?_⟩
    exact ⟨rfl, o.fate_ne_unsent⟩
  · rw [w.noteAnswer_of_ne hp, Ctx.answered_of_ne hp]
    exact hO.frame hc ⟨rfl, rfl, rfl, rfl⟩ ⟨rfl, rfl⟩ ⟨rfl, rfl, rfl⟩

/-- `download_confirm` leaves the operation unresolved, and leaves who it is alone. -/
theorem confirm_slot {w w' : World} {c : Ctx} {e : Choice} {id : Option String} {install : Bool}
    {nickname : Option String} {r : Except String Unit}
    (he : exec P t (.confirm id install nickname) c e w = some (r, w')) :
    w.Same w' .slot ∨ ∃ op op', w.inner.operation = some op ∧ op.state = .awaitingConfirmation ∧
      w'.inner.operation = some op' ∧ op'.state.resolved = false ∧ op'.id = op.id ∧
      op'.kind = op.kind ∧ op'.target = op.target ∧ op'.profilesBefore = op.profilesBefore ∧
      op'.receiptBefore = op.receiptBefore ∧ op'.control = op.control ∧
      w'.history.asked = w.history.asked := by
  simp only [exec] at he
  split at he
  · simp only [Option.some.injEq, Prod.mk.injEq] at he
    obtain ⟨-, rfl⟩ := he
    exact .inl ⟨rfl, rfl⟩
  · rename_i op hop
    obtain ⟨hslot, hconf⟩ := Option.filter_eq_some_iff.mp hop
    have hstate : op.state = .awaitingConfirmation := by
      simp only [Inner.confirmable, Bool.and_eq_true, beq_iff_eq] at hconf
      exact hconf.2
    refine .inr ⟨op, ?_⟩
    split at he
    · simp only [Option.some.injEq, Prod.mk.injEq] at he
      obtain ⟨-, rfl⟩ := he
      exact ⟨_, hslot, hstate, rfl, by simp [hstate, OpState.resolved], rfl, rfl, rfl, rfl,
        rfl, rfl, rfl⟩
    · simp only [Option.some.injEq, Prod.mk.injEq] at he
      obtain ⟨-, rfl⟩ := he
      exact ⟨_, hslot, hstate, rfl, rfl, rfl, rfl, rfl, rfl, rfl, rfl, rfl⟩

/-- The boot thread puts the operation of the journal into a slot that nobody owns. -/
theorem ownership_putOperation {w w' : World} {cs : List Ctx} {i : Nat} {c : Ctx} {op : Operation}
    {e : Choice} {r : Unit} (hB : Base P w cs) (hc : cs[i]? = some c)
    (hok : c.allows (.putOperation op)) (he : exec P t (.putOperation op) c e w = some (r, w')) :
    Ownership w' (cs.set i (c.after (.putOperation op) r w) ++
      (spawns c (.putOperation op) r).map Prod.snd) := by
  have hmem := List.mem_of_getElem? hc
  have hzero : cs.countP Ctx.owns = 0 := by
    rw [List.countP_eq_zero]
    intro x hx
    have hphase := ((hB.boot.before c hmem hok.1 hok.2.1).2.1 x hx).1
    simp [Ctx.owns, hphase]
  cases e <;> simp only [exec, reduceCtorEq, Option.some.injEq, Prod.mk.injEq] at he
  obtain ⟨-, rfl⟩ := he
  exact Ownership.claim hc hzero rfl (putOperation_owns hB hmem hok)

/-- A change that is admitted is owned by the thread that admitted it. -/
theorem ownership_admitChange {w w' : World} {cs : List Ctx} {i : Nat} {c : Ctx} {kind : Kind}
    {id handle : String} {revision : Nat} {e : Choice} {r : Except Refusal Admitted}
    (hB : Base P w cs) (hc : cs[i]? = some c)
    (hok : c.allows (.admitChange kind id handle revision))
    (he : exec P t (.admitChange kind id handle revision) c e w = some (r, w')) :
    Ownership w' (cs.set i (c.after (.admitChange kind id handle revision) r w) ++
      (spawns c (.admitChange kind id handle revision) r).map Prod.snd) := by
  have hO := hB.ownership
  rcases admit_world he with
    ⟨a, inv, rfl, hbusy, hinv, hop, -, ⟨p, hp, hph⟩, rfl⟩ | ⟨refusal, rfl, rfl⟩
  · refine Ownership.claim hc (hO.free hbusy) rfl
      ⟨a.op, a.op.asked a.eid, rfl, ?_, rfl, rfl, ?_, ?_⟩
    · rw [hop]; rfl
    · exact ⟨rfl, rfl, fun _ => rfl⟩
    · refine ⟨rfl, ?_, rfl, ?_, fun o ho => (Option.some.inj ho).symm⟩
      · rw [hop]
        refine ⟨hok.2.1, .inl ?_⟩
        have := hB.reading.handles inv hinv p hp
        rwa [hph] at this
      · simp [hop, Inner.newOperation]
  · exact hO.frame hc ⟨rfl, rfl, rfl, rfl⟩ ⟨rfl, rfl⟩ ⟨rfl, rfl, rfl⟩

/-- So is a download that is claimed. -/
theorem ownership_claimDownload {w w' : World} {cs : List Ctx} {i : Nat} {c : Ctx} {id : String}
    {e : Choice} {r : Except Refusal (String × Nat)} (hO : Ownership w cs) (hc : cs[i]? = some c)
    (hok : c.allows (.claimDownload id)) (he : exec P t (.claimDownload id) c e w = some (r, w')) :
    Ownership w' (cs.set i (c.after (.claimDownload id) r w) ++
      (spawns c (.claimDownload id) r).map Prod.snd) := by
  rcases claim_world he with ⟨inv, rfl, hbusy, -, rfl⟩ | ⟨refusal, rfl, rfl⟩
  · refine Ownership.claim hc (hO.free hbusy) rfl
      ⟨_, (Inner.newDownload id w.chans.length inv).asked inv.eid, rfl, rfl, rfl, rfl,
        ⟨rfl, rfl, fun _ => rfl⟩, ?_⟩
    refine ⟨rfl, ⟨hok.2, .inr ⟨rfl, rfl⟩⟩, rfl, by rintro ⟨⟩, fun o ho => ?_⟩
    have : c.admitted = none := by rw [hok.1]; rfl
    rw [show (c.after (.claimDownload id) (.ok (inv.eid, w.chans.length)) w).admitted = c.admitted
      from rfl, this] at ho
    cases ho
  · exact hO.frame hc ⟨rfl, rfl, rfl, rfl⟩ ⟨rfl, rfl⟩ ⟨rfl, rfl, rfl⟩

/-- `download_confirm` is another thread's, and the owner's operation stays as it was. -/
theorem ownership_confirm {w w' : World} {cs : List Ctx} {i : Nat} {c : Ctx} {id : Option String}
    {install : Bool} {nickname : Option String} {e : Choice} {r : Except String Unit}
    (hO : Ownership w cs) (hc : cs[i]? = some c)
    (he : exec P t (.confirm id install nickname) c e w = some (r, w')) :
    Ownership w' (cs.set i (c.after (.confirm id install nickname) r w) ++
      (spawns c (.confirm id install nickname) r).map Prod.snd) := by
  have hmem := List.mem_of_getElem? hc
  have hf := exec_same he .fate rfl
  rcases confirm_slot he with hs | ⟨op, op', hslot, hstate, hslot', hres', hid, hk, htg, hb,
    -, -, hasked'⟩
  · exact hO.frame hc ⟨rfl, rfl, rfl, rfl⟩ hs hf
  · have hin : ∀ x : Ctx, x.OwnsIn w → x.OwnsIn w' := by
      rintro x ⟨op₀, asked, hslot₀, hres, hop, hasked, hm, hstage⟩
      obtain rfl : op₀ = op := Option.some.inj (hslot₀.symm.trans hslot)
      refine ⟨op', asked, hslot', hres', by rw [hop, hid, hk], hasked'.trans hasked,
        ⟨hm.kind.trans hk.symm, hm.profiles.trans hb.symm, fun hne => ?_⟩, ?_⟩
      · rw [hk] at hne
        rw [htg, hm.target hne]
      · rw [hf.1]
        unfold Ctx.stage at hstage ⊢
        split at hstage
        · exact absurd hstate hstage.2.2.2.1
        · exact hstage
        · exact hstage
        · exact hstage.elim
    refine hO.update hc rfl (fun _ => ?_) (fun ho => ?_) (fun x hx => by cases hx)
      fun _ x _ _ => hin x
    · rw [Inner.operationBusy, hslot]
      simp [hstate, OpState.resolved]
    · exact hin c (hO.owner c hmem ho)

/-- A thread that starts the helper for its claim goes on to wait for the answer. -/
theorem ownership_startHelper {w w' : World} {cs : List Ctx} {i : Nat} {c : Ctx} {request : Request}
    {e : Choice} {r : Unit} (hO : Ownership w cs) (hc : cs[i]? = some c)
    (he : exec P t (.startHelper request) c e w = some (r, w')) :
    Ownership w' (cs.set i (c.after (.startHelper request) r w) ++
      (spawns c (.startHelper request) r).map Prod.snd) := by
  have hmem := List.mem_of_getElem? hc
  have hs := exec_same he .slot rfl
  have hf := exec_same he .fate rfl
  have hsame : ∀ {c' : Ctx}, c.SameOwner c' → Ownership w' (cs.set i c' ++ []) :=
    fun h => hO.frame hc h hs hf
  have hrun : c.phase = .claimed → Ownership w' (cs.set i { c with phase := .running } ++
    []) := by
    intro hp
    have howns : c.owns = true := Ctx.owns_iff.mpr (.inl hp)
    obtain ⟨op, asked, hslot, hres, hop, hasked, hm, hstage⟩ := hO.owner c hmem howns
    refine hO.keep hc howns rfl (fun hb => operationBusy_of_same hs ▸ hb)
      ⟨op, asked, hs.1.trans hslot, hres, hop, hs.2.trans hasked, hm, ?_⟩
    unfold Ctx.stage at hstage
    rw [hp] at hstage
    exact hf.1.trans hstage.1
  cases request with
  | inventory => exact hsame ⟨rfl, rfl, rfl, rfl⟩
  | notify _ _ => exact hsame ⟨rfl, rfl, rfl, rfl⟩
  | _ =>
    by_cases hp : c.phase = .claimed
    · simpa [hp, spawns] using hrun hp
    · refine hsame ?_
      simp [hp, Ctx.SameOwner]

/-- A thread that owns the operation hands it over to the thread that it starts for it; the others
that are started own nothing. -/
theorem ownership_spawn {w w' : World} {cs : List Ctx} {i : Nat} {c : Ctx} {b : Body} {e : Choice}
    {r : Unit} (hO : Ownership w cs) (hc : cs[i]? = some c) (hok : c.allows (.spawn b))
    (he : exec P t (.spawn b) c e w = some (r, w')) :
    Ownership w' (cs.set i (c.after (.spawn b) r w) ++ (spawns c (.spawn b) r).map Prod.snd) := by
  have hmem := List.mem_of_getElem? hc
  have hs := exec_same he .slot rfl
  have hf := exec_same he .fate rfl
  have hcarry : c.owns = true →
      Ownership w' (cs.set i { c with phase := .free, owes := false } ++ [c.child]) := by
    intro ho
    have hin := (hO.owner c hmem ho).of_same hs hf
    have hchild : c.SameOwner c.child := ⟨rfl, rfl, rfl, rfl⟩
    refine hO.update hc ?_ (fun hb => operationBusy_of_same hs ▸ hb) (fun h => by cases h)
      (fun x hx _ => ?_) fun hno => by rw [ho] at hno; cases hno
    · have hfree : ({ c with phase := .free, owes := false } : Ctx).owns = false := rfl
      simp [hfree, hchild.owns, ho]
    · rw [List.mem_singleton.mp hx]
      exact hin.of_sameOwner hchild
  cases b with
  | runSwitch _ _ => exact hcarry hok.1
  | verify _ _ => exact hcarry hok.1
  | runDownload _ _ => exact hcarry hok.1
  | settleDownload _ => exact hcarry hok.1
  | receiptWorker =>
    exact hO.update hc (by simp [spawns, Ctx.owns]) (fun hb => operationBusy_of_same hs ▸ hb)
      (fun ho => ((hO.owner c hmem ho).of_same hs hf).of_sameOwner ⟨rfl, rfl, rfl, rfl⟩)
      (fun x hx ho => by rw [List.mem_singleton.mp hx] at ho; cases ho)
      fun _ x _ _ hin => hin.of_same hs hf
  | detect =>
    exact hO.update hc (by simp [spawns, Ctx.owns]) (fun hb => operationBusy_of_same hs ▸ hb)
      (fun ho => ((hO.owner c hmem ho).of_same hs hf).of_sameOwner ⟨rfl, rfl, rfl, rfl⟩)
      (fun x hx ho => by rw [List.mem_singleton.mp hx] at ho; cases ho)
      fun _ x _ _ hin => hin.of_same hs hf
  | _ => exact hok.elim

/-- **Ownership holds**: whatever a thread does, every operation that is not over has one owner. -/
theorem ownership_act {β : Type} {w w' : World} {cs : List Ctx} {i : Nat} {c : Ctx} {a : Act β}
    {e : Choice} {r : β} (hB : Base P w cs) (hc : cs[i]? = some c) (hok : c.allows a)
    (he : exec P t a c e w = some (r, w')) :
    Ownership w' (cs.set i (c.after a r w) ++ (spawns c a r).map Prod.snd) := by
  have hO := hB.ownership
  have hframe : a.moves = false → a.touches .slot = false → a.touches .fate = false →
      Ownership w' (cs.set i (c.after a r w) ++ (spawns c a r).map Prod.snd) := by
    intro hm hs hf
    obtain ⟨hrole, hsp⟩ := after_role (c := c) (r := r) (w := w) hm
    rw [hsp]
    exact hO.frame hc (.of_role hrole) (exec_same he .slot hs) (exec_same he .fate hf)
  cases a with
  | putOperation op => exact ownership_putOperation hB hc hok he
  | admitChange kind id handle revision => exact ownership_admitChange hB hc hok he
  | claimDownload id => exact ownership_claimDownload hO hc hok he
  | helperAnswer =>
    cases e <;> simp only [exec, reduceCtorEq, Option.some.injEq, Prod.mk.injEq] at he
    obtain ⟨rfl, rfl⟩ := he
    exact ownership_answered _ _ hO hc
  | runEvent =>
    cases e <;> simp only [exec, reduceCtorEq, Option.some.injEq, Prod.mk.injEq] at he
    obtain ⟨rfl, rfl⟩ := he
    rename_i ev left
    cases ev with
    | done o => exact ownership_answered _ _ hO hc
    | _ => exact hO.frame hc ⟨rfl, rfl, rfl, rfl⟩ ⟨rfl, rfl⟩ ⟨rfl, rfl, rfl⟩
  | dropOperation =>
    simp only [exec, Option.some.injEq, Prod.mk.injEq] at he
    obtain ⟨-, rfl⟩ := he
    exact hO.release hc (Ctx.owns_iff.mpr (.inl hok)) rfl rfl
  | setOp state message =>
    simp only [exec, Option.some.injEq, Prod.mk.injEq] at he
    obtain ⟨-, rfl⟩ := he
    cases hs : state.resolved with
    | false =>
      refine ownership_updateOp hO hc (.inr hok.1) ?_ rfl rfl rfl (fun op => ⟨rfl, rfl, rfl⟩)
        (fun _ _ _ => rfl) fun _ _ => hs
      simp [Ctx.SameOwner, hs]
    | true =>
      refine hO.release hc (Ctx.owns_iff.mpr (.inr (.inr hok.1))) ?_ ?_
      · simp only [Ctx.after, hs, if_true, Ctx.publish, Ctx.owns]
        split <;> rfl
      · simp only [Inner.operationBusy, Inner.setOp, Inner.updateOp]
        cases w.inner.operation <;> simp [hs]
  | takeFound handle =>
    simp only [exec, Option.some.injEq, Prod.mk.injEq] at he
    obtain ⟨-, rfl⟩ := he
    obtain ⟨hp, -, id, hid⟩ := hok
    refine ownership_updateOp hO hc (.inr hp) ⟨rfl, rfl, rfl, rfl⟩ rfl rfl rfl
      (fun op => ⟨rfl, rfl, rfl⟩) (fun op hop hne => ?_) fun _ h => h
    rw [hid] at hop
    exact absurd (Prod.mk.inj (Option.some.inj hop)).2.symm hne
  | onProgress step data eid =>
    simp only [exec, Option.some.injEq, Prod.mk.injEq] at he
    obtain ⟨-, rfl⟩ := he
    obtain ⟨f, hf, hid, hres⟩ := onProgress_eq (t := t) w.now step data eid w.inner
    rw [hf]
    exact ownership_updateOp hO hc (.inl hok.2.2.1) ⟨rfl, rfl, rfl, rfl⟩ rfl rfl rfl
      (fun op => ⟨(hid op).1, (hid op).2.1, (hid op).2.2.1⟩)
      (fun op _ _ => (hid op).2.2.2.1) hres
  | downloadInstalled data =>
    simp only [exec, Option.some.injEq, Prod.mk.injEq] at he
    obtain ⟨-, rfl⟩ := he
    have hs := noteProduced_same { w with inner := w.inner.downloadInstalled data }
      (p := .slot) (by simp)
    have hf := noteProduced_same { w with inner := w.inner.downloadInstalled data }
      (p := .fate) (by simp)
    refine ownership_updateOp hO hc (.inr hok.1) ⟨rfl, rfl, rfl, rfl⟩ hs.1 hs.2 hf.1
      (fun op => ?_) (fun op _ _ => ?_) fun op _ => ?_
    all_goals
      dsimp only
      split <;> simp [OpState.resolved]
  | downloadBaseline before =>
    simp only [exec, Option.some.injEq, Prod.mk.injEq] at he
    obtain ⟨-, rfl⟩ := he
    have hs := noteProduced_same { w with inner := w.inner.downloadBaseline before }
      (p := .slot) (by simp)
    have hf := noteProduced_same { w with inner := w.inner.downloadBaseline before }
      (p := .fate) (by simp)
    exact ownership_updateOp hO hc (.inr hok.1) ⟨rfl, rfl, rfl, rfl⟩ hs.1 hs.2 hf.1
      (fun op => ⟨rfl, rfl, rfl⟩) (fun op _ _ => rfl) fun op h => h
  | confirm id install nickname => exact ownership_confirm hO hc he
  | startHelper request => exact ownership_startHelper hO hc he
  | journalExists | removeJournal =>
    have hs := exec_same he .slot rfl
    have hf := exec_same he .fate rfl
    have ho : c.owns = false := by
      rcases hok with h | ⟨h, -⟩ <;> simp [Ctx.owns, h]
    refine hO.bystander hc ho ?_ hs hf
    first
      | rfl
      | (cases r
         · rfl
         · exact ho)
  | spawn b => exact ownership_spawn hO hc hok he
  | serve | writeJournal _ | journalOperation =>
    exact hO.frame hc ⟨rfl, rfl, rfl, rfl⟩ (exec_same he .slot rfl) (exec_same he .fate rfl)
  | _ => exact hframe rfl rfl rfl

end OpenUI.Agent.Esim
