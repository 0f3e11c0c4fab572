import OpenUI.Proofs.Agent.Esim.Runs

/-!
# `OpenUI.Proofs.Agent.Esim.Journal`: the journal covers the operation in flight

`finish` publishes the verdict under the mutex and clears the journal afterwards, without it. A
new operation may be admitted and write its journal in between, and `clear_journal` then removes
the new operation's entry. `journal_covers` shows that nothing else loses an entry: in every run
in which no journal is written while another thread is between its verdict and the end of its
`clear_journal`, the operation in flight has its journal on disk.

* `Recorded` is the invariant: what the owner has recorded is on disk, and while a thread is
  clearing no owner has recorded anything.
* `journal_lost`: the run that loses the journal.
-/

set_option autoImplicit false

namespace OpenUI.Agent.Esim

open OpenUI.Json OpenUI.Text OpenUI.Concurrency

variable {P : Platform} {t : Timing}

/-- The helper run of the operation a thread owns has started. -/
def Ctx.started (c : Ctx) : Bool := c.phase == .running || c.phase == .settling

/-- While an operation of another kind than a rename is unresolved and its helper run has
started, the journal on disk names it. -/
def JournalCovers (w : World) (cs : List Ctx) : Prop :=
  ∀ op, w.inner.operation = some op → op.state.resolved = false → op.kind ≠ .nickname →
    (∃ c ∈ cs, c.started = true) → ∃ j, w.journalFile = some j ∧ j.get "id" = .str op.id

/-- The actions that write a journal entry. -/
def Act.records {β : Type} : Act β → Bool
  | .writeJournal _ | .journalOperation => true
  | _ => false

/-- No journal entry is written while another thread is between its verdict and the end of its
`clear_journal`. -/
def recordsAlone : Steps where
  act _ cs _ a _ := !a.records || cs.all (fun c => !c.clearing)
  outside _ _ := true

/-- What an owner has recorded is on disk, and nobody is about to clear it. -/
structure Recorded (w : World) (cs : List Ctx) : Prop where
  started : ∀ c ∈ cs, c.started = true → ¬ c.actsOn .nickname → c.recorded = true
  file : ∀ c ∈ cs, c.owns = true → c.recorded = true → ∀ id kind, c.op = some (id, kind) →
    ∃ j, w.journalFile = some j ∧ j.get "id" = .str id
  alone : ∀ c ∈ cs, c.clearing = true → ∀ x ∈ cs, x.owns = true → x.recorded = false

/-- By any other action a thread records nothing, and acts for the same operation. -/
theorem after_recorded {β : Type} {c : Ctx} {a : Act β} {r : β} {w : World}
    (hcl : a.claims = false) (ha : a.records = false) :
    (c.after a r w).recorded = c.recorded ∧ (c.after a r w).op = c.op := by
  by_cases hm : a.moves = false
  · have hrole := (after_role (c := c) (r := r) (w := w) hm).1
    exact ⟨congrArg Role.recorded hrole, congrArg Role.op hrole⟩
  · cases a with
    | startHelper request =>
      generalize hx : c.after (.startHelper request) r w = c'
      cases hx ▸ after_startHelper c request w <;> exact ⟨rfl, rfl⟩
    | helperAnswer => simp only [Ctx.after, Ctx.answered]; split <;> exact ⟨rfl, rfl⟩
    | runEvent =>
      cases r with
      | done o => simp only [Ctx.after, Ctx.answered]; split <;> exact ⟨rfl, rfl⟩
      | _ => exact ⟨rfl, rfl⟩
    | setOp _ _ => simp only [Ctx.after, Ctx.publish]; split <;> exact ⟨rfl, rfl⟩
    | journalExists => cases r <;> exact ⟨rfl, rfl⟩
    | spawn b => cases b <;> exact ⟨rfl, rfl⟩
    | serve | removeJournal | dropOperation => exact ⟨rfl, rfl⟩
    | writeJournal _ | journalOperation => cases ha
    | putOperation _ | admitChange _ _ _ _ | claimDownload _ => cases hcl
    | _ => exact absurd rfl hm

/-- A new thread that owns an operation has taken it over from the acting thread. -/
theorem spawns_owner {β : Type} {c : Ctx} {a : Act β} {r : β} (hok : c.allows a) {x : Ctx}
    (hx : x ∈ (spawns c a r).map Prod.snd) :
    x.phase = .free ∨ c.owns = true ∧ x.op = c.op ∧ x.phase = c.phase ∧
      x.recorded = c.recorded := by
  cases a with
  | spawn b =>
    cases b with
    | receiptWorker | detect => rw [List.mem_singleton.mp hx]; exact .inl rfl
    | runSwitch _ _ | verify _ _ | runDownload _ _ | settleDownload _ =>
      rw [List.mem_singleton.mp hx]
      exact .inr ⟨hok.1, rfl, rfl, rfl⟩
    | _ => exact hok.elim
  | _ => cases hx

/-- A helper run of anything but a rename starts only for a recorded operation. -/
theorem after_started {β : Type} {c : Ctx} {a : Act β} {r : β} {w : World} (hok : c.allows a)
    (hcl : a.claims = false) (hs : (c.after a r w).started = true) :
    c.started = true ∨ c.recorded = true ∨ c.actsOn .nickname := by
  have howns : (c.after a r w).owns = true := by
    rw [Ctx.owns, Bool.or_assoc, ← Ctx.started, hs, Bool.or_true]
  rcases Ctx.owns_iff.mp (after_owns hok hcl howns).1 with hp | hp | hp
  · -- Only the start of a helper run takes a claimed operation further.
    have hframe : a.moves = false → c.started = true ∨ c.recorded = true ∨ c.actsOn .nickname := by
      intro hm
      have hphase := congrArg Role.phase (after_role (c := c) (r := r) (w := w) hm).1
      rw [Ctx.started, show (c.after a r w).phase = c.phase from hphase, hp] at hs
      cases hs
    cases a with
    | startHelper request =>
      generalize hx : c.after (.startHelper request) r w = c' at hs
      cases hx ▸ after_startHelper c request w with
      | read | notify | rename _ _ => exact .inl hs
      | write hw _ =>
        cases request with
        | inventory | notify _ _ => cases hw
        | switch _ _ _ _ | delete _ _ => exact .inr (.inl hok.2.2.1)
        | nickname _ _ _ =>
          rcases hok.2 with h | h
          · exact .inr (.inr h.2)
          · exact absurd (hp.symm.trans h.1) (by simp)
        | download _ _ _ => exact .inr (.inl hok.2.2.1)
    | helperAnswer =>
      rw [Ctx.after, Ctx.answered_of_ne (by simp [hp]), Ctx.started, hp] at hs
      cases hs
    | runEvent => exact absurd (hp.symm.trans hok.2.2.1) (by simp)
    | setOp _ _ => exact absurd (hp.symm.trans hok.1) (by simp)
    | journalExists | removeJournal =>
      rcases hok with h | ⟨h, -⟩ <;> exact absurd (hp.symm.trans h) (by simp)
    | dropOperation => cases hs
    | spawn b =>
      cases b with
      | runSwitch _ _ | verify _ _ | runDownload _ _ | settleDownload _ => cases hs
      | _ => exact .inl hs
    | serve | writeJournal _ | journalOperation => exact .inl hs
    | putOperation _ | admitChange _ _ _ _ | claimDownload _ => cases hcl
    | _ => exact hframe rfl
  · exact .inl (by rw [Ctx.started, hp]; rfl)
  · exact .inl (by rw [Ctx.started, hp]; rfl)

/-- A thread that is clearing after a step was so before, or has just resolved its operation. -/
theorem after_clearing {β : Type} {c : Ctx} {a : Act β} {r : β} {w : World} (hok : c.allows a)
    (hx : (c.after a r w).clearing = true) :
    c.clearing = true ∨ c.owns = true ∧ spawns c a r = [] := by
  have hframe : a.moves = false → c.clearing = true ∨ c.owns = true ∧ spawns c a r = [] := by
    intro hm
    have hphase := congrArg Role.phase (after_role (c := c) (r := r) (w := w) hm).1
    rw [Ctx.clearing, show (c.after a r w).phase = c.phase from hphase] at hx
    exact .inl hx
  cases a with
  | startHelper request =>
    generalize hx' : c.after (.startHelper request) r w = c' at hx
    cases hx' ▸ after_startHelper c request w with
    | write _ _ => cases hx
    | _ => exact .inl hx
  | helperAnswer =>
    simp only [Ctx.after, Ctx.answered] at hx
    split at hx
    · cases hx
    · exact .inl hx
  | runEvent =>
    cases r with
    | done o =>
      simp only [Ctx.after, Ctx.answered] at hx
      split at hx
      · cases hx
      · exact .inl hx
    | _ => exact .inl hx
  | setOp _ _ => exact .inr ⟨Ctx.owns_iff.mpr (.inr (.inr hok.1)), rfl⟩
  | journalExists => cases r with
    | true => exact .inl hx
    | false => cases hx
  | putOperation _ | removeJournal | dropOperation => cases hx
  | admitChange _ _ _ _ => cases r with
    | ok _ => cases hx
    | error _ => exact .inl hx
  | claimDownload _ => cases r with
    | ok _ => cases hx
    | error _ => exact .inl hx
  | spawn b =>
    cases b with
    | runSwitch _ _ | verify _ _ | runDownload _ _ | settleDownload _ => cases hx
    | _ => exact .inl hx
  | serve | writeJournal _ | journalOperation => exact .inl hx
  | _ => exact hframe rfl

theorem Ctx.started_owns {c : Ctx} (h : c.started = true) : c.owns = true := by
  rw [Ctx.owns, Bool.or_assoc, ← Ctx.started, h, Bool.or_true]

/-- A step that writes no journal entry and claims nothing; it may remove the entry when no owner
has recorded anything. -/
theorem recorded_frame {β : Type} {w w' : World} {cs : List Ctx} {i : Nat} {c : Ctx} {a : Act β}
    {r : β} (hB : Base P w cs) (hJ : Recorded w cs) (hc : cs[i]? = some c) (hok : c.allows a)
    (hcl : a.claims = false) (ha : a.records = false)
    (hfile : w'.journalFile = w.journalFile ∨ ∀ x ∈ cs, x.owns = true → x.recorded = false) :
    Recorded w' (cs.set i (c.after a r w) ++ (spawns c a r).map Prod.snd) := by
  have hmem := List.mem_of_getElem? hc
  obtain ⟨hrec, hop⟩ := after_recorded (c := c) (r := r) (w := w) hcl ha
  -- Every owner after the step stands for one before it.
  have hold : ∀ x ∈ cs.set i (c.after a r w) ++ (spawns c a r).map Prod.snd, x.owns = true →
      ∃ y ∈ cs, y.owns = true ∧ y.op = x.op ∧ y.recorded = x.recorded := by
    intro x hx ho
    rcases Pool.mem_update hx with rfl | ⟨j, -, hxj⟩ | hx
    · exact ⟨c, hmem, (after_owns hok hcl ho).1, hop.symm, hrec.symm⟩
    · exact ⟨x, List.mem_of_getElem? hxj, ho, rfl, rfl⟩
    · rcases spawns_owner hok hx with h | ⟨hco, hxo, -, hxr⟩
      · rw [Ctx.owns, h] at ho
        cases ho
      · exact ⟨c, hmem, hco, hxo.symm, hxr.symm⟩
  refine ⟨fun x hx hs hn => ?_, fun x hx ho hr id kind hid => ?_, fun y hy hyc x hx ho => ?_⟩
  · rcases Pool.mem_update hx with rfl | ⟨j, -, hxj⟩ | hx
    · have hn' : ¬ c.actsOn .nickname := by rwa [Ctx.actsOn, hop] at hn
      rw [hrec]
      rcases after_started hok hcl hs with h | h | h
      · exact hJ.started c hmem h hn'
      · exact h
      · exact absurd h hn'
    · exact hJ.started x (List.mem_of_getElem? hxj) hs hn
    · rcases spawns_owner hok hx with h | ⟨-, hxo, hxp, hxr⟩
      · rw [Ctx.started, h] at hs
        cases hs
      · rw [Ctx.started, hxp] at hs
        rw [Ctx.actsOn, hxo] at hn
        rw [hxr]
        exact hJ.started c hmem hs hn
  · obtain ⟨y, hy, hyo, hyop, hyr⟩ := hold x hx ho
    rcases hfile with hfile | hnone
    · rw [hfile]
      exact hJ.file y hy hyo (hyr.trans hr) id kind (hyop.trans hid)
    · rw [← hyr, hnone y hy hyo] at hr
      cases hr
  · rcases Pool.mem_update hy with rfl | ⟨j, -, hyj⟩ | hy
    · rcases after_clearing hok hyc with h | ⟨hco, hsp⟩
      · obtain ⟨z, hz, hzo, -, hzr⟩ := hold x hx ho
        exact hzr ▸ hJ.alone c hmem h z hz hzo
      · rw [hsp] at hx
        rcases Pool.mem_update hx with rfl | ⟨j, hj, hxj⟩ | hx
        · exfalso
          rw [Ctx.clearing, beq_iff_eq] at hyc
          rw [Ctx.owns, hyc] at ho
          cases ho
        · rw [Pool.others_not hB.ownership.one hc hco hj hxj] at ho
          cases ho
        · cases hx
    · obtain ⟨z, hz, hzo, -, hzr⟩ := hold x hx ho
      exact hzr ▸ hJ.alone y (List.mem_of_getElem? hyj) hyc z hz hzo
    · rcases spawns_owner hok hy with h | ⟨hco, -, hyp, -⟩
      · rw [Ctx.clearing, h] at hyc
        cases hyc
      · rw [Ctx.clearing, hyp, beq_iff_eq] at hyc
        rw [Ctx.owns, hyc] at hco
        cases hco

/-- A thread takes the free slot, or starts over. -/
theorem Recorded.claim {w' : World} {cs : List Ctx} {i : Nat} {c' : Ctx}
    (hzero : cs.countP Ctx.owns = 0) (hstarted : c'.started = true → c'.recorded = true)
    (hfile : c'.recorded = true → ∀ id kind, c'.op = some (id, kind) →
      ∃ j, w'.journalFile = some j ∧ j.get "id" = .str id)
    (halone : c'.clearing = false ∧ (c'.recorded = true → ∀ x ∈ cs, x.clearing = false)) :
    Recorded w' (cs.set i c' ++ []) := by
  have hothers : ∀ x ∈ cs.set i c' ++ [], x.owns = true → x = c' := by
    intro x hx ho
    rcases Pool.mem_update hx with rfl | ⟨j, -, hxj⟩ | hx
    · rfl
    · rw [Pool.not_of_countP_eq_zero hzero (List.mem_of_getElem? hxj)] at ho
      cases ho
    · cases hx
  refine ⟨fun x hx hs _ => ?_, fun x hx ho hr => ?_, fun y hy hyc x hx ho => ?_⟩
  · obtain rfl := hothers x hx (Ctx.started_owns hs)
    exact hstarted hs
  · obtain rfl := hothers x hx ho
    exact hfile hr
  · obtain rfl := hothers x hx ho
    refine eq_false_of_ne_true fun hr => ?_
    rcases Pool.mem_update hy with rfl | ⟨j, -, hyj⟩ | hy
    · rw [halone.1] at hyc; cases hyc
    · rw [halone.2 hr y (List.mem_of_getElem? hyj)] at hyc; cases hyc
    · cases hy

/-- The owner of a claimed operation writes its journal entry, while nobody is clearing. -/
theorem Recorded.record {w w' : World} {cs : List Ctx} {i : Nat} {c : Ctx} {op : Operation}
    {ok : Bool} (hB : Base P w cs) (hc : cs[i]? = some c) (hp : c.phase = .claimed)
    (hop : c.op = some (op.id, op.kind)) (halone : ∀ x ∈ cs, x.clearing = false)
    (hfile : ok = true → w'.journalFile = some op.journal) :
    Recorded w' (cs.set i { c with recorded := ok } ++ []) := by
  have hothers : ∀ x ∈ cs.set i { c with recorded := ok } ++ [], x.owns = true →
      x = { c with recorded := ok } := by
    intro x hx ho
    rcases Pool.mem_update hx with rfl | ⟨j, hj, hxj⟩ | hx
    · rfl
    · rw [Pool.others_not hB.ownership.one hc (Ctx.owns_iff.mpr (.inl hp)) hj hxj] at ho
      cases ho
    · cases hx
  refine ⟨fun x hx hs _ => ?_, fun x hx ho hr id kind hid => ?_, fun y hy hyc _ _ _ => ?_⟩
  · obtain rfl := hothers x hx (Ctx.started_owns hs)
    rw [Ctx.started, hp] at hs
    cases hs
  · obtain rfl := hothers x hx ho
    refine ⟨op.journal, hfile hr, ?_⟩
    rw [Value.get_journal_id, ← (Prod.mk.inj (Option.some.inj (hop.symm.trans hid))).1]
  · rcases Pool.mem_update hy with rfl | ⟨j, -, hyj⟩ | hy
    · rw [Ctx.clearing, hp] at hyc; cases hyc
    · rw [halone y (List.mem_of_getElem? hyj)] at hyc; cases hyc
    · cases hy

theorem recorded_act {β : Type} {w w' : World} {cs : List Ctx} {i : Nat} {c : Ctx} {a : Act β}
    {e : Choice} {r : β} (hB : Base P w cs) (hJ : Recorded w cs) (hc : cs[i]? = some c)
    (hok : c.allows a) (hK : recordsAlone.act w cs c a e = true)
    (he : exec P t a c e w = some (r, w')) :
    Recorded w' (cs.set i (c.after a r w) ++ (spawns c a r).map Prod.snd) := by
  have hmem := List.mem_of_getElem? hc
  have hkeep : a.claims = false → a.records = false → a.touches .journal = false →
      Recorded w' (cs.set i (c.after a r w) ++ (spawns c a r).map Prod.snd) :=
    fun hcl ha hj => recorded_frame hB hJ hc hok hcl ha (.inl (exec_same he .journal hj).1)
  have halone : a.records = true → ∀ x ∈ cs, x.clearing = false := by
    intro ha
    simpa [recordsAlone, ha] using hK
  cases a with
  | putOperation op =>
    obtain ⟨-, hfree, hfile⟩ := hB.boot.before c hmem hok.1 hok.2.1
    obtain ⟨-, -, -, j, hj, hrec⟩ := hok
    obtain ⟨op', eid, rfl, hrecoverable, -, -⟩ := hB.journal j (hfile j hj)
    rw [Operation.recovered_journal hrecoverable, Option.some.injEq] at hrec
    have hjournal : w'.journalFile = some op'.journal :=
      (exec_same he .journal rfl).1.trans (hfile _ hj)
    refine .claim (List.countP_eq_zero.mpr fun x hx => ?_) (fun _ => rfl) (fun _ id kind hid => ?_)
      ⟨rfl, fun _ x hx => ?_⟩
    · simp [Ctx.owns, (hfree x hx).1]
    · refine ⟨op'.journal, hjournal, ?_⟩
      obtain rfl : op.id = id := (Prod.mk.inj (Option.some.inj hid)).1
      rw [Value.get_journal_id, ← hrec]
      rfl
    · simp [Ctx.clearing, (hfree x hx).1]
  | admitChange kind id handle revision =>
    rcases admit_world he with ⟨a, inv, rfl, hbusy, -⟩ | ⟨refusal, rfl, rfl⟩
    · have hrec : (c.after (.admitChange kind id handle revision) (.ok a) w).recorded = false := by
        rw [hok.1]; rfl
      exact .claim (hB.ownership.free hbusy) (fun h => by cases h) (by rw [hrec]; exact by simp)
        ⟨rfl, by rw [hrec]; exact by simp⟩
    · exact (Pool.set_self hc).symm ▸ hJ
  | claimDownload id =>
    rcases claim_world he with ⟨inv, rfl, hbusy, -⟩ | ⟨refusal, rfl, rfl⟩
    · have hrec : (c.after (.claimDownload id) (.ok (inv.eid, w.chans.length)) w).recorded
          = false := by
        rw [hok.1]; rfl
      exact .claim (hB.ownership.free hbusy) (fun h => by cases h) (by rw [hrec]; exact by simp)
        ⟨rfl, by rw [hrec]; exact by simp⟩
    · exact (Pool.set_self hc).symm ▸ hJ
  | writeJournal op =>
    obtain ⟨op', -, -, -, hop, -, -, -, hadm⟩ := hB.ownership.claimed hmem hok.1
    obtain rfl := hadm op hok.2.1
    cases e <;> simp only [exec, reduceCtorEq, Option.some.injEq, Prod.mk.injEq] at he
    obtain ⟨rfl, rfl⟩ := he
    rename_i io
    refine .record hB hc hok.1 hop (halone rfl) fun h => ?_
    cases io with
    | done => rfl
    | failed _ | unsynced _ => cases h
  | journalOperation =>
    obtain ⟨op, -, hslot, -, hop, -⟩ := hB.ownership.claimed hmem hok.1
    cases e <;> simp only [exec, reduceCtorEq, hslot, Option.some.injEq, Prod.mk.injEq] at he
    obtain ⟨rfl, rfl⟩ := he
    rename_i io
    refine .record hB hc hok.1 hop (halone rfl) fun h => ?_
    cases io with
    | done => rfl
    | failed _ | unsynced _ => cases h
  | removeJournal =>
    refine recorded_frame hB hJ hc hok rfl rfl (.inr fun x hx ho => ?_)
    rcases hok with hp | ⟨-, hb, hop⟩
    · exact hJ.alone c hmem (by rw [Ctx.clearing, hp]; rfl) x hx ho
    · rw [Ctx.owns, ((hB.boot.before c hmem hb hop).2.1 x hx).1] at ho
      cases ho
  | _ => exact hkeep rfl rfl rfl

theorem recorded_outside {w : World} {cs : List Ctx} {x : Outside}
    {o : Occurrence Ctx World Body} (hJ : Recorded w cs) (ho : occur x w = some o) :
    Recorded o.world ((if o.kill then [] else cs) ++ o.starts.map Prod.snd) := by
  rcases occur_cases ho with ⟨d, rfl⟩ | ⟨r, -, rfl⟩ | ⟨salt, readable, -, -, rfl⟩
  · rw [List.map_nil, List.append_nil]
    exact ⟨hJ.started, hJ.file, hJ.alone⟩
  · have hold : ∀ x ∈ cs ++ [Ctx.newClient], x ∈ cs ∨ x.phase = .free := by
      intro x hx
      rcases List.mem_append.mp hx with h | h
      · exact .inl h
      · rw [List.mem_singleton.mp h]
        exact .inr rfl
    refine ⟨fun x hx hs => ?_, fun x hx ho => ?_, fun y hy hyc x hx ho => ?_⟩
    · rcases hold x hx with h | h
      · exact hJ.started x h hs
      · rw [Ctx.started, h] at hs; cases hs
    · rcases hold x hx with h | h
      · exact hJ.file x h ho
      · rw [Ctx.owns, h] at ho; cases ho
    · rcases hold x hx with h | h
      · rcases hold y hy with h' | h'
        · exact hJ.alone y h' hyc x h ho
        · rw [Ctx.clearing, h'] at hyc; cases hyc
      · rw [Ctx.owns, h] at ho; cases ho
  · have hboot : ∀ x ∈ ([] ++ [Ctx.boot] : List Ctx), x.phase = .free := by
      intro x hx
      rw [List.mem_singleton.mp hx]
      rfl
    refine ⟨fun x hx hs => ?_, fun x hx ho => ?_, fun _ _ _ x hx ho => ?_⟩
    · rw [Ctx.started, hboot x hx] at hs; cases hs
    · rw [Ctx.owns, hboot x hx] at ho; cases ho
    · rw [Ctx.owns, hboot x hx] at ho; cases ho

/-- **The journal covers the operation in flight** in every run in which no journal entry is
written while another thread is between its verdict and the end of its `clear_journal`. -/
theorem journal_covers {s : AgentState} (h : Reaches P t recordsAlone s) :
    JournalCovers s.world s.ctxs := by
  have hnone : ∀ {p : Ctx → Prop}, ∀ c ∈ ([] : List Ctx), p c :=
    fun c hc => absurd hc List.not_mem_nil
  have hJ : Recorded s.world s.ctxs :=
    run_invariant (fun hB hJ hc hok hK he => recorded_act hB hJ hc hok hK he)
      (fun _ hJ _ ho => recorded_outside hJ ho) ⟨hnone, hnone, hnone⟩ h
  rintro op hop - hkind ⟨c, hc, hs⟩
  have ho := Ctx.started_owns hs
  obtain ⟨op', -, hslot, -, hid, -⟩ := (base_run h).1.ownership.owner c hc ho
  obtain rfl : op' = op := Option.some.inj (hslot.symm.trans hop)
  refine hJ.file c hc ho (hJ.started c hc hs fun hnamed => ?_) op'.id op'.kind hid
  obtain ⟨id, hn⟩ := hnamed
  rw [hid] at hn
  exact hkind (Prod.mk.inj (Option.some.inj hn)).2

/-- Thread `3` has been told that the card refuses the enable. -/
def refusedTurns : List Turn :=
  switchTurns (.enable (sampleChange "enable-01" "8988")) (.failed "refused" "refused" .null)

theorem journal_covers_sample : ∃ s, Reaches samplePlatform {} recordsAlone s ∧
    s.world.inner.operationBusy = true ∧ (∃ c ∈ s.ctxs, c.started = true) ∧
    JournalCovers s.world s.ctxs := by
  obtain ⟨s, hs, hcheck⟩ := sample_run recordsAlone refusedTurns
    (fun s => s.world.inner.operationBusy && s.ctxs.any Ctx.started) (by decide +kernel)
  rw [Bool.and_eq_true, List.any_eq_true] at hcheck
  exact ⟨s, hs, hcheck.1, hcheck.2, journal_covers hs⟩

/-- Thread `3` publishes "refused". Before it clears the journal, thread `4` admits and records
another change, and thread `5` asks the helper for it. -/
def overlapTurns : List Turn :=
  refusedTurns ++ turns 3 1
    ++ .outside (.request (.enable (sampleChange "enable-02" "8989"))) :: turns 4 1 ++ fileDone 4
    ++ turns 4 3 ++ turns 5 2 ++ turns 3 2 ++ fileDone 3

/-- Finishing one change removes the journal entry of the next one. -/
theorem journal_lost :
    ¬ ∀ (P : Platform) (t : Timing) (s : AgentState), Reaches P t .any s →
      JournalCovers s.world s.ctxs := by
  intro hall
  obtain ⟨s, hs, hcheck⟩ := sample_run .any overlapTurns
    (fun s => s.world.inner.operation.any (fun op => !op.state.resolved && op.kind == .enable)
      && s.ctxs.any Ctx.started && s.world.journalFile.isNone) (by decide +kernel)
  simp only [Bool.and_eq_true, Option.any_eq_true, Bool.not_eq_true', beq_iff_eq, List.any_eq_true,
    Option.isNone_iff_eq_none] at hcheck
  obtain ⟨⟨⟨op, hop, hres, hkind⟩, hstarted⟩, hnone⟩ := hcheck
  obtain ⟨j, hj, -⟩ := hall _ _ s hs op hop hres (by rw [hkind]; exact by simp) hstarted
  rw [hnone] at hj
  cases hj

end OpenUI.Agent.Esim
