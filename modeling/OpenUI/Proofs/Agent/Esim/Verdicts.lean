import OpenUI.Proofs.Agent.Esim.Runs

/-!
# `OpenUI.Proofs.Agent.Esim.Verdicts`: the grounds of a verdict

`Asked.shownBy` and `Asked.refutedBy` say what an inventory shows of a requested change. The
evidence a thread goes by is the inventory in memory, and that is one of the reads that began
after the answer to the write, so every verdict has the grounds its rule (`Ctx.mayPublish`) asks
for. `Grounded` is that invariant; what is asked of the card an inventory is from is left open.
-/

set_option autoImplicit false

namespace OpenUI.Agent.Esim

open OpenUI.Json OpenUI.Text OpenUI.Concurrency

variable {P : Platform} {t : Timing}

/-! ### What an inventory shows -/

/-- The inventory shows the requested change. A rename is not read back. -/
def Asked.shownBy (asked : Asked) (inv : Inventory) : Bool :=
  match asked.kind with
  | .enable => (inv.find asked.target).any (·.state == "enabled")
  | .disable => (inv.find asked.target).any (·.state == "disabled")
  | .delete => (inv.find asked.target).isNone
  | .download => inv.profiles.any (fun p => !asked.profilesBefore.contains p.handle)
  | .nickname => false

/-- The inventory shows that the requested change was not applied. -/
def Asked.refutedBy (asked : Asked) (inv : Inventory) : Bool :=
  match asked.kind with
  | .enable => (inv.find asked.target).any (·.state != "enabled")
  | .disable => (inv.find asked.target).any (·.state != "disabled")
  | .delete => (inv.find asked.target).isSome
  | .download => inv.profiles.all (fun p => asked.profilesBefore.contains p.handle)
  | .nickname => false

/-- What a requirement on cards allows as evidence: an inventory among the reads since the
answer shows it. -/
def Evidence.GroundedIn (card : Asked → Inventory → Prop) (asked : Asked)
    (reads : List Inventory) : Evidence → Prop
  | .applied => ∃ inv ∈ reads, card asked inv ∧ asked.shownBy inv = true
  | .notApplied => ∃ inv ∈ reads, asked.refutedBy inv = true
  | .none | .gone => True

/-- The grounds of a verdict. -/
def History.Supports (h : History) (card : Asked → Inventory → Prop) (asked : Asked) :
    OpState → Prop
  | .succeeded => (∃ inv ∈ h.reads, card asked inv ∧ asked.shownBy inv = true) ∨
    asked.kind = .nickname ∧ h.fate = .applied
  | .failed | .refused | .busy => h.fate.isOpen = false ∨
    (∃ inv ∈ h.reads, asked.refutedBy inv = true) ∨ asked.kind = .nickname ∧ h.fate = .garbled
  | .cancelled => h.fate.isOpen = false
  | _ => True

theorem Evidence.GroundedIn.mono {card : Asked → Inventory → Prop} {asked : Asked}
    {reads reads' : List Inventory} {e : Evidence} (h : e.GroundedIn card asked reads)
    (hsub : ∀ inv ∈ reads, inv ∈ reads') : e.GroundedIn card asked reads' := by
  cases e with
  | applied => obtain ⟨inv, hinv, hs⟩ := h; exact ⟨inv, hsub inv hinv, hs⟩
  | notApplied => obtain ⟨inv, hinv, hs⟩ := h; exact ⟨inv, hsub inv hinv, hs⟩
  | none => trivial
  | gone => trivial

theorem History.Supports.mono {h h' : History} {card : Asked → Inventory → Prop} {asked : Asked}
    {state : OpState} (hs : h.Supports card asked state) (hfate : h'.fate = h.fate)
    (hsub : ∀ inv ∈ h.reads, inv ∈ h'.reads) : h'.Supports card asked state := by
  have hshown : ∀ {p : Inventory → Prop}, (∃ inv ∈ h.reads, p inv) → ∃ inv ∈ h'.reads, p inv :=
    fun h => h.imp fun inv hinv => ⟨hsub inv hinv.1, hinv.2⟩
  cases state with
  | succeeded => exact hs.imp hshown fun h => ⟨h.1, hfate.trans h.2⟩
  | failed | refused | busy =>
    exact hs.imp (hfate ▸ ·) (Or.imp hshown fun h => ⟨h.1, hfate.trans h.2⟩)
  | cancelled => exact (congrArg Fate.isOpen hfate).trans hs
  | _ => trivial

/-- An unresolved operation has no verdict to support. -/
theorem History.supports_of_unresolved (h : History) (card : Asked → Inventory → Prop)
    (asked : Asked) {state : OpState} (hres : state.resolved = false) :
    h.Supports card asked state := by
  cases state <;> first
    | exact True.intro
    | cases hres

/-! ### The invariant -/

/-- The evidence of an owner, and the verdict in the slot, have their grounds. -/
structure Grounded (card : Asked → Inventory → Prop) (w : World) (cs : List Ctx) : Prop where
  seen : ∀ c ∈ cs, c.owns = true → c.evidence ≠ .none → c.phase = .settling ∧
    ∀ asked, w.history.asked = some asked → c.evidence.GroundedIn card asked w.history.reads
  verdict : ∀ op, w.inner.operation = some op → ∃ asked, w.history.asked = some asked ∧
    asked.Matches op ∧ w.history.Supports card asked op.state

/-- The actions that look at the card for the operation. -/
def Act.judges {β : Type} : Act β → Bool
  | .examine | .findInstalled => true
  | _ => false

/-- Every other action leaves the evidence alone, except where a recovered operation starts. -/
theorem after_evidence {β : Type} {c : Ctx} {a : Act β} {r : β} {w : World}
    (ha : a.judges = false) (hcl : a.isPut = false) :
    (c.after a r w).evidence = c.evidence := by
  by_cases hf : a.finds = false
  · exact congrArg Findings.evidence (after_findings hf)
  · cases a with
    | startHelper request =>
      generalize hx : c.after (.startHelper request) r w = c'
      cases hx ▸ after_startHelper c request w <;> rfl
    | helperAnswer => simp only [Ctx.after, Ctx.answered]; split <;> rfl
    | runEvent =>
      cases r with
      | done o => simp only [Ctx.after, Ctx.answered]; split <;> rfl
      | _ => rfl
    | setOp _ _ => simp only [Ctx.after, Ctx.publish]; split <;> rfl
    | spawn b => cases b <;> rfl
    | examine | findInstalled => cases ha
    | putOperation _ => cases hcl
    | readJournal | removeJournal | absorbRead _ _ | newReceipts | listedReceipts
    | pushReceipts _ => rfl
    | _ => exact absurd rfl hf

/-- New threads have looked at nothing. -/
theorem spawns_evidence {β : Type} {c : Ctx} {a : Act β} {r : β} {x : Ctx}
    (hx : x ∈ (spawns c a r).map Prod.snd) : x.evidence = .none := by
  cases a with
  | spawn b => cases b <;> rw [List.mem_singleton.mp hx] <;> rfl
  | _ => cases hx

/-- `verify`'s conclusion from the target's state is what the inventory shows. -/
theorem ofTarget_shows {asked : Asked} (inv : Inventory) (hk : asked.kind.isSwitch = true) :
    (Evidence.ofTarget asked.kind ((inv.find asked.target).map (·.state)) = .applied →
      asked.shownBy inv = true) ∧
    (Evidence.ofTarget asked.kind ((inv.find asked.target).map (·.state)) = .notApplied →
      asked.refutedBy inv = true) := by
  unfold Asked.shownBy Asked.refutedBy
  cases hkind : asked.kind <;> rw [hkind] at hk <;>
    cases hfind : inv.find asked.target <;> simp [Evidence.ofTarget, Kind.isSwitch] at hk ⊢

/-- What the owner sees when it looks at the card: its operation, as it was asked for, and an
inventory read since the answer. -/
theorem Base.seen {w : World} {cs : List Ctx} {c : Ctx} (hB : Base P w cs) (hc : c ∈ cs)
    (hp : c.phase = .settling) (hread : c.readOk = true) :
    ∃ op asked inv, w.inner.operation = some op ∧ w.history.asked = some asked ∧
      c.op = some (op.id, op.kind) ∧ asked.Matches op ∧ w.inner.inventory = some inv ∧
      inv ∈ w.history.reads := by
  have ho : c.owns = true := Ctx.owns_iff.mpr (.inr (.inr hp))
  obtain ⟨op, asked, hslot, -, hop, hasked, hm, -⟩ := hB.ownership.owner c hc ho
  obtain ⟨-, hsome, hreads⟩ := hB.reading.known c hc ho hread
  obtain ⟨inv, hinv⟩ := Option.isSome_iff_exists.mp hsome
  exact ⟨op, asked, inv, hslot, hasked, hop, hm, hinv, hB.reading.last inv hinv hreads⟩

/-- The evidence of a look at the card. -/
theorem examine_grounded {w : World} {cs : List Ctx} {c : Ctx}
    {card : Asked → Inventory → Prop} (hB : Base P w cs) (hc : c ∈ cs)
    (hok : c.allows .examine)
    (hcard : ∀ asked inv, w.history.asked = some asked → w.inner.inventory = some inv →
      asked.shownBy inv = true → card asked inv) :
    ∀ asked, w.history.asked = some asked →
      (c.after .examine w.inner.examine w).evidence.GroundedIn card asked w.history.reads := by
  obtain ⟨hp, hread, kind, hk, id, hid⟩ := hok
  obtain ⟨op, asked, inv, hslot, hasked, hop, hm, hinv, hmem⟩ := hB.seen hc hp hread
  have hkind : kind = asked.kind := by
    rw [hid] at hop
    exact (Prod.mk.inj (Option.some.inj hop)).2.trans hm.kind.symm
  subst hkind
  have htarget : asked.target = op.target := hm.target fun h => by
    rw [← hm.kind] at h
    rw [h] at hk
    cases hk
  intro asked' h'
  obtain rfl : asked = asked' := Option.some.inj (hasked.symm.trans h')
  have hevidence : (c.after .examine w.inner.examine w).evidence
      = .ofTarget asked.kind ((inv.find asked.target).map (·.state)) := by
    simp only [Ctx.after, hid, Inner.examine, hslot, hinv, htarget]
  obtain ⟨hshown, hrefuted⟩ := ofTarget_shows inv hk
  rw [hevidence]
  cases he : Evidence.ofTarget asked.kind ((inv.find asked.target).map (·.state)) with
  | applied =>
    exact ⟨inv, hmem, hcard asked inv hasked hinv (hshown he), hshown he⟩
  | notApplied => exact ⟨inv, hmem, hrefuted he⟩
  | none => trivial
  | gone => trivial

/-- The evidence of a look for the installed profile. -/
theorem findInstalled_grounded {w : World} {cs : List Ctx} {c : Ctx}
    {card : Asked → Inventory → Prop} (hB : Base P w cs) (hc : c ∈ cs)
    (hok : c.allows .findInstalled)
    (hcard : ∀ asked inv, w.history.asked = some asked → w.inner.inventory = some inv →
      asked.shownBy inv = true → card asked inv) :
    ∀ asked, w.history.asked = some asked →
      (c.after .findInstalled w.inner.findInstalled w).evidence.GroundedIn card asked
        w.history.reads := by
  obtain ⟨hp, hread, id, hid⟩ := hok
  obtain ⟨op, asked, inv, hslot, hasked, hop, hm, hinv, hmem⟩ := hB.seen hc hp hread
  have hkind : asked.kind = .download := by
    rw [hid] at hop
    exact hm.kind.trans (Prod.mk.inj (Option.some.inj hop)).2.symm
  intro asked' h'
  obtain rfl : asked = asked' := Option.some.inj (hasked.symm.trans h')
  cases hfind : inv.profiles.find? (fun p => !op.profilesBefore.contains p.handle) with
  | some p =>
    have hshown : asked.shownBy inv = true := by
      rw [Asked.shownBy, hkind, hm.profiles]
      exact List.any_eq_true.mpr ⟨p, List.mem_of_find?_eq_some hfind,
        by simpa using List.find?_some hfind⟩
    simp only [Ctx.after, Inner.findInstalled, hslot, hinv, hfind, Option.map_some]
    exact ⟨inv, hmem, hcard asked inv hasked hinv hshown, hshown⟩
  | none =>
    have hrefuted : asked.refutedBy inv = true := by
      rw [Asked.refutedBy, hkind, hm.profiles]
      exact List.all_eq_true.mpr fun p hp => by simpa using List.find?_eq_none.mp hfind p hp
    simp only [Ctx.after, Inner.findInstalled, hslot, hinv, hfind, Option.map_none]
    exact ⟨inv, hmem, hrefuted⟩

/-- Who owns the operation after a step finds it unresolved, so there is no verdict to support. -/
theorem Base.verdict_of_owner {w : World} {cs : List Ctx} {c : Ctx} (hB : Base P w cs)
    (hc : c ∈ cs) (ho : c.owns = true) (card : Asked → Inventory → Prop) {op : Operation}
    (hop : w.inner.operation = some op) : ∃ asked, w.history.asked = some asked ∧
      asked.Matches op ∧ w.history.Supports card asked op.state := by
  obtain ⟨op', asked, hslot, hres, -, hasked, hm, -⟩ := hB.ownership.owner c hc ho
  obtain rfl : op' = op := Option.some.inj (hslot.symm.trans hop)
  exact ⟨asked, hasked, hm, w.history.supports_of_unresolved card asked hres⟩

/-- A new operation has no evidence and no verdict. -/
theorem Grounded.claim {card : Asked → Inventory → Prop} {w' : World} {cs : List Ctx} {i : Nat}
    {c c' : Ctx} (hc : cs[i]? = some c) (hzero : cs.countP Ctx.owns = 0)
    (hB' : Base P w' (cs.set i c' ++ [])) (ho : c'.owns = true) (hnone : c'.evidence = .none) :
    Grounded card w' (cs.set i c' ++ []) := by
  refine ⟨fun x hx ho he => ?_, fun op hop => hB'.verdict_of_owner (Pool.self_mem hc) ho card hop⟩
  rcases Pool.mem_update hx with rfl | ⟨j, -, hxj⟩ | hx
  · exact absurd hnone he
  · rw [Pool.not_of_countP_eq_zero hzero (List.mem_of_getElem? hxj)] at ho
    cases ho
  · cases hx

/-- A verdict is published with the grounds its rule asks for. -/
theorem supports_of_mayPublish {card : Asked → Inventory → Prop} {w : World} {cs : List Ctx}
    {c : Ctx} (hB : Base P w cs) (hG : Grounded card w cs) (hc : c ∈ cs)
    (hp : c.phase = .settling) {state : OpState} (hv : c.mayPublish state) {asked : Asked}
    (hasked : w.history.asked = some asked) : w.history.Supports card asked state := by
  have ho : c.owns = true := Ctx.owns_iff.mpr (.inr (.inr hp))
  have hfate := (hB.ownership.fate_of_settling hc hp).1
  obtain ⟨op, asked', -, -, hop, hasked', hm, -⟩ := hB.ownership.owner c hc ho
  obtain rfl : asked' = asked := Option.some.inj (hasked'.symm.trans hasked)
  have hkind : ∀ kind, c.actsOn kind → asked'.kind = kind := by
    rintro kind ⟨id, hid⟩
    rw [hid] at hop
    exact hm.kind.trans (Prod.mk.inj (Option.some.inj hop)).2.symm
  have hseen : ∀ e, c.evidence = e → e ≠ .none → e.GroundedIn card asked' w.history.reads := by
    rintro e rfl he
    exact (hG.seen c hc ho he).2 asked' hasked
  cases state with
  | succeeded =>
    rcases hv with he | ⟨hn, hf⟩
    · exact .inl (hseen _ he (by simp))
    · exact .inr ⟨hkind _ hn, hfate.trans hf⟩
  | failed | refused | busy =>
    rcases hv with hf | he | ⟨hn, hf⟩
    · exact .inl (hfate ▸ hf)
    · exact .inr (.inl (hseen _ he (by simp)))
    · exact .inr (.inr ⟨hkind _ hn, hfate.trans hf⟩)
  | cancelled => exact (congrArg Fate.isOpen hfate).trans hv
  | _ => trivial

/-- A step of an operation that goes on: what was asked stays, the reads are only added to. -/
theorem Grounded.step {card : Asked → Inventory → Prop} {w w' : World} {cs new : List Ctx}
    {i : Nat} {c' : Ctx} (hG : Grounded card w cs)
    (hasked : w'.history.asked = w.history.asked)
    (hreads : ∀ inv ∈ w.history.reads, inv ∈ w'.history.reads)
    (hme : c'.owns = true → c'.evidence ≠ .none → c'.phase = .settling ∧
      ∀ asked, w.history.asked = some asked → c'.evidence.GroundedIn card asked w.history.reads)
    (hnew : ∀ x ∈ new, x.evidence = .none)
    (hverdict : ∀ op, w'.inner.operation = some op → ∃ asked, w'.history.asked = some asked ∧
      asked.Matches op ∧ w'.history.Supports card asked op.state) :
    Grounded card w' (cs.set i c' ++ new) := by
  refine ⟨fun x hx ho he => ?_, hverdict⟩
  have hold : x.phase = .settling ∧ ∀ asked, w.history.asked = some asked →
      x.evidence.GroundedIn card asked w.history.reads := by
    rcases Pool.mem_update hx with rfl | ⟨j, -, hxj⟩ | hx
    · exact hme ho he
    · exact hG.seen x (List.mem_of_getElem? hxj) ho he
    · exact absurd (hnew x hx) he
  exact ⟨hold.1, fun asked ha => (hold.2 asked (hasked ▸ ha)).mono hreads⟩

/-- The acting thread's evidence, where it neither looks at the card nor recovers. -/
theorem Grounded.seen_after {card : Asked → Inventory → Prop} {β : Type} {w : World}
    {cs : List Ctx} {c : Ctx} {a : Act β} {r : β} (hG : Grounded card w cs) (hc : c ∈ cs)
    (hok : c.allows a) (hcl : a.claims = false) (hj : a.judges = false)
    (ho : (c.after a r w).owns = true) (hev : (c.after a r w).evidence ≠ .none) :
    (c.after a r w).phase = .settling ∧ ∀ asked, w.history.asked = some asked →
      (c.after a r w).evidence.GroundedIn card asked w.history.reads := by
  have hput : a.isPut = false := by
    cases a with
    | putOperation _ => cases hcl
    | _ => rfl
  rw [after_evidence hj hput] at hev ⊢
  obtain ⟨hco, hphase⟩ := after_owns hok hcl ho
  obtain ⟨hp, hseen⟩ := hG.seen c hc hco hev
  exact ⟨(hphase.resolve_right fun h => h hp).trans hp, hseen⟩

/-- The answer to a write leaves an owner that has not looked at the card yet. -/
theorem grounded_answer {card : Asked → Inventory → Prop} {β : Type} {w w' : World}
    {cs : List Ctx} {i : Nat} {c : Ctx} {a : Act β} {e : Choice} {r : β} (hB : Base P w cs)
    (hG : Grounded card w cs) (hc : cs[i]? = some c) (hok : c.allows a)
    (he : exec P t a c e w = some (r, w')) (hans : a.answers = true) :
    Grounded card w' (cs.set i (c.after a r w) ++ (spawns c a r).map Prod.snd) := by
  have hmem := List.mem_of_getElem? hc
  have hB' := base_act hB hc hok he
  obtain ⟨hcl, hj, hput⟩ : a.claims = false ∧ a.judges = false ∧ a.isPut = false := by
    cases a with
    | helperAnswer | runEvent => exact ⟨rfl, rfl, rfl⟩
    | _ => cases hans
  by_cases hp : c.phase = .running
  · have ho : c.owns = true := Ctx.owns_iff.mpr (.inr (.inl hp))
    have ho' : (c.after a r w).owns = true := by
      cases a with
      | helperAnswer => simp [Ctx.answered, hp, Ctx.owns]
      | runEvent =>
        cases r with
        | done o => simp [Ctx.answered, hp, Ctx.owns]
        | _ => exact ho
      | _ => cases hans
    have hnone : (c.after a r w).evidence = .none := by
      rw [after_evidence hj hput]
      by_contra hev
      exact absurd (hp.symm.trans (hG.seen c hmem ho hev).1) (by simp)
    refine ⟨fun x hx hxo hev => ?_, fun op hop =>
      hB'.verdict_of_owner (Pool.self_mem hc) ho' card hop⟩
    rcases Pool.mem_update hx with rfl | ⟨j, hj, hxj⟩ | hx
    · exact absurd hnone hev
    · rw [Pool.others_not hB.ownership.one hc ho hj hxj] at hxo
      cases hxo
    · exact absurd (spawns_evidence hx) hev
  · obtain rfl := exec_answers he hans hp
    exact hG.step rfl (fun _ h => h) (hG.seen_after hmem hok hcl hj)
      (fun x hx => spawns_evidence hx) hG.verdict

theorem grounded_act {card : Asked → Inventory → Prop} {β : Type} {w w' : World}
    {cs : List Ctx} {i : Nat} {c : Ctx} {a : Act β} {e : Choice} {r : β} (hB : Base P w cs)
    (hG : Grounded card w cs) (hc : cs[i]? = some c) (hok : c.allows a)
    (hcard : a.judges = true → ∀ asked inv, w.history.asked = some asked →
      w.inner.inventory = some inv → asked.shownBy inv = true → card asked inv)
    (he : exec P t a c e w = some (r, w')) :
    Grounded card w' (cs.set i (c.after a r w) ++ (spawns c a r).map Prod.snd) := by
  have hmem := List.mem_of_getElem? hc
  have hB' := base_act hB hc hok he
  have hself : c.after a r w ∈ cs.set i (c.after a r w) ++ (spawns c a r).map Prod.snd :=
    Pool.self_mem hc
  -- An action that is no claim, no answer and no look keeps the grounds that were there.
  have hstep : a.claims = false → a.answers = false → a.judges = false →
      (∀ op, w'.inner.operation = some op → ∃ asked, w'.history.asked = some asked ∧
        asked.Matches op ∧ w'.history.Supports card asked op.state) →
      Grounded card w' (cs.set i (c.after a r w) ++ (spawns c a r).map Prod.snd) :=
    fun hcl hans hj hverdict => hG.step (exec_asked he hcl) (exec_reads he hcl hans)
      (hG.seen_after hmem hok hcl hj) (fun x hx => spawns_evidence hx) hverdict
  have hsame : ∀ op, w.inner.operation = some op → w.Same w' .fate → a.claims = false →
      a.answers = false → ∃ asked, w'.history.asked = some asked ∧
        asked.Matches op ∧ w'.history.Supports card asked op.state := by
    intro op hop hf hcl hans
    obtain ⟨asked, ha, hm, hs⟩ := hG.verdict op hop
    exact ⟨asked, (exec_asked he hcl).trans ha, hm, hs.mono hf.1 (exec_reads he hcl hans)⟩
  have hkeep : a.touches .slot = false → a.touches .fate = false → a.claims = false →
      a.answers = false → a.judges = false →
      Grounded card w' (cs.set i (c.after a r w) ++ (spawns c a r).map Prod.snd) :=
    fun hs hf hcl hans hj => hstep hcl hans hj fun op hop =>
      hsame op ((exec_same he .slot hs).1 ▸ hop) (exec_same he .fate hf) hcl hans
  -- An owner that goes on finds its operation unresolved.
  have hgoes : a.claims = false → a.answers = false → a.judges = false →
      (c.after a r w).owns = true →
      Grounded card w' (cs.set i (c.after a r w) ++ (spawns c a r).map Prod.snd) :=
    fun hcl hans hj ho => hstep hcl hans hj fun op hop => hB'.verdict_of_owner hself ho card hop
  cases a with
  | putOperation op =>
    have hzero : cs.countP Ctx.owns = 0 := by
      rw [List.countP_eq_zero]
      intro x hx
      simp [Ctx.owns, ((hB.boot.before c hmem hok.1 hok.2.1).2.1 x hx).1]
    exact .claim hc hzero hB' rfl rfl
  | admitChange kind id handle revision =>
    rcases admit_world he with ⟨a, inv, rfl, hbusy, -⟩ | ⟨refusal, rfl, rfl⟩
    · exact .claim hc (hB.ownership.free hbusy) hB' rfl (by rw [hok.1]; rfl)
    · exact hG.step rfl (fun _ h => h) (hG.seen c hmem) (fun x hx => spawns_evidence hx) hG.verdict
  | claimDownload id =>
    rcases claim_world he with ⟨inv, rfl, hbusy, -⟩ | ⟨refusal, rfl, rfl⟩
    · exact .claim hc (hB.ownership.free hbusy) hB' rfl (by rw [hok.1]; rfl)
    · exact hG.step rfl (fun _ h => h) (hG.seen c hmem) (fun x hx => spawns_evidence hx) hG.verdict
  | helperAnswer | runEvent => exact grounded_answer hB hG hc hok he rfl
  | dropOperation =>
    refine hstep rfl rfl rfl fun op hop => ?_
    simp only [exec, Option.some.injEq, Prod.mk.injEq] at he
    obtain ⟨-, rfl⟩ := he
    cases hop
  | setOp state message =>
    cases hs : state.resolved with
    | false =>
      refine hgoes rfl rfl rfl ?_
      simp [hs, Ctx.owns, hok.1]
    | true =>
      refine hstep rfl rfl rfl fun op hop => ?_
      obtain ⟨op₀, asked, hslot, -, -, ha, hm, -⟩ :=
        hB.ownership.owner c hmem (Ctx.owns_iff.mpr (.inr (.inr hok.1)))
      have hsupports := supports_of_mayPublish hB hG hmem hok.1 (hok.2 hs) ha
      simp only [exec, Option.some.injEq, Prod.mk.injEq] at he
      obtain ⟨-, rfl⟩ := he
      simp only [Inner.setOp, Inner.updateOp, hslot, Option.map_some, Option.some.injEq] at hop
      rw [← hop]
      exact ⟨asked, ha, ⟨hm.kind, hm.profiles, hm.target⟩, hsupports⟩
  | takeFound _ =>
    exact hgoes rfl rfl rfl (Ctx.owns_iff.mpr (.inr (.inr hok.1)))
  | onProgress _ _ _ =>
    exact hgoes rfl rfl rfl (Ctx.owns_iff.mpr (.inr (.inl hok.2.2.1)))
  | downloadInstalled _ | downloadBaseline _ =>
    exact hgoes rfl rfl rfl (Ctx.owns_iff.mpr (.inr (.inr hok.1)))
  | confirm id install nickname =>
    refine hstep rfl rfl rfl fun op hop => ?_
    rcases confirm_slot he with
      hs | ⟨op₀, op', hslot, _, hslot', hres, -, hk, htg, hb, -, -, hasked⟩
    · exact hsame op (hs.1 ▸ hop) (exec_same he .fate rfl) rfl rfl
    · obtain rfl : op' = op := Option.some.inj (hslot'.symm.trans hop)
      obtain ⟨asked, ha, hm, -⟩ := hG.verdict op₀ hslot
      exact ⟨asked, hasked.trans ha, ⟨hm.kind.trans hk.symm, hm.profiles.trans hb.symm,
        fun hne => (hm.target (hk ▸ hne)).trans htg.symm⟩,
        w'.history.supports_of_unresolved card asked hres⟩
  | examine =>
    simp only [exec, Option.some.injEq, Prod.mk.injEq] at he
    obtain ⟨rfl, rfl⟩ := he
    exact hG.step rfl (fun _ h => h)
      (fun _ _ => ⟨hok.1, examine_grounded hB hmem hok (hcard rfl)⟩)
      (fun x hx => spawns_evidence hx) hG.verdict
  | findInstalled =>
    simp only [exec, Option.some.injEq, Prod.mk.injEq] at he
    obtain ⟨rfl, rfl⟩ := he
    exact hG.step rfl (fun _ h => h)
      (fun _ _ => ⟨hok.1, findInstalled_grounded hB hmem hok (hcard rfl)⟩)
      (fun x hx => spawns_evidence hx) hG.verdict
  | _ => exact hkeep rfl rfl rfl rfl rfl

theorem grounded_outside {card : Asked → Inventory → Prop} {w : World} {cs : List Ctx}
    {x : Outside} {o : Occurrence Ctx World Body} (hG : Grounded card w cs)
    (ho : occur x w = some o) :
    Grounded card o.world ((if o.kill then [] else cs) ++ o.starts.map Prod.snd) := by
  rcases occur_cases ho with ⟨d, rfl⟩ | ⟨r, -, rfl⟩ | ⟨salt, readable, -, -, rfl⟩
  · rw [List.map_nil, List.append_nil]
    exact ⟨hG.seen, hG.verdict⟩
  · refine ⟨fun c hc hco => ?_, hG.verdict⟩
    rcases List.mem_append.mp hc with h | h
    · exact hG.seen c h hco
    · rw [List.mem_singleton.mp h] at hco
      cases hco
  · refine ⟨fun c hc hco => ?_, fun op (hop : none = some op) => by cases hop⟩
    rw [List.mem_singleton.mp hc] at hco
    cases hco

/-- Every verdict has its grounds, on cards as the looks at the card require. -/
theorem grounded_run {card : Asked → Inventory → Prop} {K : Steps}
    (hcard : ∀ {β : Type} (w : World) (cs : List Ctx) (c : Ctx) (a : Act β) (e : Choice),
      K.act w cs c a e = true → a.judges = true → ∀ asked inv, w.history.asked = some asked →
        w.inner.inventory = some inv → asked.shownBy inv = true → card asked inv)
    {s : AgentState} (h : Reaches P t K s) : Grounded card s.world s.ctxs :=
  run_invariant (fun hB hG hc hok hK he => grounded_act hB hG hc hok (hcard _ _ _ _ _ hK) he)
    (fun _ hG _ ho => grounded_outside hG ho)
    ⟨fun _ hc => absurd hc List.not_mem_nil, fun op (hop : none = some op) => by cases hop⟩ h

end OpenUI.Agent.Esim
