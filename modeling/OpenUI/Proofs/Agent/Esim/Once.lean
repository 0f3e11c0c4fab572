import OpenUI.Proofs.Agent.Esim.Resolution

/-!
# `OpenUI.Proofs.Agent.Esim.Once`: what an operation id leads to

A repeated request gets the operation it already started, as long as that operation is the one in
memory. Nothing else is remembered of an id: when another operation has taken the slot, a request
under the old id starts a new change. `remembered` leaves such requests out.

Only the owner of the slot sends, once when it carries its operation out, and for a download once
more, with the nickname it was confirmed with.

* `Once`: the invariant that ties what was sent to where the owner stands.
* `sent_once`: an id leads to one change, and at most one operation is unresolved.
-/

set_option autoImplicit false

namespace OpenUI.Agent.Esim

open OpenUI.Json OpenUI.Text OpenUI.Concurrency

variable {P : Platform} {t : Timing}

/-! ### What was sent -/

/-- The write requests that went to the helper for the operation `id`, in their order. -/
def History.sentFor (h : History) (id : String) : List Request :=
  (h.sent.filter fun p => p.1 == id).map Prod.snd

/-- The request that sets a nickname. -/
def Request.isRename : Request → Bool
  | .nickname _ _ _ => true
  | _ => false

/-- What one operation leads to: nothing, one request, or a download and the nickname for the
profile it installed. -/
inductive OneChange : List Request → Prop where
  | none : OneChange []
  | one (request : Request) : OneChange [request]
  | named {download rename : Request} (hd : download.isDownload = true)
      (hr : rename.isRename = true) : OneChange [download, rename]

/-- A request under an id that something was sent for finds that operation still in memory. -/
def remembered : Steps where
  act w _ _ a _ := match a with
    | .admitChange _ id _ _ | .claimDownload id =>
      (w.history.sentFor id).isEmpty || w.inner.operation.any (fun op => op.id == id)
    | _ => true
  outside _ _ := true

/-- Nothing was sent for the operation, or its download. -/
def Downloading (l : List Request) : Prop :=
  l = [] ∨ ∃ request, l = [request] ∧ request.isDownload = true

/-- What was sent for the operation the thread acts for, by how far it has come. -/
structure Ctx.Sent (h : History) (c : Ctx) : Prop where
  claimed : c.phase = .claimed → ∀ id kind, c.op = some (id, kind) → h.sentFor id = []
  downloading : c.phase = .running ∨ c.phase = .settling → c.renamed = false →
    ∀ id, c.op = some (id, .download) → Downloading (h.sentFor id)
  boot : c.booting = true → c.op = none → h.sent = []

/-- What was sent for each id, and what the threads say of it. -/
structure Once (w : World) (cs : List Ctx) : Prop where
  one : ∀ id, OneChange (w.history.sentFor id)
  sent : ∀ c ∈ cs, c.Sent w.history

theorem Ctx.Sent.congr {h h' : History} {c : Ctx} (hs : c.Sent h) (heq : h'.sent = h.sent) :
    c.Sent h' := by
  have hfor : ∀ id, h'.sentFor id = h.sentFor id := fun id => by
    rw [History.sentFor, History.sentFor, heq]
  refine ⟨fun hp id kind hop => ?_, fun hp hr id hop => ?_,
    fun hb hop => heq.trans (hs.boot hb hop)⟩
  · exact (hfor id).trans (hs.claimed hp id kind hop)
  · rw [hfor id]
    exact hs.downloading hp hr id hop

/-- A thread that owns nothing says nothing, once the process has started. -/
theorem Ctx.Sent.of_idle {h : History} {c : Ctx} (ho : c.owns = false)
    (hb : c.booting = true → c.op = none → h.sent = []) : c.Sent h := by
  have hno : ¬(c.phase = .claimed ∨ c.phase = .running ∨ c.phase = .settling) := by
    rw [← Ctx.owns_iff, ho]
    simp
  exact ⟨fun hp => absurd (.inl hp) hno, fun hp => absurd (.inr hp) hno, hb⟩

/-- One request more. -/
theorem sentFor_append (h : History) (id id' : String) (request : Request) :
    ({ h with sent := h.sent ++ [(id, request)] } : History).sentFor id' =
      h.sentFor id' ++ if id == id' then [request] else [] := by
  simp only [History.sentFor, List.filter_append, List.map_append]
  congr 1
  by_cases hid : (id == id') = true
  · simp [hid]
  · simp [hid]

/-! ### Admission -/

/-- An id that is admitted is not the one in memory. -/
theorem admitChange_new {kind : Kind} {id handle : String} {revision : Nat} {inner inner' : Inner}
    {a : Admitted} (h : inner.admitChange kind id handle revision = (.ok a, inner')) :
    inner.operation.any (fun op => op.id == id) = false := by
  unfold Inner.admitChange at h
  split at h
  · split at h <;> cases h
  · rename_i hnone
    rw [Option.filter_eq_none_iff] at hnone
    rw [Option.any_eq_false]
    intro op hop
    simpa using hnone op hop

theorem claimDownload_new {id eid : String} {ch : Nat} {inner inner' : Inner}
    (h : inner.claimDownload id ch = (.ok eid, inner')) :
    inner.operation.any (fun op => op.id == id) = false := by
  unfold Inner.claimDownload at h
  split at h
  · split at h <;> cases h
  · rename_i hnone
    rw [Option.filter_eq_none_iff] at hnone
    rw [Option.any_eq_false]
    intro op hop
    simpa using hnone op hop

/-! ### One step -/

/-- The action starts the helper. -/
def Act.sends {β : Type} : Act β → Bool
  | .startHelper _ => true
  | _ => false

/-- A thread goes on with its operation, or is done with it. -/
theorem Ctx.Sent.goes {h : History} {c c' : Ctx} (hs : c.Sent h) (hop : c'.op = c.op)
    (hr : c'.renamed = c.renamed) (hb : c'.booting = true → c.booting = true)
    (hp : c'.phase = c.phase ∨ c'.owns = false ∨ c.phase = .running ∧ c'.phase = .settling) :
    c'.Sent h := by
  have hboot : c'.booting = true → c'.op = none → h.sent = [] :=
    fun hb' hop' => hs.boot (hb hb') (hop.symm.trans hop')
  rcases hp with hsame | hidle | ⟨hrunning, hsettling⟩
  · refine ⟨fun hph id kind hid => ?_, fun hph hren id hid => ?_, hboot⟩
    · exact hs.claimed (hsame.symm.trans hph) id kind (hop.symm.trans hid)
    · rw [hsame] at hph
      exact hs.downloading hph (hr.symm.trans hren) id (hop.symm.trans hid)
  · exact .of_idle hidle hboot
  · refine ⟨fun hph => ?_, fun _ hren id hid => ?_, hboot⟩
    · rw [hsettling] at hph
      cases hph
    · exact hs.downloading (.inl hrunning) (hr.symm.trans hren) id (hop.symm.trans hid)

/-- The answer to the operation's own request moves it on. -/
theorem Ctx.Sent.answered {h : History} {c : Ctx} (hs : c.Sent h) (o : HelperOutcome) :
    (c.answered o).Sent h := by
  unfold Ctx.answered
  split
  · rename_i hp
    exact hs.goes rfl rfl id (.inr (.inr ⟨hp, rfl⟩))
  · exact hs

/-- A thread that neither claims the slot nor starts the helper. -/
theorem Ctx.Sent.after {β : Type} {h : History} {c : Ctx} {a : Act β} {r : β} {w : World}
    (hs : c.Sent h) (hcl : a.claims = false) (ha : a.sends = false) : (c.after a r w).Sent h := by
  cases a with
  | putOperation _ | admitChange _ _ _ _ | claimDownload _ => cases hcl
  | startHelper _ => cases ha
  | serve => exact hs.goes rfl rfl (fun hb => by cases hb) (.inl rfl)
  | receiptsPending | setLock _ _ => cases r <;> exact hs.goes rfl rfl id (.inl rfl)
  | journalExists =>
    cases r with
    | true => exact hs
    | false => exact hs.goes rfl rfl id (.inr (.inl rfl))
  | removeJournal | dropOperation => exact hs.goes rfl rfl id (.inr (.inl rfl))
  | helperAnswer => exact hs.answered r
  | runEvent =>
    cases r with
    | done o => exact hs.answered o
    | _ => exact hs
  | setOp state message =>
    simp only [Ctx.after]
    split
    · refine hs.goes rfl rfl id (.inr (.inl ?_))
      unfold Ctx.publish Ctx.owns
      split <;> rfl
    · exact hs
  | workerRound => cases r <;> exact hs.goes rfl rfl id (.inl rfl)
  | spawn b =>
    cases b with
    | runSwitch _ _ | runDownload _ _ | verify _ _ | settleDownload _ =>
      exact hs.goes rfl rfl id (.inr (.inl rfl))
    | _ => exact hs.goes rfl rfl id (.inl rfl)
  | _ => exact hs.goes rfl rfl id (.inl rfl)

/-- A thread that is started carries the operation of the one that starts it, or none. -/
theorem Ctx.Sent.spawned {β : Type} {h : History} {c : Ctx} {a : Act β} {r : β} (hs : c.Sent h)
    (hok : c.allows a) : ∀ x ∈ (spawns c a r).map Prod.snd, x.Sent h := by
  intro x hx
  cases a with
  | spawn b =>
    have hchild : c.renamed = false → c.child.Sent h := fun hren =>
      hs.goes rfl hren.symm (fun hb => by cases hb) (.inl rfl)
    cases b with
    | runSwitch _ _ | runDownload _ _ | verify _ _ | settleDownload _ =>
      rw [List.mem_singleton.mp hx]
      exact hchild hok.2.2
    | receiptWorker | detect =>
      rw [List.mem_singleton.mp hx]
      exact .of_idle rfl fun hb => by cases hb
    | _ => exact hok.elim
  | _ => cases hx

/-- The request that a thread sends for the operation it acts for. -/
theorem Once.sends {w w' : World} {cs : List Ctx} {i : Nat} {c c' : Ctx} (hO : Once w cs)
    (id : String) (request : Request) (hB : Base P w cs) (hc : cs[i]? = some c)
    (ho : c.owns = true) (hsent : w'.history.sent = w.history.sent ++ [(id, request)])
    (hone : OneChange (w.history.sentFor id ++ [request])) (hself : c'.Sent w'.history) :
    Once w' (cs.set i c' ++ []) := by
  have hfor : ∀ id', w'.history.sentFor id' =
      w.history.sentFor id' ++ if id == id' then [request] else [] := by
    intro id'
    rw [← sentFor_append, History.sentFor, History.sentFor, hsent]
  refine ⟨fun id' => ?_, fun x hx => ?_⟩
  · rw [hfor id']
    by_cases hid : id = id'
    · subst hid
      rw [if_pos (by simp)]
      exact hone
    · rw [if_neg (by simpa using hid), List.append_nil]
      exact hO.one id'
  · rcases Pool.mem_update hx with rfl | ⟨j, hj, hxj⟩ | hnew
    · exact hself
    · -- There is one owner, and while the main thread has no operation there is none.
      refine .of_idle (Pool.others_not hB.ownership.one hc ho hj hxj) fun hb hnone => ?_
      have hall := (hB.boot.before x (List.mem_of_getElem? hxj) hb hnone).2.1
      have hfree := (hall c (List.mem_of_getElem? hc)).1
      rw [Ctx.owns, hfree] at ho
      cases ho
    · cases hnew

/-- A thread claims the free slot, under an id that nothing was sent for. -/
theorem Once.claims {w w' : World} {cs : List Ctx} {i : Nat} {c' : Ctx}
    (hO : Once w cs) (hsent : w'.history.sent = w.history.sent) (hself : c'.Sent w'.history) :
    Once w' (cs.set i c' ++ []) := by
  refine ⟨fun id => ?_, Pool.forall_update (fun x hx => (hO.sent x hx).congr hsent) hself (by simp)⟩
  rw [History.sentFor, hsent]
  exact hO.one id

/-- What the owner of a claimed download sends is the download. -/
theorem asks_download_claimed {c : Ctx} {request : Request} {id : String}
    (hw : request.isWrite = true) (hm : c.mayAsk request) (hp : c.phase = .claimed)
    (hop : c.op = some (id, .download)) : request.isDownload = true := by
  have hkind : ∀ {kind : Kind}, c.actsOn kind → kind = .download := by
    rintro kind ⟨id', hid⟩
    rw [hop] at hid
    exact (Prod.mk.inj (Option.some.inj hid)).2.symm
  cases request with
  | inventory | notify _ _ => cases hw
  | download _ _ _ => rfl
  | switch _ _ _ _ | delete _ _ =>
    obtain ⟨-, -, kind, hswitch, hacts⟩ := hm
    rw [hkind hacts] at hswitch
    cases hswitch
  | nickname _ _ _ =>
    rcases hm with ⟨-, hacts⟩ | ⟨hsettling, -⟩
    · cases hkind hacts
    · rw [hp] at hsettling
      cases hsettling

/-- What a thread sends later than that is the nickname of a download. -/
theorem asks_rename {c : Ctx} {request : Request} (hw : request.isWrite = true)
    (hm : c.mayAsk request) (hp : c.phase ≠ .claimed) : request.isRename = true ∧
      c.phase = .settling ∧ c.actsOn .download ∧ c.renamed = false := by
  cases request with
  | inventory | notify _ _ => cases hw
  | download _ _ _ => exact absurd hm.1 hp
  | switch _ _ _ _ | delete _ _ => exact absurd hm.1 hp
  | nickname _ _ _ =>
    rcases hm with ⟨hclaimed, -⟩ | ⟨hsettling, hacts, -, hren⟩
    · exact absurd hclaimed hp
    · exact ⟨rfl, hsettling, hacts, hren⟩

theorem once_start {w w' : World} {cs : List Ctx} {i : Nat} {c : Ctx} {request : Request}
    {e : Choice} {r : Unit} (hB : Base P w cs) (hO : Once w cs) (hc : cs[i]? = some c)
    (hok : c.allows (.startHelper request))
    (he : exec P t (.startHelper request) c e w = some (r, w')) :
    Once w' (cs.set i (c.after (.startHelper request) r w) ++ []) := by
  have hmem := List.mem_of_getElem? hc
  have hself := hO.sent c hmem
  simp only [exec, Option.some.injEq, Prod.mk.injEq] at he
  obtain ⟨-, rfl⟩ := he
  generalize hx : c.after (.startHelper request) r w = c'
  cases hx ▸ after_startHelper c request w with
  | read =>
    refine hO.claims rfl (Ctx.Sent.congr (h := w.history) ?_ rfl)
    exact hself.goes rfl rfl id (.inl rfl)
  | notify => exact hO.claims rfl (hself.congr rfl)
  | write hw hp =>
    obtain ⟨op, eid, -, -, hop, -⟩ := hB.ownership.claimed hmem hp
    have hnone := hself.claimed hp op.id op.kind hop
    refine hO.sends op.id request hB hc (Ctx.owns_iff.mpr (.inl hp)) ?_ ?_ ?_
    · simp [World.note, hw, hop]
    · rw [hnone]
      exact .one request
    · refine ⟨fun hph => (by cases hph), fun _ hren id hid => .inr ⟨request, ?_, ?_⟩,
        fun hb hn => ?_⟩
      · obtain rfl : op.id = id := by
          rw [hop] at hid
          exact (Prod.mk.inj (Option.some.inj hid)).1
        simp only [World.note, hw, hop, if_true, Option.map_some, Option.getD_some]
        rw [History.sentFor, List.filter_append, List.map_append, ← History.sentFor, hnone]
        simp
      · exact asks_download_claimed hw hok.2 hp hid
      · rw [show c.op = none from hn] at hop
        cases hop
  | rename hw hp =>
    obtain ⟨hrename, hsettling, ⟨id, hop⟩, hren⟩ := asks_rename hw hok.2 hp
    have hbefore := hself.downloading (.inr hsettling) hren id hop
    refine hO.sends id request hB hc (Ctx.owns_iff.mpr (.inr (.inr hsettling))) ?_ ?_ ?_
    · simp [World.note, hw, hop]
    · rcases hbefore with hnone | ⟨download, hone, hd⟩
      · rw [hnone]
        exact .one request
      · rw [hone]
        exact .named hd hrename
    · refine ⟨fun hph => absurd hph hp, fun _ hfalse => (by cases hfalse), fun hb hn => ?_⟩
      rw [show c.op = none from hn] at hop
      cases hop

/-- **One step.** Every action that the rules allow, under an id that is remembered, keeps what is
said of the requests. -/
theorem once_act {β : Type} {w w' : World} {cs : List Ctx} {i : Nat} {c : Ctx} {a : Act β}
    {e : Choice} {r : β} (hB : Base P w cs) (hO : Once w cs) (hc : cs[i]? = some c)
    (hok : c.allows a) (hK : remembered.act w cs c a e = true)
    (he : exec P t a c e w = some (r, w')) :
    Once w' (cs.set i (c.after a r w) ++ (spawns c a r).map Prod.snd) := by
  have hmem := List.mem_of_getElem? hc
  have hself := hO.sent c hmem
  have hframe : a.claims = false → a.sends = false → a.touches .sent = false →
      Once w' (cs.set i (c.after a r w) ++ (spawns c a r).map Prod.snd) := by
    intro hcl ha ht
    have hsame : w'.history.sent = w.history.sent := exec_same he .sent ht
    refine ⟨fun id => ?_, Pool.forall_update (fun x hx => (hO.sent x hx).congr hsame)
      ((hself.after hcl ha).congr hsame) fun x hx => ((hself.spawned hok) x hx).congr hsame⟩
    rw [History.sentFor, hsame]
    exact hO.one id
  cases a with
  | putOperation op =>
    have hsame : w'.history.sent = w.history.sent := exec_same he .sent rfl
    refine hO.claims hsame (Ctx.Sent.congr (h := w.history) ?_ hsame)
    have hnone := hself.boot hok.1 hok.2.1
    refine ⟨fun hp => (by cases hp), fun _ _ id _ => .inl ?_, fun _ hop => (by cases hop)⟩
    rw [History.sentFor, hnone]
    rfl
  | admitChange kind id handle revision =>
    have hsame : w'.history.sent = w.history.sent := exec_same he .sent rfl
    simp only [exec] at he
    split at he
    · rename_i a inner hadmit
      simp only [Option.some.injEq, Prod.mk.injEq] at he
      obtain ⟨rfl, -⟩ := he
      obtain ⟨-, -, -, inv, -, hop, -⟩ := admitChange_ok hadmit
      have hnone : w.history.sentFor id = [] := by
        simpa [remembered, admitChange_new hadmit] using hK
      refine hO.claims hsame (Ctx.Sent.congr (h := w.history) ?_ hsame)
      refine ⟨fun _ id' kind' hid => ?_, fun hp => (by rcases hp with hp | hp <;> cases hp),
        fun _ hop => (by cases hop)⟩
      obtain rfl : id = id' := by
        have hpair := Prod.mk.inj (Option.some.inj hid)
        rw [← hpair.1, hop]
        rfl
      exact hnone
    · simp only [Option.some.injEq, Prod.mk.injEq] at he
      obtain ⟨rfl, -⟩ := he
      exact hO.claims hsame (hself.congr hsame)
  | claimDownload id =>
    have hsame : w'.history.sent = w.history.sent := exec_same he .sent rfl
    simp only [exec] at he
    split at he
    · rename_i eid inner hclaim
      simp only [Option.some.injEq, Prod.mk.injEq] at he
      obtain ⟨rfl, -⟩ := he
      have hnone : w.history.sentFor id = [] := by
        simpa [remembered, claimDownload_new hclaim] using hK
      refine hO.claims hsame (Ctx.Sent.congr (h := w.history) ?_ hsame)
      refine ⟨fun _ id' kind' hid => ?_, fun hp => (by rcases hp with hp | hp <;> cases hp),
        fun _ hop => (by cases hop)⟩
      obtain rfl : id = id' := (Prod.mk.inj (Option.some.inj hid)).1
      exact hnone
    · simp only [Option.some.injEq, Prod.mk.injEq] at he
      obtain ⟨rfl, -⟩ := he
      exact hO.claims hsame (hself.congr hsame)
  | startHelper request => exact once_start hB hO hc hok he
  | _ => exact hframe rfl rfl rfl

/-! ### Every run -/

/-- An event from outside sends nothing; with a restart the requests of the process are gone. -/
theorem once_outside {w : World} {cs : List Ctx} {x : Outside} {o : Occurrence Ctx World Body}
    (hO : Once w cs) (ho : occur x w = some o) :
    Once o.world ((if o.kill then [] else cs) ++ o.starts.map Prod.snd) := by
  rcases occur_cases ho with ⟨d, rfl⟩ | ⟨r, -, rfl⟩ | ⟨salt, readable, -, -, rfl⟩
  · refine ⟨hO.one, fun x hx => ?_⟩
    rw [List.map_nil, List.append_nil] at hx
    exact (hO.sent x hx).congr rfl
  · refine ⟨hO.one, fun x hx => ?_⟩
    rcases List.mem_append.mp hx with hx | hx
    · exact hO.sent x hx
    · rw [List.mem_singleton.mp hx]
      exact .of_idle rfl fun hb => by cases hb
  · refine ⟨fun id => .none, fun x hx => ?_⟩
    rw [List.mem_singleton.mp hx]
    exact .of_idle rfl fun _ _ => rfl

theorem run_once {s : AgentState} (h : Reaches P t remembered s) : Once s.world s.ctxs := by
  refine run_invariant (fun hB hO hc hok hK he => once_act hB hO hc hok hK he)
    (fun _ hO _ ho => once_outside hO ho) ?_ h
  exact ⟨fun id => .none, fun c hc => absurd hc List.not_mem_nil⟩

/-- **One change for each id.** In every run in which no request comes under the id of an operation
that something was sent for and that is not in memory any more: the helper gets at most one request
for each id, and after a download at most the nickname for the profile it installed. And at most
one thread acts for an unresolved operation, which is the one in memory. -/
theorem sent_once {s : AgentState} (h : Reaches P t remembered s) :
    (∀ id, OneChange (s.world.history.sentFor id)) ∧ s.ctxs.countP Ctx.owns ≤ 1 ∧
      ∀ c ∈ s.ctxs, c.owns = true → ∃ op, s.world.inner.operation = some op ∧
        op.state.resolved = false ∧ c.op = some (op.id, op.kind) := by
  have hB := (base_run h).1
  refine ⟨(run_once h).one, hB.ownership.one, fun c hc ho => ?_⟩
  obtain ⟨op, -, hslot, hres, hop, -⟩ := hB.ownership.owner c hc ho
  exact ⟨op, hslot, hres, hop⟩

/-! ### A repeated request, and two that are sent again -/

/-- The card refuses a change: threads `2` and `3` have ended. -/
def refusedOnce : List Turn :=
  switchTurns (.enable (sampleChange "enable-01" "8988")) (.failed "refused" "refused" .null)
    ++ turns 3 3 ++ fileDone 3

/-- The same request once more, answered by thread `4`. -/
def repeatedTurns : List Turn :=
  refusedOnce ++ .outside (.request (.enable (sampleChange "enable-01" "8988"))) :: turns 4 3

theorem sent_once_sample : ∃ s, Reaches samplePlatform {} remembered s ∧
    s.threads.length = 5 ∧ (s.world.history.sentFor "enable-01").length = 1 ∧
    ∀ id, OneChange (s.world.history.sentFor id) := by
  obtain ⟨s, hs, hcheck⟩ := sample_run remembered repeatedTurns
    (fun s => s.threads.length == 5 && (s.world.history.sentFor "enable-01").length == 1)
    (by decide +kernel)
  rw [Bool.and_eq_true, beq_iff_eq, beq_iff_eq] at hcheck
  exact ⟨s, hs, hcheck.1, hcheck.2, (sent_once hs).1⟩

/-- Threads `4` and `5` see to another change, and then the first request comes again: thread `7`
sends it. -/
def forgottenTurns : List Turn :=
  refusedOnce ++ .outside (.request (.enable (sampleChange "enable-02" "8989"))) :: turns 4 1
    ++ fileDone 4 ++ turns 4 3 ++ askedTurns 5 (.failed "refused" "refused" .null) []
    ++ turns 5 3 ++ fileDone 5
    ++ .outside (.request (.enable (sampleChange "enable-01" "8988"))) :: turns 6 1
    ++ fileDone 6 ++ turns 6 3 ++ turns 7 2

/-- The body of a confirmation with a nickname. -/
def sampleConfirmation (id nickname : String) : Option Value :=
  some (.obj [("operation_id", .str id), ("install", .bool true), ("nickname", .str nickname)])

/-- A card with one profile; thread `3` downloads another one, and the user confirms it with a
nickname. -/
def namedTurns : List Turn :=
  startTurns ++ .outside (.request .refresh) :: turns 1 1
    ++ readTurns 1 (sampleInventory "8904" [sampleProfile "8988" "disabled"] []) true ++ turns 1 2
    ++ .outside (.request (.download (sampleDownload "download-1"))) :: turns 2 1
    ++ .thread 2 (.flag true) :: fileDone 2 ++ turns 2 3 ++ turns 3 5
    ++ .thread 3 (.event (.progress "preview" .null)) :: turns 3 3
    ++ .outside (.request (.downloadConfirm (sampleConfirmation "download-1" "Holiday")))
      :: turns 4 3 ++ turns 3 5
    ++ .thread 3 (.event (.done (.ok .null))) :: turns 3 5
    ++ readTurns 3 (sampleInventory "8904"
      [sampleProfile "8988" "disabled", sampleProfile "8989" "disabled"] []) false ++ turns 3 4

/-- A download that was confirmed with a nickname leads to two requests, and an id that another
operation has replaced in memory leads to a second change. -/
theorem sent_again :
    (¬ ∀ (P : Platform) (t : Timing) (s : AgentState), Reaches P t remembered s →
      ∀ id, (s.world.history.sentFor id).length ≤ 1) ∧
    ¬ ∀ (P : Platform) (t : Timing) (s : AgentState), Reaches P t .any s →
      ∀ id, OneChange (s.world.history.sentFor id) := by
  constructor
  · intro hall
    obtain ⟨s, hs, hcheck⟩ := sample_run remembered namedTurns
      (fun s => (s.world.history.sentFor "download-1").length == 2) (by decide +kernel)
    have hle := hall _ _ s hs "download-1"
    rw [beq_iff_eq] at hcheck
    omega
  · intro hall
    obtain ⟨s, hs, hcheck⟩ := sample_run .any forgottenTurns
      (fun s => s.world.history.sentFor "enable-01" ==
        [.switch .enable "8988" "8904" none, .switch .enable "8988" "8904" none])
      (by decide +kernel)
    have hone := hall _ _ s hs "enable-01"
    rw [beq_iff_eq] at hcheck
    rw [hcheck] at hone
    cases hone with
    | named hd _ => cases hd

end OpenUI.Agent.Esim
