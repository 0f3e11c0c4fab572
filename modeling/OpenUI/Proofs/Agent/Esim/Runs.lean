import OpenUI.Proofs.Agent.Esim.CardAccess
import OpenUI.Proofs.Agent.Esim.Threads

/-!
# `OpenUI.Proofs.Agent.Esim.Runs`: every run of the manager

What is left to show for `Base`: the journal on disk, what a thread may rely on, the threads an
action starts, and the events from outside. `base_run` then says that `Base` holds in every
state of every run of the agent, whatever requests come in, however the threads interleave and
whenever the process dies, and that the rest of every thread's program keeps the rules.

* `run_invariant` is the rule the later modules use: an invariant on top of `Base`, kept by every
  allowed action that meets the condition of the run, and by every event from outside.
-/

set_option autoImplicit false

namespace OpenUI.Agent.Esim

open OpenUI.Json OpenUI.Text OpenUI.Concurrency

variable {P : Platform} {t : Timing}

/-! ### The journal on disk -/

/-- The operation a thread has claimed, as it was admitted. -/
theorem Ownership.claimed {w : World} {cs : List Ctx} {c : Ctx} (h : Ownership w cs) (hc : c ∈ cs)
    (hp : c.phase = .claimed) : ∃ op eid, w.inner.operation = some op ∧
      op.state.resolved = false ∧ c.op = some (op.id, op.kind) ∧ op.Recoverable ∧
      w.history.asked = some (op.asked eid) ∧ w.history.fate = .unsent ∧
      ∀ o, c.admitted = some o → o = op := by
  obtain ⟨op, asked, hslot, hres, hop, hasked, -, hstage⟩ :=
    h.owner c hc (Ctx.owns_iff.mpr (.inl hp))
  unfold Ctx.stage at hstage
  rw [hp] at hstage
  obtain ⟨hfate, hrec, heq, -, hadm⟩ := hstage
  exact ⟨op, asked.eid, hslot, hres, hop, hrec, hasked.trans (congrArg some heq), hfate, hadm⟩

theorem journalled_act {β : Type} {w w' : World} {cs : List Ctx} {i : Nat} {c : Ctx} {a : Act β}
    {e : Choice} {r : β} (hB : Base P w cs) (hc : cs[i]? = some c) (hok : c.allows a)
    (he : exec P t a c e w = some (r, w')) : Journalled w' := by
  have hmem := List.mem_of_getElem? hc
  have hframe : a.touches .journal = false → Journalled w' := by
    intro hj
    obtain ⟨hfile, hasked⟩ := exec_same he .journal hj
    intro j hj'
    rw [hasked]
    exact hB.journal j (hfile ▸ hj')
  cases a with
  | writeJournal op =>
    obtain ⟨op', eid, -, -, -, hrec, hasked, -, hadm⟩ := hB.ownership.claimed hmem hok.1
    obtain rfl := hadm op hok.2.1
    cases e <;> simp only [exec, reduceCtorEq, Option.some.injEq, Prod.mk.injEq] at he
    obtain ⟨-, rfl⟩ := he
    split
    · intro j hj
      cases hj
      refine ⟨op, eid, rfl, hrec, fun hk => ?_, hasked⟩
      have hswitch := hok.2.2
      rw [hk] at hswitch
      cases hswitch
    · exact hB.journal
  | journalOperation =>
    obtain ⟨op, eid, hslot, -, hop, hrec, hasked, -, -⟩ := hB.ownership.claimed hmem hok.1
    cases e <;> simp only [exec, reduceCtorEq, hslot, Option.some.injEq, Prod.mk.injEq] at he
    obtain ⟨-, rfl⟩ := he
    split
    · intro j hj
      cases hj
      obtain ⟨id, hid⟩ := hok.2
      rw [hid] at hop
      refine ⟨op, eid, rfl, hrec, fun hk => ?_, hasked⟩
      rw [hk] at hop
      cases hop
    · exact hB.journal
  | removeJournal =>
    cases e <;> simp only [exec, reduceCtorEq] at he
    split at he
    · simp only [Option.some.injEq, Prod.mk.injEq] at he
      obtain ⟨-, rfl⟩ := he
      split
      · exact fun _ h => by cases h
      · exact hB.journal
    · simp only [Option.some.injEq, Prod.mk.injEq] at he
      obtain ⟨-, rfl⟩ := he
      exact hB.journal
  | _ => exact hframe rfl

/-! ### What a thread learns, and the threads it starts -/

/-- A thread may rely on what `Ctx.learns` says. -/
theorem learns_act {β : Type} {w w' : World} {cs : List Ctx} {i : Nat} {c : Ctx} {a : Act β}
    {e : Choice} {r : β} (hB : Base P w cs) (hc : cs[i]? = some c) (hok : c.allows a)
    (he : exec P t a c e w = some (r, w')) : c.learns a r := by
  have hmem := List.mem_of_getElem? hc
  cases a with
  | readJournal =>
    cases e <;> simp only [exec, reduceCtorEq, Option.some.injEq, Prod.mk.injEq] at he
    obtain ⟨rfl, rfl⟩ := he
    intro j op hj hrec
    split at hj
    · obtain ⟨op', eid, rfl, hrecoverable, hkind, -⟩ := hB.journal j hj
      rw [Operation.recovered_journal hrecoverable, Option.some.injEq] at hrec
      rw [← hrec]
      exact hkind
    · cases hj
  | admitChange kind id handle revision =>
    intro a ha
    rcases admit_world he with ⟨a', inv, rfl, -, -, hop, -⟩ | ⟨refusal, rfl, -⟩
    · cases ha
      rw [hop]
      rfl
    · cases ha
  | journalOperation =>
    obtain ⟨op, eid, hslot, -⟩ := hB.ownership.claimed hmem hok.1
    cases e <;> simp only [exec, reduceCtorEq, hslot, Option.some.injEq, Prod.mk.injEq] at he
    obtain ⟨rfl, -⟩ := he
    exact by simp
  | findInstalled =>
    have ho : c.owns = true := Ctx.owns_iff.mpr (.inr (.inr hok.1))
    obtain ⟨op, asked, hslot, -⟩ := hB.ownership.owner c hmem ho
    obtain ⟨-, hinv, -⟩ := hB.reading.known c hmem ho hok.2.1
    obtain ⟨inv, hinv⟩ := Option.isSome_iff_exists.mp hinv
    simp only [exec, Inner.findInstalled, hslot, hinv, Option.some.injEq, Prod.mk.injEq] at he
    obtain ⟨rfl, -⟩ := he
    exact by simp
  | _ => trivial

/-- The receipt worker starts with nothing in hand. -/
theorem isWorker_new : Ctx.IsWorker { worker := true } :=
  ⟨⟨rfl, rfl, rfl, rfl, rfl, rfl⟩, rfl, rfl, rfl, rfl, rfl, rfl⟩

/-- A thread is started only in the precondition of its body. -/
theorem spawns_pre {β : Type} {c : Ctx} {a : Act β} {r : β} (hok : c.allows a) :
    ∀ bc ∈ spawns c a r, threadPre bc.1 bc.2 := by
  intro bc hbc
  cases a with
  | spawn b =>
    cases b with
    | receiptWorker =>
      rw [List.mem_singleton.mp hbc]
      exact isWorker_new
    | detect =>
      rw [List.mem_singleton.mp hbc]
      exact rfl
    | runSwitch _ _ | verify _ _ | runDownload _ _ | settleDownload _ =>
      rw [List.mem_singleton.mp hbc]
      exact hok.2.1
    | _ => exact hok.elim
  | _ => cases hbc

/-! ### Events from outside -/

/-- What an event from outside is. -/
theorem occur_cases {x : Outside} {w : World} {o : Occurrence Ctx World Body}
    (h : occur x w = some o) :
    (∃ d, o = ⟨{ w with now := w.now + d }, false, []⟩) ∨
    (∃ r, w.serving = true ∧ o = ⟨w, false, [(.http r, .newClient)]⟩) ∨
    (∃ salt readable, x = .restart salt readable ∧ salt.length = 16 ∧
      o = ⟨w.start salt readable, true, [(.main, .boot)]⟩) := by
  cases x with
  | tick d =>
    cases h
    exact .inl ⟨d, rfl⟩
  | request r =>
    simp only [occur] at h
    split at h
    · rename_i hs
      cases h
      exact .inr (.inl ⟨r, hs, rfl⟩)
    · cases h
  | restart salt readable =>
    simp only [occur] at h
    split at h
    · rename_i hs
      cases h
      exact .inr (.inr ⟨salt, readable, rfl, hs, rfl⟩)
    · cases h

/-- The process starts: one main thread, an empty slot, and the journal that was on disk. -/
theorem base_start {w : World} {cs : List Ctx} (hB : Base P w cs) (salt : List UInt8)
    (readable : Bool) : Base P (w.start salt readable) [.boot] := by
  refine ⟨⟨by decide, by rintro ⟨⟩, fun c hc ho => ?_⟩,
    ⟨by decide, fun c hc _ => ⟨rfl, fun x hx => ?_⟩, fun c hc _ _ => ⟨rfl, fun x hx => ?_, ?_⟩⟩,
    ⟨by decide, fun _ => by decide, fun c hc hr => ?_⟩,
    ⟨by rintro _ ⟨⟩, by rintro _ ⟨⟩, by rintro _ ⟨⟩, fun h => absurd rfl h, fun c hc hr => ?_,
      fun c hc ho => ?_⟩, hB.journal⟩
  · rw [List.mem_singleton.mp hc] at ho; cases ho
  · rw [List.mem_singleton.mp hx]; rfl
  · rw [List.mem_singleton.mp hx]; exact ⟨rfl, rfl⟩
  · rw [List.mem_singleton.mp hc]; exact by rintro _ ⟨⟩
  · rw [List.mem_singleton.mp hc] at hr; cases hr
  · rw [List.mem_singleton.mp hc] at hr; cases hr
  · rw [List.mem_singleton.mp hc] at ho; cases ho

/-- A thread of the server joins. -/
theorem base_request {w : World} {cs : List Ctx} (hB : Base P w cs) (hs : w.serving = true) :
    Base P w (cs ++ [.newClient]) := by
  have hnew : ∀ x ∈ cs ++ [Ctx.newClient], x ∈ cs ∨ x = .newClient := by
    intro x hx
    simpa using hx
  have hbooting : ∀ x ∈ cs ++ [Ctx.newClient], x.booting = false := by
    intro x hx
    refine eq_false_of_ne_true fun hb => ?_
    rcases hnew x hx with h | rfl
    · rw [(hB.boot.closed x h hb).1] at hs; cases hs
    · cases hb
  obtain ⟨hownership, hboot, hmutex, hreading, hjournal⟩ := hB
  have hcount : ∀ p : Ctx → Bool, p .newClient = false →
      (cs ++ [Ctx.newClient]).countP p = cs.countP p := by
    intro p hp
    rw [List.countP_append, List.countP_singleton, if_neg (by simp [hp]), Nat.add_zero]
  refine ⟨⟨?_, ?_, fun x hx ho => ?_⟩, ⟨?_, fun x hx hb => ?_, fun x hx hb => ?_⟩,
    ⟨?_, ?_, fun x hx hr => ?_⟩, ⟨hreading.hash, hreading.handles, hreading.last,
      hreading.answered, fun x hx hr => ?_, fun x hx ho hk => ?_⟩, hjournal⟩
  · rw [hcount _ rfl]; exact hownership.one
  · rw [hcount _ rfl]; exact hownership.busy
  · rcases hnew x hx with h | rfl
    · exact hownership.owner x h ho
    · cases ho
  · rw [hcount _ rfl]; exact hboot.one
  · rw [hbooting x hx] at hb; cases hb
  · rw [hbooting x hx] at hb; cases hb
  · rw [hcount _ rfl]; exact hmutex.one
  · rw [hcount _ rfl]; exact hmutex.free
  · rcases hnew x hx with h | rfl
    · exact hmutex.reading x h hr
    · cases hr
  · rcases hnew x hx with h | rfl
    · exact hreading.fresh x h hr
    · cases hr
  · rcases hnew x hx with h | rfl
    · exact hreading.known x h ho hk
    · cases ho

theorem base_outside {w : World} {cs : List Ctx} {x : Outside} {o : Occurrence Ctx World Body}
    (hB : Base P w cs) (ho : occur x w = some o) :
    (∀ bc ∈ o.starts, threadPre bc.1 bc.2) ∧
      Base P o.world ((if o.kill then [] else cs) ++ o.starts.map Prod.snd) := by
  rcases occur_cases ho with ⟨d, rfl⟩ | ⟨r, hs, rfl⟩ | ⟨salt, readable, -, -, rfl⟩
  · refine ⟨fun bc hbc => absurd hbc List.not_mem_nil, ?_⟩
    rw [List.map_nil, List.append_nil]
    exact ⟨⟨hB.ownership.one, hB.ownership.busy, hB.ownership.owner⟩,
      ⟨hB.boot.one, hB.boot.closed, hB.boot.before⟩,
      ⟨hB.mutex.one, hB.mutex.free, hB.mutex.reading⟩,
      ⟨hB.reading.hash, hB.reading.handles, hB.reading.last, hB.reading.answered,
        hB.reading.fresh, hB.reading.known⟩, hB.journal⟩
  · refine ⟨fun bc hbc => ?_, base_request hB hs⟩
    rw [List.mem_singleton.mp hbc]
    exact rfl
  · refine ⟨fun bc hbc => ?_, base_start hB salt readable⟩
    rw [List.mem_singleton.mp hbc]
    exact rfl

/-! ### What only a claim or an answer changes -/

/-- The actions that may bring the helper's answer to a write. -/
def Act.answers {β : Type} : Act β → Bool
  | .helperAnswer | .runEvent => true
  | _ => false

/-- What was asked for changes only with the operation. -/
theorem exec_asked {β : Type} {w w' : World} {c : Ctx} {a : Act β} {e : Choice} {r : β}
    (he : exec P t a c e w = some (r, w')) (ha : a.claims = false) :
    w'.history.asked = w.history.asked := by
  have hframe : a.touches .slot = false → w'.history.asked = w.history.asked :=
    fun h => (exec_same he .slot h).2
  cases a with
  | dropOperation | setOp _ _ | takeFound _ | onProgress _ _ _ =>
    simp only [exec, Option.some.injEq, Prod.mk.injEq] at he
    obtain ⟨-, rfl⟩ := he
    rfl
  | downloadInstalled data =>
    simp only [exec, Option.some.injEq, Prod.mk.injEq] at he
    obtain ⟨-, rfl⟩ := he
    exact (noteProduced_same _ (p := .slot) (by simp)).2
  | downloadBaseline before =>
    simp only [exec, Option.some.injEq, Prod.mk.injEq] at he
    obtain ⟨-, rfl⟩ := he
    exact (noteProduced_same _ (p := .slot) (by simp)).2
  | confirm _ _ _ =>
    rcases confirm_slot he with hs | ⟨_, _, _, _, _, _, _, _, _, _, _, _, hasked⟩
    · exact hs.2
    · exact hasked
  | putOperation _ | admitChange _ _ _ _ | claimDownload _ => cases ha
  | _ => exact hframe rfl

/-- The reads that count for the operation are only added to. -/
theorem exec_reads {β : Type} {w w' : World} {c : Ctx} {a : Act β} {e : Choice} {r : β}
    (he : exec P t a c e w = some (r, w')) (ha : a.claims = false) (hans : a.answers = false) :
    ∀ inv ∈ w.history.reads, inv ∈ w'.history.reads := by
  have hframe : a.touches .reads = false → ∀ inv ∈ w.history.reads, inv ∈ w'.history.reads :=
    fun h inv hinv => (show w'.history.reads = w.history.reads from exec_same he .reads h) ▸ hinv
  cases a with
  | absorbRead o ready =>
    obtain ⟨inner, habs, rfl⟩ := absorb_world he
    cases habs with
    | taken data _ hinv =>
      rw [noteAbsorbed_ok _ _ _ hinv, noteRead_reads]
      intro inv' h
      split
      · exact List.mem_append_left _ h
      · exact h
    | _ => exact fun _ h => h
  | putOperation _ | admitChange _ _ _ _ | claimDownload _ => cases ha
  | helperAnswer | runEvent => cases hans
  | _ => exact hframe rfl

/-- Neither does an answer to something else than a write change the world. -/
theorem exec_answers {β : Type} {w w' : World} {c : Ctx} {a : Act β} {e : Choice} {r : β}
    (he : exec P t a c e w = some (r, w')) (hans : a.answers = true) (hp : c.phase ≠ .running) :
    w' = w := by
  cases a with
  | helperAnswer =>
    cases e <;> simp only [exec, reduceCtorEq, Option.some.injEq, Prod.mk.injEq] at he
    obtain ⟨-, rfl⟩ := he
    exact w.noteAnswer_of_ne hp _ _
  | runEvent =>
    cases e <;> simp only [exec, reduceCtorEq, Option.some.injEq, Prod.mk.injEq] at he
    obtain ⟨-, rfl⟩ := he
    split
    · exact w.noteAnswer_of_ne hp _ _
    · rfl
  | _ => cases hans

/-! ### Runs -/

theorem base_act {β : Type} {w w' : World} {cs : List Ctx} {i : Nat} {c : Ctx} {a : Act β}
    {e : Choice} {r : β} (hB : Base P w cs) (hc : cs[i]? = some c) (hok : c.allows a)
    (he : exec P t a c e w = some (r, w')) :
    Base P w' (cs.set i (c.after a r w) ++ (spawns c a r).map Prod.snd) :=
  ⟨ownership_act hB hc hok he, boot_act hB hc hok he, mutex_act hB hc hok he,
    reading_act hB hc hok he, journalled_act hB hc hok he⟩

/-- A device before the agent's first start. -/
theorem base_fresh : Base P World.fresh [] :=
  have hnone : ∀ {p : Ctx → Prop}, ∀ c ∈ ([] : List Ctx), p c :=
    fun c hc => absurd hc List.not_mem_nil
  ⟨⟨by decide, by rintro ⟨⟩, hnone⟩, ⟨by decide, hnone, hnone⟩, ⟨by decide, fun _ => rfl, hnone⟩,
    ⟨by rintro _ ⟨⟩, by rintro _ ⟨⟩, by rintro _ ⟨⟩, fun h => absurd rfl h, hnone, hnone⟩,
      fun _ h => by cases h⟩

/-- A condition on the steps of the manager. -/
abbrev Steps := Condition Act Ctx World Choice Outside

/-- A run of the agent on a device, from before its first start, whose steps meet `K`. -/
abbrev Reaches (P : Platform) (t : Timing) (K : Steps) (s : AgentState) : Prop :=
  (manager P t).Run K AgentState.fresh s

/-- **Every run**: `Base` holds in every state, and every thread keeps the rules. -/
theorem base_run {K : Steps} {s : AgentState} (h : Reaches P t K s) :
    Base P s.world s.ctxs ∧ ∀ th ∈ s.threads, (regime P t).Keeps th :=
  Machine.sound (regime P t) (threadBody_keeps P t)
    (fun hB hc hok _ he => ⟨learns_act hB hc hok he, spawns_pre hok, base_act hB hc hok he⟩)
    (fun hB _ ho => base_outside hB ho) base_fresh
    (fun _ hth => absurd hth List.not_mem_nil) h

/-- An invariant on top of `Base`: it holds before the first start, every allowed action that
meets the condition keeps it, and so does every event from outside that meets it. -/
theorem run_invariant {K : Steps} {J : World → List Ctx → Prop}
    (hact : ∀ {β : Type} {w w' : World} {cs : List Ctx} {i : Nat} {c : Ctx} {a : Act β}
      {e : Choice} {r : β}, Base P w cs → J w cs → cs[i]? = some c → c.allows a →
        K.act w cs c a e → exec P t a c e w = some (r, w') →
        J w' (cs.set i (c.after a r w) ++ (spawns c a r).map Prod.snd))
    (hout : ∀ {w : World} {cs : List Ctx} {x : Outside} {o : Occurrence Ctx World Body},
      Base P w cs → J w cs → K.outside w x → occur x w = some o →
        J o.world ((if o.kill then [] else cs) ++ o.starts.map Prod.snd))
    (hJ : J World.fresh []) {s : AgentState} (h : Reaches P t K s) : J s.world s.ctxs :=
  Machine.sound_relative (regime P t) base_run hact hout hJ h

/-! ### Threads at a point of a run -/

/-- A thread that has ended. -/
def Ended (th : Thread Act Ctx Body) : Prop := th.prog = .pure .stop

/-- A thread that has ended left nothing behind. -/
theorem fin_of_ended {K : Steps} {s : AgentState} (h : Reaches P t K s)
    {th : Thread Act Ctx Body} (hth : th ∈ s.threads) (he : Ended th) : threadFin th.ctx := by
  have hkeeps := (base_run h).2 th hth
  rw [Machine.Regime.Keeps, he] at hkeeps
  exact hkeeps

/-- A thread about to perform an action is allowed to. -/
theorem allowed_of_act {K : Steps} {s : AgentState} (h : Reaches P t K s)
    {th : Thread Act Ctx Body} (hth : th ∈ s.threads) {β : Type} {a : Act β}
    {k : β → Prog (Next Body)} (hp : th.prog = .act a k) : th.ctx.allows a :=
  (Machine.Regime.keeps_act ((base_run h).2 th hth) hp).1

/-! ### A sample device -/

/-- The salt of the sample device's process. -/
def sampleSalt : List UInt8 := List.replicate 16 7

/-- Digests of salted values on the sample device. -/
def sampleDigests : List (String × List UInt8) := [
  ("iccid:8988", [0xb1, 0xe0, 0xff, 0x09, 0xdd, 0xd9, 0xee, 0x37, 0xd4, 0x7c, 0x1d, 0x26,
    0xb6, 0x38, 0xde, 0x05, 0xb0, 0x74, 0x98, 0x95, 0x7a, 0xe0, 0xf7, 0xf2, 0x57, 0xce,
    0x6e, 0x5a, 0x13, 0xf6, 0x42, 0x21]),
  ("iccid:8989", [0xb1, 0xfc, 0x77, 0x03, 0x8e, 0xac, 0xce, 0xe8, 0x47, 0xed, 0xf2, 0x12,
    0xef, 0x5e, 0xca, 0x01, 0xec, 0xbb, 0x7c, 0x72, 0x2e, 0xda, 0xc1, 0xf2, 0x40, 0xa8,
    0x20, 0x9a, 0x9d, 0xd9, 0xab, 0xf6]),
  ("eid:8904", [0x1f, 0xc3, 0x63, 0xf9, 0xc9, 0x5d, 0x7b, 0xff, 0x17, 0x2b, 0x09, 0xf5,
    0x16, 0x1f, 0xa3, 0xe0, 0x73, 0xd3, 0x5f, 0x39, 0xeb, 0x5d, 0x1d, 0xa9, 0x27, 0x47,
    0xe4, 0xb5, 0x2f, 0xbd, 0x2a, 0x89]),
  ("eid:8905", [0x01, 0x14, 0x18, 0x3e, 0xd9, 0xbb, 0xd4, 0x42, 0x8a, 0xdc, 0x27, 0x46,
    0x07, 0x3d, 0xa4, 0x76, 0x40, 0x54, 0x47, 0x37, 0xa1, 0xca, 0xcb, 0x6a, 0x1d, 0x52,
    0xbc, 0x58, 0x2b, 0x5e, 0x65, 0x11])]

/-- SHA-256 on the values the sample runs hash. -/
def sampleDigest (bytes : List UInt8) : List UInt8 :=
  ((sampleDigests.find? (fun d => sampleSalt ++ 0x3A :: d.1.toUTF8.data.toList == bytes)).map
    Prod.snd).getD (List.replicate 32 0)

theorem sampleDigest_length (bytes : List UInt8) : (sampleDigest bytes).length = 32 := by
  have h : ∀ d ∈ sampleDigests, d.2.length = 32 := by decide +kernel
  unfold sampleDigest
  cases hf : sampleDigests.find? _ with
  | none => rfl
  | some d => exact h d (List.mem_of_find?_eq_some hf)

/-- The platform of the sample device. -/
def samplePlatform : Platform := ⟨sampleDigest, sampleDigest_length⟩

/-- One entry of a sample card's profile list. -/
def sampleProfile (iccid state : String) : Value :=
  .obj [("iccid", .str iccid), ("state", .str state)]

/-- The helper's answer to an inventory run on a sample card. -/
def sampleInventory (eid : String) (profiles : List Value) (receipts : List Nat) : HelperOutcome :=
  .ok (.obj [("eid", .str eid), ("profiles", .arr profiles),
    ("notifications", .arr (receipts.map fun n => .obj [("seq", .num n)]))])

/-- A sample card with two profiles and one receipt. -/
def sampleCard : HelperOutcome :=
  sampleInventory "8904" [sampleProfile "8988" "disabled", sampleProfile "8989" "disabled"] [5]

/-- The body of a change request for the profile `iccid`. -/
def sampleChange (id iccid : String) : Option Value :=
  some (.obj [("operation_id", .str id), ("revision", .num 1),
    ("handle", .str (handleFor samplePlatform sampleSalt iccid))])

/-- An event of a sample run. -/
abbrev Turn := Event Choice Outside

/-- Thread `i` takes `n` turns that need no answer. -/
def turns (i n : Nat) : List Turn := List.replicate n (.thread i .none)

/-- Thread `i` writes a file. -/
def fileDone (i : Nat) : List Turn := [.thread i (.io .done)]

/-- Thread `i` asks the helper under the card mutex, and gets the answer `o`. -/
def askedTurns (i : Nat) (o : HelperOutcome) (left : List Nat) : List Turn :=
  turns i 2 ++ .thread i (.outcome o left) :: turns i 1

/-- Thread `i` reads the card under the mutex; a new card is saved. -/
def readTurns (i : Nat) (o : HelperOutcome) (newCard : Bool) : List Turn :=
  turns i 2 ++ .thread i (.outcome o) :: turns i 1
    ++ (if newCard then turns i 1 ++ fileDone i else []) ++ turns i 1

/-- The agent starts and finds no journal. -/
def startTurns : List Turn :=
  .outside (.restart sampleSalt true) :: turns 0 1 ++ fileDone 0
    ++ .thread 0 (.flag true) :: turns 0 2

/-- The agent has started and read the sample card: threads `0` and `1` have ended. -/
def loadedTurns : List Turn :=
  startTurns ++ .outside (.request .refresh) :: turns 1 1 ++ readTurns 1 sampleCard true ++
    turns 1 2

/-- Thread `2` admits the change `request` and thread `3` sends it; the helper answers `o`. -/
def switchTurns (request : HttpRequest) (o : HelperOutcome) : List Turn :=
  loadedTurns ++ .outside (.request request) :: turns 2 1 ++ fileDone 2 ++ turns 2 3
    ++ askedTurns 3 o []

/-- Thread `3` reads `card` to verify the change, and publishes its verdict. -/
def verifyTurns (request : HttpRequest) (o card : HelperOutcome) (newCard : Bool) : List Turn :=
  switchTurns request o ++ turns 3 6 ++ readTurns 3 card newCard ++ turns 3 2

/-- A list of events of the sample device is a run, to a state that is checked by evaluation. -/
theorem sample_run (K : Steps) (evs : List Turn) (p : AgentState → Bool)
    (h : ((manager samplePlatform {}).run K AgentState.fresh evs).any p = true) :
    ∃ s, Reaches samplePlatform {} K s ∧ p s = true :=
  Machine.Run.exists_of_run h

end OpenUI.Agent.Esim
