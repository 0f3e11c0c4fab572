import OpenUI.Agent.Esim.Manager

/-!
# `OpenUI.Proofs.Agent.Esim.Discipline`: what every thread of the manager keeps to

The programs of `Manager.lean` follow rules that no single action enforces: the helper is asked
only under the card mutex, a write is sent only by the thread that claimed the slot and recorded
the operation, a verdict is published once and only with grounds for it. `Ctx.allows` states
these rules as the obligation of each action, in the context of the thread that performs it.
`regime` adds what a thread body needs at its start and what a thread leaves behind at its end.

`Threads.lean` proves that every thread body keeps the rules, whatever the other threads and the
environment do. The invariants of the later modules use nothing else of the programs.

* `regime`: the rules, the preconditions of the bodies and what a thread leaves behind.
* `wp_saveState`, `wp_readCard`, `wp_finish`, `wp_queueReceipts`, …: one rule for each function
  that several threads call.
-/

set_option autoImplicit false

namespace OpenUI.Agent.Esim

open OpenUI.Json OpenUI.Text OpenUI.Concurrency

/-! ### The rules -/

/-- The kinds of `switch`: enable, disable and delete. -/
def Kind.isSwitch : Kind → Bool
  | .enable | .disable | .delete => true
  | .nickname | .download => false

/-- The thread acts for an operation of kind `kind`. -/
def Ctx.actsOn (c : Ctx) (kind : Kind) : Prop := ∃ id, c.op = some (id, kind)

/-- A thread the server has just started. -/
def Ctx.newClient : Ctx := { client := true }

/-- The verdicts a thread has grounds for. A definite answer is grounds for any verdict but
success, and for the success of a rename. While the write's fate is open, success and failure
need a look at the card; only a rename calls a garbled answer a failure. -/
def Ctx.mayPublish (c : Ctx) : OpState → Prop
  | .succeeded => c.evidence = .applied ∨ c.actsOn .nickname ∧ c.fate = .applied
  | .failed | .refused | .busy =>
    c.fate.isOpen = false ∨ c.evidence = .notApplied ∨ c.actsOn .nickname ∧ c.fate = .garbled
  | .cancelled => c.fate.isOpen = false
  | .unknown => True
  | _ => False

/-- The thread holds nothing it has to give back: no mutex, no read, no unsaved change, no
receipts without a worker. -/
def Ctx.Idle (c : Ctx) : Prop :=
  c.card = false ∧ c.reading = false ∧ c.dirty = false ∧ c.saving = none ∧ c.pushed = false ∧
    c.claimedWorker = false

/-- A thread that carries an operation of kind `kind` and stands in `phase`. -/
structure Ctx.Carries (kind : Kind) (phase : Phase) (c : Ctx) : Prop where
  op : c.actsOn kind
  phase : c.phase = phase
  recorded : c.recorded = true
  worker : c.worker = false
  booting : c.booting = false
  client : c.client = false

/-- A carrier after the write was answered: the answer is definite and positive (`accepted`), or
leaves the fate open. -/
structure Ctx.Settles (kind : Kind) (accepted : Bool) (c : Ctx) : Prop where
  carries : c.Carries kind .settling
  fate : if accepted then c.fate = .applied else c.fate.isOpen = true
  renamed : c.renamed = false

/-- The receipt worker between two rounds. -/
structure Ctx.IsWorker (c : Ctx) : Prop where
  idle : c.Idle
  worker : c.worker = true
  op : c.op = none
  phase : c.phase = .free
  booting : c.booting = false
  client : c.client = false
  owes : c.owes = false

/-- A carrier during the helper run of a download. -/
structure Ctx.Downloads (controls : Nat) (c : Ctx) : Prop where
  idle : ({ c with card := false } : Ctx).Idle
  card : c.card = true
  carries : c.Carries .download .running
  channel : c.channel = some controls
  renamed : c.renamed = false

/-- What a thread body needs of its context. -/
def threadPre : Body → Ctx → Prop
  | .main, c => c = .boot
  | .http _, c | .detect, c => c = .newClient
  | .runSwitch kind request, c => c.Idle ∧ c.Carries kind .claimed ∧ c.renamed = false ∧
    kind.isSwitch = true ∧ request.isSwitch = true
  | .verify kind accepted, c | .verifyLoop kind accepted _, c =>
    c.Idle ∧ c.Settles kind accepted ∧ kind.isSwitch = true
  | .runDownload request controls, c => c.Idle ∧ c.Carries .download .claimed ∧
    c.renamed = false ∧ c.channel = some controls ∧ request.isDownload = true
  | .downloadLoop controls _, c => c.Downloads controls
  | .settleDownload reported, c | .settleLoop reported _, c =>
    c.Idle ∧ c.Settles .download reported
  | .receiptWorker, c => c.IsWorker

/-- What a thread leaves behind when it ends: nothing. -/
structure threadFin (c : Ctx) : Prop where
  idle : c.Idle
  phase : c.phase = .free
  worker : c.worker = false
  booting : c.booting = false
  owes : c.owes = false

/-- What must hold when a thread asks the helper for `request`. -/
def Ctx.mayAsk (c : Ctx) : Request → Prop
  | .inventory => c.reading = false ∧ (c.client = true ∨ c.op.isSome = true)
  | .notify eid seqs => c.worker = true ∧ c.round = some (seqs, some eid)
  | .nickname _ _ _ => c.phase = .claimed ∧ c.actsOn .nickname ∨
    c.phase = .settling ∧ c.actsOn .download ∧ c.evidence = .applied ∧ c.renamed = false
  | .switch _ _ _ _ | .delete _ _ =>
    c.phase = .claimed ∧ c.recorded = true ∧ ∃ kind, kind.isSwitch = true ∧ c.actsOn kind
  | .download _ _ _ => c.phase = .claimed ∧ c.recorded = true ∧ c.actsOn .download

/-- The rules: what must hold of a thread that performs an action. -/
def Ctx.allows {β : Type} (c : Ctx) : Act β → Prop
  | .readJournal => c.booting = true ∧ c.op = none
  | .putOperation op => c.booting = true ∧ c.op = none ∧ c.phase = .free ∧
    ∃ j, c.journal = some j ∧ Operation.recovered j = some op
  | .serve => c.booting = true ∧ c.phase = .free
  | .snapshot => c.saving = none
  | .writeState v => ∃ n, c.saving = some (n, v)
  | .writeJournal op => c.phase = .claimed ∧ c.admitted = some op ∧ op.kind.isSwitch = true
  | .journalOperation => c.phase = .claimed ∧ c.actsOn .download
  | .journalExists | .removeJournal =>
    c.phase = .clearing ∨ c.phase = .free ∧ c.booting = true ∧ c.op = none
  | .lockCard | .tryLockCard => c.card = false
  | .unlockCard => c.card = true ∧ c.reading = false
  | .startHelper request => c.card = true ∧ c.mayAsk request
  | .helperAnswer => c.card = true ∧ (c.phase = .running → c.reading = false)
  | .absorbRead _ _ => c.card = true ∧ c.reading = true
  | .admitChange kind id _ _ =>
    c = .newClient ∧ validOperationId id = true ∧ kind ≠ .download
  | .claimDownload id => c = .newClient ∧ validOperationId id = true
  | .dropOperation => c.phase = .claimed
  | .spawn b =>
    match b with
    | .receiptWorker => c.claimedWorker = true ∧ c.worker = false
    | .detect => c.client = true
    | .runSwitch _ _ | .verify _ _ | .runDownload _ _ | .settleDownload _ =>
      c.owns = true ∧ threadPre b c.child ∧ c.renamed = false
    | _ => False
  | .setOp state _ => c.phase = .settling ∧ (state.resolved = true → c.mayPublish state)
  | .examine => c.phase = .settling ∧ c.readOk = true ∧ ∃ kind, kind.isSwitch ∧ c.actsOn kind
  | .findInstalled => c.phase = .settling ∧ c.readOk = true ∧ c.actsOn .download
  | .takeFound _ => c.phase = .settling ∧ c.evidence = .applied ∧ c.actsOn .download
  | .takeControl controls => c.Downloads controls
  | .sendControl _ => ∃ controls, c.Downloads controls
  | .runEvent | .onProgress _ _ _ =>
    c.card = true ∧ c.reading = false ∧ c.phase = .running ∧ c.actsOn .download
  | .downloadInstalled _ | .downloadBaseline _ =>
    c.phase = .settling ∧ c.actsOn .download
  | .pushReceipts seqs => c.worker = false ∧ seqs ≠ [] ∧
    ∃ found, c.receipts = some found ∧ found.seqs = seqs
  | .claimWorker => c.worker = false ∧ c.claimedWorker = false
  | .workerRound => c.IsWorker
  | .absorbDelivery _ => c.worker = true ∧ c.round.isSome = true
  | _ => True

/-- What a thread may rely on: renames are not journalled, an admitted operation is of the kind
asked for, and the operation a thread claimed or settles is there, with a card to settle it on. -/
def Ctx.learns {β : Type} (_ : Ctx) : Act β → β → Prop
  | .readJournal, r => ∀ j op, r = some j → Operation.recovered j = some op → op.kind ≠ .nickname
  | .admitChange kind _ _ _, r => ∀ a, r = .ok a → a.op.kind = kind
  | .journalOperation, r => r ≠ none
  | .findInstalled, r => r ≠ none
  | _, _ => True

/-- The rules, with what a body needs at its start and leaves at its end. -/
def regime (P : Platform) (t : Timing) : (manager P t).Regime where
  ok := Ctx.allows
  facts := Ctx.learns
  pre := threadPre
  fin := threadFin

variable {P : Platform} {t : Timing}

/-- The discipline of the rules. -/
abbrev rules (P : Platform) (t : Timing) : Discipline Act Ctx World := (regime P t).discipline

@[simp] theorem rules_ok {β : Type} (c : Ctx) (a : Act β) : (rules P t).ok c a = c.allows a := rfl
@[simp] theorem rules_facts {β : Type} (c : Ctx) (a : Act β) (r : β) :
    (rules P t).facts c a r = c.learns a r := rfl
@[simp] theorem rules_after {β : Type} (c : Ctx) (a : Act β) (r : β) (w : World) :
    (rules P t).after c a r w = c.after a r w := rfl

@[simp] theorem isOk_ok {ε α : Type} (a : α) : (Except.ok a : Except ε α).isOk = true := rfl
@[simp] theorem isOk_error {ε α : Type} (e : ε) : (Except.error e : Except ε α).isOk = false := rfl

attribute [simp] Ctx.allows Ctx.learns Ctx.after

/-- One action in front of a program: the thread may perform it, and the rest is fine after it. -/
theorem wp_step {α β : Type} {a : Act β} {f : β → Prog α} {c : Ctx} {Q : Ctx → α → Prop}
    (hok : c.allows a) (hq : ∀ r w, c.learns a r → (rules P t).wp (f r) Q (c.after a r w)) :
    (rules P t).wp (liftM a >>= f) Q c := ⟨hok, hq⟩

theorem wp_onlyIf {b : Bool} {p : Prog Unit} {c : Ctx} {Q : Ctx → Unit → Prop}
    (ht : b = true → (rules P t).wp p Q c) (hf : b = false → Q c ()) :
    (rules P t).wp (onlyIf b p) Q c := by
  cases b
  · exact hf rfl
  · exact ht rfl

theorem wp_ignore {α : Type} {p : Prog α} {c : Ctx} {Q : Ctx → Unit → Prop}
    (h : (rules P t).wp p (fun c' _ => Q c' ()) c) : (rules P t).wp (ignore p) Q c := by
  rw [ignore, Discipline.wp_bind]
  exact h

theorem wp_saveState {c : Ctx} {Q : Ctx → Unit → Prop} (hs : c.saving = none)
    (hq : Q { c with dirty := false, saving := none } ()) : (rules P t).wp saveState Q c := by
  rw [saveState]
  refine wp_step hs fun v w _ => wp_ignore ⟨⟨_, rfl⟩, fun _ w' _ => ?_⟩
  simpa using hq

theorem wp_askSimReady {c : Ctx} {o : HelperOutcome} {Q : Ctx → Bool → Prop}
    (hq : ∀ b, Q c b) : (rules P t).wp (askSimReady o) Q c := by
  unfold askSimReady
  split
  · split
    · exact ⟨trivial, fun b _ _ => hq b⟩
    · exact hq false
  · exact hq false

/-- The context after a read. -/
def Ctx.afterRead (c : Ctx) (ok : Bool) : Ctx :=
  { c with fresh := false, readOk := c.readOk || (c.phase == .settling && ok) }

theorem wp_absorbRead {c : Ctx} {o : HelperOutcome}
    {Q : Ctx → Except (String × String) Unit → Prop} (hc : c.card = true)
    (hr : c.reading = true) (hd : c.dirty = false) (hs : c.saving = none)
    (hq : ∀ r : Except (String × String) Unit, Q ({ c with reading := false }.afterRead r.isOk) r) :
    (rules P t).wp (absorbRead o) Q c := by
  rw [absorbRead, Discipline.wp_bind]
  refine wp_askSimReady fun simReady => ?_
  refine wp_step ⟨hc, hr⟩ fun r w _ => ?_
  cases r with
  | error e => simpa [hd, hs, Ctx.afterRead] using hq (.error e)
  | ok newCard =>
    refine (Discipline.wp_bind _ _ _ _ _).mpr (wp_onlyIf (fun hn => wp_saveState hs ?_) fun hn =>
      ?_)
    · simpa [hd, hs, Ctx.afterRead] using hq (.ok ())
    · simpa [hd, hs, hn, Ctx.afterRead] using hq (.ok ())

theorem wp_helper {c : Ctx} {request : Request} {Q : Ctx → HelperOutcome → Prop}
    (hc : c.card = true) (hm : c.mayAsk request)
    (hr : ∀ w, (c.after (.startHelper request) () w).phase = .running →
      (c.after (.startHelper request) () w).reading = false)
    (hq : ∀ o w, Q ((c.after (.startHelper request) () w).answered o) o) :
    (rules P t).wp (helper request) Q c := by
  rw [helper, Discipline.wp_bind]
  refine ⟨⟨hc, hm⟩, fun _ w _ => ⟨⟨?_, hr w⟩, fun o w' _ => hq o w⟩⟩
  cases request <;> simp <;> (try split) <;> exact hc

theorem wp_readLocked {c : Ctx} {Q : Ctx → Except (String × String) Unit → Prop}
    (hi : { c with card := false }.Idle) (hc : c.card = true) (hp : c.phase ≠ .running)
    (hm : c.client = true ∨ c.op.isSome = true)
    (hq : ∀ r : Except (String × String) Unit, Q ({ c with card := false }.afterRead r.isOk) r) :
    (rules P t).wp readLocked Q c := by
  rw [readLocked, Discipline.wp_bind]
  refine wp_helper hc ⟨hi.2.1, hm⟩ (fun _ h => absurd h hp) fun o w => ?_
  rw [Discipline.wp_bind]
  refine wp_absorbRead ?_ ?_ ?_ ?_ fun r => ?_
  · simpa [Ctx.answered, hp] using hc
  · simp [Ctx.answered, hp]
  · simpa [Ctx.answered, hp] using hi.2.2.1
  · simpa [Ctx.answered, hp] using hi.2.2.2.1
  · refine wp_step ⟨?_, ?_⟩ fun _ w' _ => ?_
    · simpa [Ctx.answered, hp, Ctx.afterRead] using hc
    · simp [Ctx.afterRead]
    · have := hq r
      have hr : c.reading = false := hi.2.1
      simpa [Ctx.answered, hp, Ctx.afterRead, hr] using this

theorem wp_readCard {c : Ctx} {Q : Ctx → Except (String × String) Unit → Prop}
    (hi : c.Idle) (hp : c.phase ≠ .running) (hm : c.client = true ∨ c.op.isSome = true)
    (hq : ∀ r : Except (String × String) Unit, Q (c.afterRead r.isOk) r) :
    (rules P t).wp readCard Q c := by
  rw [readCard]
  refine wp_step hi.1 fun _ w _ => ?_
  have hc := hi.1
  refine wp_readLocked ⟨rfl, hi.2⟩ rfl hp hm
    fun r => ?_
  simpa [Ctx.afterRead, hc] using hq r

theorem wp_clearJournal {c : Ctx} {Q : Ctx → Unit → Prop}
    (hp : c.phase = .clearing ∨ c.phase = .free ∧ c.booting = true ∧ c.op = none)
    (hq : ∀ j, Q { c with phase := .free, journal := j } ()) :
    (rules P t).wp clearJournal Q c := by
  rw [clearJournal]
  refine wp_step hp fun found w _ => wp_onlyIf (fun hf => ?_) fun hf => ?_
  · subst hf
    exact wp_ignore ⟨hp, fun r w' _ => hq none⟩
  · subst hf
    exact hq c.journal

/-- The context after `finish`. -/
def Ctx.finished (c : Ctx) (state : OpState) (j : Option Value) : Ctx :=
  { c with phase := .free, owes := c.stillOwes state, journal := j }

theorem wp_finish {c : Ctx} {state : OpState} {message : Option String} {Q : Ctx → Unit → Prop}
    (hp : c.phase = .settling) (hrec : c.recorded = true) (hres : state.resolved = true)
    (hv : c.mayPublish state) (hq : ∀ j, Q (c.finished state j) ()) :
    (rules P t).wp (finish state message) Q c := by
  rw [finish]
  refine wp_step ⟨hp, fun _ => hv⟩ fun _ w _ => ?_
  refine wp_step trivial fun _ w' _ => ?_
  refine wp_clearJournal ?_ fun j => ?_
  · simp [hres, Ctx.publish, hrec]
  · simpa [hres, Ctx.publish, Ctx.finished] using hq j

theorem wp_startReceiptWorker {c : Ctx} {Q : Ctx → Unit → Prop} (hw : c.worker = false)
    (hcl : c.claimedWorker = false) (hq : Q { c with pushed := false, claimedWorker := false } ()) :
    (rules P t).wp startReceiptWorker Q c := by
  rw [startReceiptWorker]
  refine wp_step ⟨hw, hcl⟩ fun claimed w _ => wp_onlyIf (fun hc => ?_) fun hc => ?_
  · exact ⟨⟨hc, hw⟩, fun _ w' _ => hq⟩
  · subst hc
    exact hq

theorem wp_queueReceipts {c : Ctx} {seqs : List Nat} {Q : Ctx → Unit → Prop} (hi : c.Idle)
    (hw : c.worker = false) (hf : ∃ found, c.receipts = some found ∧ found.seqs = seqs)
    (hq : Q { c with owes := if seqs = [] then c.owes else false } ()) :
    (rules P t).wp (queueReceipts seqs) Q c := by
  rw [queueReceipts]
  split
  · rename_i h
    simpa [h] using hq
  · rename_i h
    refine wp_step ⟨hw, h, hf⟩ fun _ w _ => ?_
    rw [Discipline.wp_bind]
    refine wp_saveState hi.2.2.2.1 (wp_startReceiptWorker hw hi.2.2.2.2.2 ?_)
    simpa [h, hi.2.2.1, hi.2.2.2.1, hi.2.2.2.2.1, hi.2.2.2.2.2] using hq

theorem wp_queueNewReceiptsAfterRead {c : Ctx} {Q : Ctx → Unit → Prop} (hi : c.Idle)
    (hw : c.worker = false) (hq : ∀ found, Q { c with receipts := some found, owes := false } ()) :
    (rules P t).wp queueNewReceiptsAfterRead Q c := by
  rw [queueNewReceiptsAfterRead]
  refine wp_step trivial fun new w _ => ?_
  refine wp_queueReceipts hi hw
    ⟨_, rfl, rfl⟩ ?_
  cases new <;> simpa using hq _

theorem wp_answerView {c : Ctx} {code : Nat} {Q : Ctx → Answer → Prop} (hq : ∀ a, Q c a) :
    (rules P t).wp (answerView code) Q c := ⟨trivial, fun _ _ _ => hq _⟩

theorem wp_refuse {c : Ctx} {refusal : Refusal} {Q : Ctx → Answer → Prop} (hq : ∀ a, Q c a) :
    (rules P t).wp (refuse refusal) Q c := by
  cases refusal with
  | answer code error => exact hq _
  | repeated => exact wp_answerView hq

end OpenUI.Agent.Esim
