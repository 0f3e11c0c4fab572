import OpenUI.Proofs.Agent.Esim.Discipline

/-!
# `OpenUI.Proofs.Agent.Esim.Frames`: what an action leaves alone

The invariants of the manager speak of parts of the world and of parts of a thread's context.
`Act.touches` lists the parts of the world an action may change and `exec_same` proves that it
keeps all others. `Act.moves` lists the actions that change what a thread stands for, and
`after_role` proves that the others keep it. With these an invariant is checked at the few
actions that touch what it speaks of.
-/

set_option autoImplicit false

namespace OpenUI.Agent.Esim

open OpenUI.Json OpenUI.Text OpenUI.Concurrency

variable {P : Platform} {t : Timing}

/-! ### The world -/

/-- The parts of the world the invariants speak of. -/
inductive Part where
  | salt
  | slot
  | fate
  | reads
  | produced
  | card
  | revision
  | locks
  | queue
  | mutex
  | journal
  | file
  | sent
  | notified
  | requested
  | chans
  | serving

/-- Two worlds agree on a part. -/
def World.Same (w w' : World) : Part → Prop
  | .salt => w'.inner.salt = w.inner.salt
  | .slot => w'.inner.operation = w.inner.operation ∧ w'.history.asked = w.history.asked
  | .fate => w'.history.fate = w.history.fate ∧ w'.history.leftNow = w.history.leftNow ∧
    w'.history.left = w.history.left
  | .reads => w'.history.reads = w.history.reads
  | .produced => w'.history.produced = w.history.produced
  | .card => w'.inner.card = w.inner.card ∧ w'.inner.inventory = w.inner.inventory
  | .revision => w'.inner.revision = w.inner.revision
  | .locks => w'.inner.locked = w.inner.locked
  | .queue => w'.inner.receipts = w.inner.receipts ∧ w'.history.queued = w.history.queued ∧
    w'.history.due = w.history.due
  | .mutex => w'.card = w.card
  | .journal => w'.journalFile = w.journalFile ∧ w'.history.journalAsked = w.history.journalAsked
  | .file => w'.stateFile = w.stateFile ∧ w'.history.snapshots = w.history.snapshots ∧
    w'.history.lastSnapshot = w.history.lastSnapshot ∧ w'.history.landed = w.history.landed
  | .sent => w'.history.sent = w.history.sent
  | .notified => w'.history.notified = w.history.notified
  | .requested => w'.history.requested = w.history.requested
  | .chans => w'.chans = w.chans ∧ w'.history.accepted = w.history.accepted
  | .serving => w'.serving = w.serving

section
attribute [local simp] World.Same
end

/-- The parts an action may change. -/
def Act.touches {β : Type} : Act β → Part → Bool
  | .putOperation _, .slot | .putOperation _, .fate | .putOperation _, .reads => true
  | .serve, .serving => true
  | .snapshot, .file | .writeState _, .file => true
  | .writeJournal _, .journal | .journalOperation, .journal | .removeJournal, .journal => true
  | .lockCard, .mutex | .tryLockCard, .mutex | .unlockCard, .mutex => true
  | .startHelper _, .sent | .startHelper _, .notified => true
  | .helperAnswer, .fate | .helperAnswer, .reads | .runEvent, .fate | .runEvent, .reads => true
  | .absorbRead _ _, .card | .absorbRead _ _, .revision | .absorbRead _ _, .reads
  | .absorbRead _ _, .produced | .absorbRead _ _, .queue => true
  | .admitChange _ _ _ _, .slot | .admitChange _ _ _ _, .fate | .admitChange _ _ _ _, .reads => true
  | .claimDownload _, .slot | .claimDownload _, .fate | .claimDownload _, .reads
  | .claimDownload _, .chans => true
  | .dropOperation, .slot | .setOp _ _, .slot | .takeFound _, .slot | .onProgress _ _ _,
      .slot => true
  | .downloadInstalled _, .slot | .downloadInstalled _, .produced
  | .downloadBaseline _, .slot | .downloadBaseline _, .produced => true
  | .confirm _ _ _, .slot | .confirm _ _ _, .chans | .cancel _, .chans
  | .takeControl _, .chans => true
  | .setLock _ _, .locks => true
  | .listedReceipts, .requested => true
  | .pushReceipts _, .queue | .claimWorker, .queue | .workerRound, .queue
  | .absorbDelivery _, .queue => true
  | _, _ => false


theorem absorbRead_frame (P : Platform) (t : Timing) (now : Nat) (o : HelperOutcome) (ready : Bool)
    (inner : Inner) :
    (inner.absorbRead P t now o ready).2.operation = inner.operation ∧
      (inner.absorbRead P t now o ready).2.locked = inner.locked ∧
      (inner.absorbRead P t now o ready).2.salt = inner.salt := by
  unfold Inner.absorbRead
  split
  · dsimp only
    split <;> simp [Inner.takeInventory, Inner.readFailed]
  · dsimp only
    repeat' split
    all_goals simp [Inner.readFailed]
  all_goals simp [Inner.readFailed]


/-- Noting what a read produced changes nothing else. -/
theorem noteProduced_same (w : World) {p : Part} (hp : p ≠ .produced) :
    w.Same w.noteProduced p := by
  unfold World.noteProduced
  split <;> cases p <;> simp_all [World.Same, World.note]

theorem noteFate_same (w : World) (fate : Fate) (left : List Nat) {p : Part} (hf : p ≠ .fate)
    (hr : p ≠ .reads) : w.Same (w.noteFate fate left) p := by
  cases p <;> simp_all [World.Same, World.noteFate, World.note]

theorem World.Same.refl (w : World) (p : Part) : w.Same w p := by
  cases p <;> simp [World.Same]

theorem World.Same.trans {w₁ w₂ w₃ : World} {p : Part} (h : w₁.Same w₂ p) (h' : w₂.Same w₃ p) :
    w₁.Same w₃ p := by
  cases p <;> simp_all [World.Same]

theorem noteAnswer_same (w : World) (ph : Phase) (o : HelperOutcome) (left : List Nat) {p : Part}
    (hf : p ≠ .fate) (hr : p ≠ .reads) : w.Same (w.noteAnswer ph o left) p := by
  unfold World.noteAnswer
  split
  · exact noteFate_same w o.fate left hf hr
  · exact .refl w p

theorem noteCard_same (w : World) (newCard : Bool) {p : Part} (hq : p ≠ .queue) :
    w.Same (w.noteCard newCard) p := by
  cases p <;> simp_all [World.Same, World.noteCard, World.note]

theorem noteRead_same (w : World) (fresh : Bool) (inv : Inventory) {p : Part}
    (hr : p ≠ .reads) (hp : p ≠ .produced) : w.Same (w.noteRead fresh inv) p := by
  unfold World.noteRead
  split
  · refine .trans ?_ (noteProduced_same _ hp)
    cases p <;> simp_all [World.Same, World.note]
  · exact .refl w p

theorem noteClaim_same (w : World) (op : Operation) (eid : String) {p : Part}
    (hs : p ≠ .slot) (hf : p ≠ .fate) (hr : p ≠ .reads) : w.Same (w.noteClaim op eid) p := by
  cases p <;> simp_all [World.Same, World.noteClaim, World.note]

theorem noteQueued_same (w : World) (found : Option Found) (seqs : List Nat) {p : Part}
    (hq : p ≠ .queue) : w.Same (w.noteQueued P found seqs) p := by
  unfold World.noteQueued
  split <;> cases p <;> simp_all [World.Same, World.note]

theorem noteDelivery_same (w : World) (eid : Option String) (o : HelperOutcome) {p : Part}
    (hq : p ≠ .queue) : w.Same (w.noteDelivery eid o) p := by
  unfold World.noteDelivery
  repeat' split
  all_goals cases p <;> simp_all [World.Same, World.note]

/-- What a section of the mutex leaves alone, part by part. -/
theorem inner_same {w : World} {inner : Inner} (p : Part) (hsalt : inner.salt = w.inner.salt)
    (hs : p = .slot → inner.operation = w.inner.operation)
    (hc : p = .card → inner.card = w.inner.card ∧ inner.inventory = w.inner.inventory)
    (hl : p = .locks → inner.locked = w.inner.locked)
    (hq : p = .queue → inner.receipts = w.inner.receipts)
    (hv : p = .revision → inner.revision = w.inner.revision := by exact fun _ => rfl) :
    w.Same { w with inner } p := by
  cases p <;> simp_all [World.Same]

/-- `admit` and `download` touch nothing but the slot. -/
theorem admitChange_frame (kind : Kind) (id handle : String) (revision : Nat) (inner : Inner) :
    ∃ op, (inner.admitChange kind id handle revision).2 = { inner with operation := op } := by
  unfold Inner.admitChange
  repeat' split
  all_goals first
    | exact ⟨inner.operation, rfl⟩
    | exact ⟨_, rfl⟩

theorem claimDownload_frame (id : String) (ch : Nat) (inner : Inner) :
    ∃ op, (inner.claimDownload id ch).2 = { inner with operation := op } := by
  unfold Inner.claimDownload
  repeat' split
  all_goals first
    | exact ⟨inner.operation, rfl⟩
    | exact ⟨_, rfl⟩

theorem setLock_frame (handle : String) (locked : Bool) (inner : Inner) :
    ∃ l, (inner.setLock handle locked).2 = { inner with locked := l } := by
  unfold Inner.setLock
  split
  · exact ⟨_, rfl⟩
  · exact ⟨inner.locked, rfl⟩

theorem absorbDelivery_frame (o : HelperOutcome) (inner : Inner) :
    ∃ q a, inner.absorbDelivery o = { inner with receipts := q, readAttempt := a } := by
  unfold Inner.absorbDelivery
  dsimp only
  repeat' split
  all_goals exact ⟨_, _, rfl⟩

theorem claimWorker_frame (inner : Inner) :
    ∃ q, inner.claimWorker.2 = { inner with receipts := q } := by
  unfold Inner.claimWorker
  split
  · exact ⟨inner.receipts, rfl⟩
  · exact ⟨_, rfl⟩

theorem workerRound_frame (inner : Inner) :
    ∃ q, inner.workerRound.2 = { inner with receipts := q } := by
  unfold Inner.workerRound
  split
  · exact ⟨_, rfl⟩
  · exact ⟨inner.receipts, rfl⟩

theorem ne_of_touches {β : Type} {a : Act β} {p q : Part} (hp : a.touches p = false)
    (hq : a.touches q = true) : p ≠ q := by
  rintro rfl
  rw [hq] at hp
  cases hp

section Touched

variable {c : Ctx} {e : Choice} {w w' : World} (p : Part)

/-- The end of a read touches the card, the queue and the revision. -/
theorem absorbRead_same {o : HelperOutcome} {ready : Bool}
    {r : Except (String × String) Bool} (he : exec P t (.absorbRead o ready) c e w = some (r, w'))
    (hp : Act.touches (.absorbRead o ready) p = false) : w.Same w' p := by
  have hne : ∀ {q : Part}, Act.touches (.absorbRead o ready) q = true → p ≠ q := ne_of_touches hp
  simp only [exec, Option.some.injEq, Prod.mk.injEq] at he
  obtain ⟨-, rfl⟩ := he
  have hframe := absorbRead_frame P t w.now o ready w.inner
  have hsame : w.Same { w with inner := (w.inner.absorbRead P t w.now o ready).2 } p :=
    inner_same p hframe.2.2 (fun _ => hframe.1) (fun h => absurd h (hne rfl))
      (fun _ => hframe.2.1)
      (fun h => absurd h (hne rfl)) (fun h => absurd h (hne rfl))
  unfold World.noteAbsorbed
  split
  · split
    · exact hsame.trans ((noteCard_same _ _ (hne rfl)).trans
        (noteRead_same _ _ _ (hne rfl) (hne rfl)))
    · exact hsame
  · exact hsame

/-- The admission of a change touches the slot, and writes down whose it is. -/
theorem admitChange_same {kind : Kind} {id handle : String} {revision : Nat}
    {r : Except Refusal Admitted}
    (he : exec P t (.admitChange kind id handle revision) c e w = some (r, w'))
    (hp : Act.touches (.admitChange kind id handle revision) p = false) : w.Same w' p := by
  have hne : ∀ {q : Part}, Act.touches (.admitChange kind id handle revision) q = true → p ≠ q :=
    ne_of_touches hp
  obtain ⟨op', hop⟩ := admitChange_frame kind id handle revision w.inner
  have hsame : w.Same { w with inner := (w.inner.admitChange kind id handle revision).2 } p := by
    rw [hop]
    exact inner_same p rfl (fun h => absurd h (hne rfl)) (fun _ => ⟨rfl, rfl⟩) (fun _ => rfl)
      (fun _ => rfl)
  simp only [exec] at he
  split at he
  · rename_i a inner h
    simp only [Option.some.injEq, Prod.mk.injEq] at he
    obtain ⟨-, rfl⟩ := he
    rw [h] at hsame
    exact hsame.trans (noteClaim_same _ _ _ (hne rfl) (hne rfl) (hne rfl))
  · rename_i a inner h
    simp only [Option.some.injEq, Prod.mk.injEq] at he
    obtain ⟨-, rfl⟩ := he
    rw [h] at hsame
    exact hsame

/-- The claim of a download touches the slot too, and opens a channel for its decision. -/
theorem claimDownload_same {id : String}
    {r : Except Refusal (String × Nat)} (he : exec P t (.claimDownload id) c e w = some (r, w'))
    (hp : Act.touches (.claimDownload id) p = false) : w.Same w' p := by
  have hne : ∀ {q : Part}, Act.touches (.claimDownload id) q = true → p ≠ q := ne_of_touches hp
  obtain ⟨op', hop⟩ := claimDownload_frame id w.chans.length w.inner
  have hsame : w.Same { w with inner := (w.inner.claimDownload id w.chans.length).2 } p := by
    rw [hop]
    exact inner_same p rfl (fun h => absurd h (hne rfl)) (fun _ => ⟨rfl, rfl⟩) (fun _ => rfl)
      (fun _ => rfl)
  simp only [exec] at he
  split at he
  · rename_i a inner h
    simp only [Option.some.injEq, Prod.mk.injEq] at he
    obtain ⟨-, rfl⟩ := he
    rw [h] at hsame
    have hchans : w.Same { w with inner := inner, chans := w.chans ++ [[]] } p := by
      have := hne (q := .chans) rfl
      cases p <;> simp_all [World.Same]
    split
    · exact hchans.trans (noteClaim_same _ _ _ (hne rfl) (hne rfl) (hne rfl))
    · exact hchans
  · rename_i a inner h
    simp only [Option.some.injEq, Prod.mk.injEq] at he
    obtain ⟨-, rfl⟩ := he
    rw [h] at hsame
    exact hsame

/-- `download_confirm` touches the slot and the channel. -/
theorem confirm_same {id : Option String} {install : Bool}
    {nickname : Option String}
    {r : Except String Unit} (he : exec P t (.confirm id install nickname) c e w = some (r, w'))
    (hp : Act.touches (.confirm id install nickname) p = false) : w.Same w' p := by
  have hne : ∀ {q : Part}, Act.touches (.confirm id install nickname) q = true → p ≠ q :=
    ne_of_touches hp
  simp only [exec] at he
  split at he
  · simp only [Option.some.injEq, Prod.mk.injEq] at he
    obtain ⟨-, rfl⟩ := he
    exact .refl w p
  · split at he
    · simp only [Option.some.injEq, Prod.mk.injEq] at he
      obtain ⟨-, rfl⟩ := he
      cases p <;> first
        | (simp [World.Same]; done)
        | cases hp
    · simp only [Option.some.injEq, Prod.mk.injEq] at he
      obtain ⟨-, rfl⟩ := he
      cases p <;> first
        | (simp [World.Same, World.note, World.sendOn, Inner.confirmed]; done)
        | cases hp

end Touched

/-- **Everything else is unchanged**: an action keeps the parts of the world it does not touch. -/
theorem exec_same {β : Type} {a : Act β} {c : Ctx} {e : Choice} {w w' : World} {r : β}
    (he : exec P t a c e w = some (r, w')) (p : Part) (hp : a.touches p = false) : w.Same w' p := by
  have hne : ∀ {q : Part}, a.touches q = true → p ≠ q := ne_of_touches hp
  cases a with
  | ask q =>
    simp only [exec, Option.map_eq_some_iff, Prod.mk.injEq] at he
    obtain ⟨b, hb, -, rfl⟩ := he
    exact .refl w p
  | readJournal =>
    cases e <;> simp only [exec, reduceCtorEq, Option.some.injEq, Prod.mk.injEq] at he
    obtain ⟨-, rfl⟩ := he
    exact .refl w p
  | putOperation op =>
    cases e <;> simp only [exec, reduceCtorEq, Option.some.injEq, Prod.mk.injEq] at he
    obtain ⟨-, rfl⟩ := he
    refine .trans ?_ (noteFate_same _ _ _ (hne rfl) (hne rfl))
    have := hne (q := .slot) rfl
    cases p <;> simp_all [World.Same, World.note]
  | writeState v | writeJournal op =>
    cases e <;> simp only [exec, reduceCtorEq, Option.some.injEq, Prod.mk.injEq] at he
    obtain ⟨-, rfl⟩ := he
    split
    · cases p <;> first
        | (simp [World.Same, World.note, World.putJournal]; done)
        | cases hp
    · exact .refl w p
  | journalOperation | removeJournal =>
    cases e <;> simp only [exec, reduceCtorEq] at he
    split at he
    · simp only [Option.some.injEq, Prod.mk.injEq] at he
      obtain ⟨-, rfl⟩ := he
      split
      · cases p <;> first
          | (simp [World.Same, World.note, World.putJournal]; done)
          | cases hp
      · exact .refl w p
    · simp only [Option.some.injEq, Prod.mk.injEq] at he
      obtain ⟨-, rfl⟩ := he
      exact .refl w p
  | helperAnswer =>
    cases e <;> simp only [exec, reduceCtorEq, Option.some.injEq, Prod.mk.injEq] at he
    obtain ⟨-, rfl⟩ := he
    exact noteAnswer_same w _ _ _ (hne rfl) (hne rfl)
  | runEvent =>
    cases e <;> simp only [exec, reduceCtorEq, Option.some.injEq, Prod.mk.injEq] at he
    obtain ⟨-, rfl⟩ := he
    split
    · exact noteAnswer_same w _ _ _ (hne rfl) (hne rfl)
    · exact .refl w p
  | absorbRead o ready => exact absorbRead_same p he hp
  | admitChange kind id handle revision => exact admitChange_same p he hp
  | claimDownload id => exact claimDownload_same p he hp
  | confirm id install nickname => exact confirm_same p he hp
  | cancel id =>
    simp only [exec] at he
    repeat' split at he
    all_goals
      simp only [Option.some.injEq, Prod.mk.injEq] at he
      obtain ⟨-, rfl⟩ := he
      cases p <;> first
        | (simp [World.Same, World.sendOn]; done)
        | cases hp
  | lockCard | tryLockCard | takeControl ch | listedReceipts =>
    simp only [exec] at he
    repeat' split at he
    all_goals
      simp only [reduceCtorEq, Option.some.injEq, Prod.mk.injEq] at he
      try obtain ⟨-, rfl⟩ := he
      try cases p <;> first
        | (simp [World.Same, World.note]; done)
        | cases hp
  | summary =>
    simp only [exec, Option.some.injEq, Prod.mk.injEq] at he
    obtain ⟨-, rfl⟩ := he
    have hsummary : ∃ d a, (w.inner.summary w.now).2
        = { w.inner with detectRunning := d, detectedAt := a } := by
      unfold Inner.summary
      dsimp only
      split
      · exact ⟨_, _, rfl⟩
      · exact ⟨w.inner.detectRunning, w.inner.detectedAt, rfl⟩
    obtain ⟨d, at', hd⟩ := hsummary
    rw [hd]
    exact inner_same p rfl (fun _ => rfl) (fun _ => ⟨rfl, rfl⟩) (fun _ => rfl) fun _ => rfl
  | setLock handle locked =>
    simp only [exec, Option.some.injEq, Prod.mk.injEq] at he
    obtain ⟨-, rfl⟩ := he
    obtain ⟨l, hl⟩ := setLock_frame handle locked w.inner
    rw [hl]
    exact inner_same p rfl (fun _ => rfl) (fun _ => ⟨rfl, rfl⟩) (fun h => absurd h (hne rfl))
      fun _ => rfl
  | downloadInstalled data | downloadBaseline before =>
    simp only [exec, Option.some.injEq, Prod.mk.injEq] at he
    obtain ⟨-, rfl⟩ := he
    refine .trans ?_ (noteProduced_same _ (hne rfl))
    exact inner_same p rfl (fun h => absurd h (hne rfl)) (fun _ => ⟨rfl, rfl⟩) (fun _ => rfl)
      fun _ => rfl
  | pushReceipts seqs =>
    simp only [exec, Option.some.injEq, Prod.mk.injEq] at he
    obtain ⟨-, rfl⟩ := he
    refine .trans ?_ (noteQueued_same _ _ _ (hne rfl))
    exact inner_same p rfl (fun _ => rfl) (fun _ => ⟨rfl, rfl⟩) (fun _ => rfl) fun h => absurd h
      (hne rfl)
  | absorbDelivery o =>
    simp only [exec, Option.some.injEq, Prod.mk.injEq] at he
    obtain ⟨-, rfl⟩ := he
    refine .trans ?_ (noteDelivery_same _ _ _ (hne rfl))
    obtain ⟨q, a, hq⟩ := absorbDelivery_frame o w.inner
    rw [hq]
    exact inner_same p rfl (fun _ => rfl) (fun _ => ⟨rfl, rfl⟩) (fun _ => rfl)
      fun h => absurd h (hne rfl)
  | claimWorker =>
    simp only [exec, Option.some.injEq, Prod.mk.injEq] at he
    obtain ⟨-, rfl⟩ := he
    obtain ⟨q, hq⟩ := claimWorker_frame w.inner
    rw [hq]
    exact inner_same p rfl (fun _ => rfl) (fun _ => ⟨rfl, rfl⟩) (fun _ => rfl)
      fun h => absurd h (hne rfl)
  | workerRound =>
    simp only [exec, Option.some.injEq, Prod.mk.injEq] at he
    obtain ⟨-, rfl⟩ := he
    obtain ⟨q, hq⟩ := workerRound_frame w.inner
    rw [hq]
    exact inner_same p rfl (fun _ => rfl) (fun _ => ⟨rfl, rfl⟩) (fun _ => rfl)
      fun h => absurd h (hne rfl)
  | takeFound _ | onProgress _ _ _ | setOp _ _ | dropOperation =>
    simp only [exec, Option.some.injEq, Prod.mk.injEq] at he
    obtain ⟨-, rfl⟩ := he
    exact inner_same p rfl (fun h => absurd h (hne rfl)) (fun _ => ⟨rfl, rfl⟩) (fun _ => rfl)
      fun _ => rfl
  | _ =>
    simp only [exec, Option.some.injEq, Prod.mk.injEq] at he
    obtain ⟨-, rfl⟩ := he
    cases p <;> first
      | (simp [World.Same, World.note, Inner.detectDone]; done)
      | cases hp

/-- The salt of the process never changes. -/
theorem exec_salt {β : Type} {a : Act β} {c : Ctx} {e : Choice} {w w' : World} {r : β}
    (he : exec P t a c e w = some (r, w')) : w'.inner.salt = w.inner.salt :=
  exec_same he .salt (by cases a <;> rfl)

/-! ### The contexts -/

/-- What a thread stands for: the operation it acts for, how far it is with it, and what it is. -/
structure Role where
  op : Option (String × Kind)
  admitted : Option Operation
  phase : Phase
  recorded : Bool
  fate : Fate
  channel : Option Nat
  booting : Bool
  client : Bool

/-- The role of a context. -/
def Ctx.role (c : Ctx) : Role :=
  ⟨c.op, c.admitted, c.phase, c.recorded, c.fate, c.channel, c.booting, c.client⟩

/-- The actions that change the role of the thread, or start a thread. -/
def Act.moves {β : Type} : Act β → Bool
  | .putOperation _ | .serve | .writeJournal _ | .journalOperation | .journalExists
  | .removeJournal | .startHelper _ | .helperAnswer | .runEvent | .admitChange _ _ _ _
  | .claimDownload _ | .dropOperation | .setOp _ _ | .spawn _ => true
  | _ => false

/-- Every other action keeps the role and starts no thread. -/
theorem after_role {β : Type} {a : Act β} {c : Ctx} {r : β} {w : World} (ha : a.moves = false) :
    (c.after a r w).role = c.role ∧ spawns c a r = [] := by
  cases a with
  | receiptsPending => cases r <;> exact ⟨rfl, rfl⟩
  | setLock handle locked => cases r <;> exact ⟨rfl, rfl⟩
  | workerRound => cases r <;> exact ⟨rfl, rfl⟩
  | putOperation _ | serve | writeJournal _ | journalOperation | journalExists | removeJournal
  | startHelper _ | helperAnswer | runEvent | admitChange _ _ _ _ | claimDownload _
  | dropOperation | setOp _ _ | spawn _ => cases ha
  | _ => exact ⟨rfl, rfl⟩

/-- What starting the helper makes of a thread. -/
inductive Started (c : Ctx) (w : World) : Request → Ctx → Prop where
  | read : Started c w .inventory { c with reading := true, fresh := w.history.fate != .unsent }
  | notify {eid : String} {seqs : List Nat} : Started c w (.notify eid seqs) c
  | write {request : Request} (isWrite : request.isWrite = true) (claimed : c.phase = .claimed) :
      Started c w request { c with phase := .running }
  | rename {request : Request} (isWrite : request.isWrite = true) (claimed : c.phase ≠ .claimed) :
      Started c w request { c with renamed := true }

theorem after_startHelper (c : Ctx) (request : Request) (w : World) :
    Started c w request (c.after (.startHelper request) () w) := by
  cases request with
  | inventory => exact .read
  | notify _ _ => exact .notify
  | _ =>
    simp only [Ctx.after]
    split
    · exact .write rfl ‹_›
    · exact .rename rfl ‹_›

/-- What a thread holds and still has to see to. -/
structure Holds where
  card : Bool
  reading : Bool
  fresh : Bool
  dirty : Bool
  saving : Option (Nat × Value)
  pushed : Bool
  claimedWorker : Bool
  worker : Bool
  round : Option (List Nat × Option String)

/-- What the context holds. -/
def Ctx.holds (c : Ctx) : Holds :=
  ⟨c.card, c.reading, c.fresh, c.dirty, c.saving, c.pushed, c.claimedWorker, c.worker, c.round⟩

/-- The actions that change what the thread holds. -/
def Act.takes {β : Type} : Act β → Bool
  | .receiptsPending | .snapshot | .writeState _ | .lockCard | .tryLockCard | .unlockCard
  | .startHelper _ | .absorbRead _ _ | .setLock _ _ | .pushReceipts _ | .claimWorker
  | .workerRound | .absorbDelivery _ | .spawn _ => true
  | _ => false

/-- Every other action leaves it alone. -/
theorem after_holds {β : Type} {a : Act β} {c : Ctx} {r : β} {w : World} (ha : a.takes = false) :
    (c.after a r w).holds = c.holds := by
  cases a with
  | journalExists => cases r <;> rfl
  | admitChange _ _ _ _ => cases r <;> rfl
  | claimDownload _ => cases r <;> rfl
  | helperAnswer => simp only [Ctx.after, Ctx.answered]; split <;> rfl
  | runEvent =>
    cases r with
    | done o => simp only [Ctx.after, Ctx.answered]; split <;> rfl
    | _ => rfl
  | setOp _ _ => simp only [Ctx.after, Ctx.publish]; split <;> rfl
  | receiptsPending | snapshot | writeState _ | lockCard | tryLockCard | unlockCard
  | startHelper _ | absorbRead _ _ | setLock _ _ | pushReceipts _ | claimWorker
  | workerRound | absorbDelivery _ | spawn _ => cases ha
  | _ => rfl

/-- What a thread has found out about its operation. -/
structure Findings where
  readOk : Bool
  evidence : Evidence
  renamed : Bool
  receipts : Option Found
  owes : Bool
  journal : Option Value

/-- The findings in a context. -/
def Ctx.findings (c : Ctx) : Findings :=
  ⟨c.readOk, c.evidence, c.renamed, c.receipts, c.owes, c.journal⟩

/-- The actions that change what the thread has found out. -/
def Act.finds {β : Type} : Act β → Bool
  | .readJournal | .putOperation _ | .removeJournal | .startHelper _ | .helperAnswer
  | .absorbRead _ _ | .spawn _ | .setOp _ _ | .examine | .findInstalled | .newReceipts
  | .runEvent | .listedReceipts | .pushReceipts _ => true
  | _ => false

/-- Every other action leaves that alone. -/
theorem after_findings {β : Type} {a : Act β} {c : Ctx} {r : β} {w : World} (ha : a.finds = false) :
    (c.after a r w).findings = c.findings := by
  cases a with
  | journalExists => cases r <;> rfl
  | admitChange _ _ _ _ => cases r <;> rfl
  | claimDownload _ => cases r <;> rfl
  | receiptsPending => cases r <;> rfl
  | setLock _ _ => cases r <;> rfl
  | workerRound => cases r <;> rfl
  | readJournal | putOperation _ | removeJournal | startHelper _ | helperAnswer
  | absorbRead _ _ | spawn _ | setOp _ _ | examine | findInstalled | newReceipts
  | runEvent | listedReceipts | pushReceipts _ => cases ha
  | _ => rfl

/-- The actions by which a thread may come to own an operation. -/
def Act.claims {β : Type} : Act β → Bool
  | .putOperation _ | .admitChange _ _ _ _ | .claimDownload _ => true
  | _ => false

/-- By any other action an owner only goes on with its operation. -/
theorem after_owns {β : Type} {c : Ctx} {a : Act β} {r : β} {w : World} (hok : c.allows a)
    (ha : a.claims = false) (ho : (c.after a r w).owns = true) :
    c.owns = true ∧ ((c.after a r w).phase = c.phase ∨ c.phase ≠ .settling) := by
  have hframe : a.moves = false →
      c.owns = true ∧ ((c.after a r w).phase = c.phase ∨ c.phase ≠ .settling) := by
    intro hm
    have hphase := congrArg Role.phase (after_role (c := c) (r := r) (w := w) hm).1
    rw [Ctx.owns] at ho ⊢
    exact ⟨(show (c.after a r w).phase = c.phase from hphase) ▸ ho, .inl hphase⟩
  have hanswered : ∀ o, (c.answered o).owns = true →
      c.owns = true ∧ ((c.answered o).phase = c.phase ∨ c.phase ≠ .settling) := by
    intro o ho
    by_cases hp : c.phase = .running
    · exact ⟨by rw [Ctx.owns, hp]; rfl, .inr (by simp [hp])⟩
    · rw [Ctx.answered, if_neg hp] at ho ⊢
      exact ⟨ho, .inl rfl⟩
  cases a with
  | helperAnswer => exact hanswered r ho
  | runEvent =>
    cases r with
    | done o => exact hanswered o ho
    | _ => exact ⟨ho, .inl rfl⟩
  | startHelper request =>
    generalize hx : c.after (.startHelper request) r w = c' at ho ⊢
    cases hx ▸ after_startHelper c request w with
    | read | notify | rename _ _ => exact ⟨ho, .inl rfl⟩
    | write _ hp => exact ⟨by rw [Ctx.owns, hp]; rfl, .inr (by simp [hp])⟩
  | setOp state _ =>
    simp only [Ctx.after] at ho ⊢
    split at ho
    · simp only [Ctx.publish, Ctx.owns] at ho
      split at ho <;> cases ho
    · rename_i hs
      rw [if_neg hs]
      exact ⟨ho, .inl rfl⟩
  | journalExists => cases r with
    | true => exact ⟨ho, .inl rfl⟩
    | false => cases ho
  | removeJournal | dropOperation => cases ho
  | spawn b =>
    cases b with
    | runSwitch _ _ | runDownload _ _ | verify _ _ | settleDownload _ => cases ho
    | _ => exact ⟨ho, .inl rfl⟩
  | serve | writeJournal _ | journalOperation => exact ⟨ho, .inl rfl⟩
  | putOperation _ | admitChange _ _ _ _ | claimDownload _ => cases ha
  | _ => exact hframe rfl

end OpenUI.Agent.Esim
