import OpenUI.Proofs.Agent.Esim.Frames

/-!
# `OpenUI.Proofs.Agent.Esim.Invariants`: what holds in every state of every run

The invariants that need no condition on the run. Each is about one thing the threads share: the
slot (`Ownership`), the start of the process (`Boot`), the card mutex (`CardMutex`), the
inventory in memory (`Reading`) and the journal on disk (`Journalled`). `Base` is all of them.
The modules after this one prove that every allowed action keeps each, and `Runs.lean` draws the
conclusion for runs.
-/

set_option autoImplicit false

namespace OpenUI.Agent.Esim

open OpenUI.Json OpenUI.Text OpenUI.Concurrency

/-- `asked` is the request of `op`. A download finds its target later. -/
structure Asked.Matches (asked : Asked) (op : Operation) : Prop where
  kind : asked.kind = op.kind
  profiles : asked.profilesBefore = op.profilesBefore
  target : op.kind ≠ .download → asked.target = op.target

/-- What the slot and the history say of an operation, by the phase its owner is in. -/
def Ctx.stage (c : Ctx) (op : Operation) (asked : Asked) (fate : Fate) : Prop :=
  match c.phase with
  | .claimed => fate = .unsent ∧ op.Recoverable ∧ asked = op.asked asked.eid ∧
    op.state ≠ .awaitingConfirmation ∧ ∀ o, c.admitted = some o → o = op
  | .running => fate = .unsent
  | .settling => fate = c.fate ∧ fate ≠ .unsent
  | _ => False

/-- The operation in the slot is the thread's, and is not resolved. -/
def Ctx.OwnsIn (c : Ctx) (w : World) : Prop :=
  ∃ op asked, w.inner.operation = some op ∧ op.state.resolved = false ∧
    c.op = some (op.id, op.kind) ∧ w.history.asked = some asked ∧ asked.Matches op ∧
    c.stage op asked w.history.fate

/-- At most one thread owns the slot, it owns an unresolved operation, and no unresolved
operation is without an owner. -/
structure Ownership (w : World) (cs : List Ctx) : Prop where
  one : cs.countP Ctx.owns ≤ 1
  busy : w.inner.operationBusy = true → 0 < cs.countP Ctx.owns
  owner : ∀ c ∈ cs, c.owns = true → c.OwnsIn w

/-- Before the server starts there is one main thread; until it has put the recovered operation
into the slot nothing acts for an operation. -/
structure Boot (w : World) (cs : List Ctx) : Prop where
  one : cs.countP Ctx.booting ≤ 1
  closed : ∀ c ∈ cs, c.booting = true → w.serving = false ∧ ∀ x ∈ cs, x.client = false
  before : ∀ c ∈ cs, c.booting = true → c.op = none → w.inner.operation = none ∧
    (∀ x ∈ cs, x.phase = .free ∧ x.op = none) ∧ ∀ j, c.journal = some j → w.journalFile = some j

/-- At most one thread holds the card mutex, and a read runs under it. -/
structure CardMutex (w : World) (cs : List Ctx) : Prop where
  one : cs.countP Ctx.card ≤ 1
  free : w.card = false → cs.countP Ctx.card = 0
  reading : ∀ c ∈ cs, c.reading = true → c.card = true ∧ (c.client = true ∨ c.op.isSome = true)

/-- The inventory in memory is from the card in memory, and once the write in the slot was
answered it is from a read that began after the answer. -/
structure Reading (P : Platform) (w : World) (cs : List Ctx) : Prop where
  hash : ∀ inv, w.inner.inventory = some inv →
    w.inner.card = some (cardHash P w.inner.salt inv.eid)
  handles : ∀ inv, w.inner.inventory = some inv →
    ∀ p ∈ inv.profiles, optText (.str p.handle) = some p.handle
  last : ∀ inv, w.inner.inventory = some inv → w.history.reads ≠ [] → inv ∈ w.history.reads
  answered : w.history.reads ≠ [] → w.history.fate ≠ .unsent
  fresh : ∀ c ∈ cs, c.reading = true → w.history.fate ≠ .unsent → c.fresh = true
  known : ∀ c ∈ cs, c.owns = true → c.readOk = true →
    c.phase = .settling ∧ w.inner.inventory.isSome = true ∧ w.history.reads ≠ []

/-- The journal on disk is that of an operation the agent admitted, and no rename. -/
def Journalled (w : World) : Prop :=
  ∀ j, w.journalFile = some j → ∃ (op : Operation) (eid : String), j = op.journal ∧
    op.Recoverable ∧ op.kind ≠ .nickname ∧ w.history.journalAsked = some (op.asked eid)

/-- The invariants every run has. -/
structure Base (P : Platform) (w : World) (cs : List Ctx) : Prop where
  ownership : Ownership w cs
  boot : Boot w cs
  mutex : CardMutex w cs
  reading : Reading P w cs
  journal : Journalled w

end OpenUI.Agent.Esim
