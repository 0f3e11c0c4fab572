import OpenUI.Agent.Esim.Sections
import OpenUI.Concurrency.Machine

/-!
# `OpenUI.Agent.Esim.Actions`: the atomic actions of the manager's threads

An action is one critical section of the manager's mutex, one call into the environment, or one
file operation. `exec` gives it its meaning on the `World`: the guarded state, the card mutex,
the download channels and the two files.

Two things beside the source's own data are kept, and no action's effect on that data depends
on them. `History` notes in the world what happened: the request the operation was admitted
with, the inventories read since its write was answered, the requests that went to the helper.
`Ctx` notes for each thread where it stands: which operation it acts for, how far it has come
with it, and what it still owes. `Ctx.after` computes it from the thread's own actions.
-/

set_option autoImplicit false

namespace OpenUI.Agent.Esim

open OpenUI.Json OpenUI.Text OpenUI.Concurrency

/-! ### Requests, threads and answers -/

/-- A request to the helper, without the fields every request gets (`protocol`, `node`, `slot`,
`deadline_ms`). -/
inductive Request where
  | inventory
  | switch (kind : Kind) (iccid expectEid : String) (expectEnabled : Option String)
  | delete (iccid expectEid : String)
  | nickname (iccid expectEid nickname : String)
  | notify (expectEid : String) (seqs : List Nat)
  | download (activationCode expectEid : String) (confirmationCode : Option String)
  deriving DecidableEq, Repr

/-- The requests that may change the card: every one but `inventory` and `notify`. -/
def Request.isWrite : Request → Bool
  | .inventory | .notify _ _ => false
  | _ => true

/-- The requests of `switch`. -/
def Request.isSwitch : Request → Bool
  | .switch _ _ _ _ | .delete _ _ => true
  | _ => false

/-- The request that downloads a profile. -/
def Request.isDownload : Request → Bool
  | .download _ _ _ => true
  | _ => false

/-- An HTTP request as the server hands it over. `none` is a body that is not JSON. -/
inductive HttpRequest where
  | profiles
  | refresh
  | dashboard
  | enable (body : Option Value)
  | disable (body : Option Value)
  | delete (body : Option Value)
  | nickname (body : Option Value)
  | lock (body : Option Value)
  | download (body : Option Value)
  | downloadConfirm (body : Option Value)
  | downloadCancel (body : Option Value)
  | receiptsSend

/-- The bodies of the manager's threads. A loop is a body that goes on with itself. -/
inductive Body where
  | main
  | http (request : HttpRequest)
  | detect
  | runSwitch (kind : Kind) (request : Request)
  | verify (kind : Kind) (accepted : Bool)
  | verifyLoop (kind : Kind) (accepted : Bool) (start : Nat)
  | runDownload (request : Request) (controls : Nat)
  | downloadLoop (controls : Nat) (timedOut : Bool)
  | settleDownload (reported : Bool)
  | settleLoop (reported : Bool) (start : Nat)
  | receiptWorker

/-- An HTTP answer: the code, the error text and the state the view shows. -/
structure Answer where
  code : Nat
  error : Option String := none
  view : Option Inner := none

/-! ### History -/

/-- What the answer to an operation's write says of it. `unsent`: the write has not been
answered. `applied` and `denied` are definite; `unknown` (the helper was killed, says the
outcome is unknown, or the agent restarted) and `garbled` leave the write's fate open. -/
inductive Fate where
  | unsent
  | applied
  | denied
  | unknown
  | garbled
  deriving DecidableEq, Repr

/-- The write may or may not have reached the card. -/
def Fate.isOpen : Fate → Bool
  | .unknown | .garbled => true
  | _ => false

/-- The fate a helper outcome leaves a write in. -/
def HelperOutcome.fate : HelperOutcome → Fate
  | .ok _ => .applied
  | .failed kind _ _ => if kind = "outcome_unknown" then .unknown else .denied
  | .missing _ => .denied
  | .killed => .unknown
  | .garbled _ => .garbled

/-- What was asked for when an operation was admitted, and the card it was admitted on. -/
structure Asked where
  kind : Kind
  target : String
  profilesBefore : List String
  eid : String
  deriving DecidableEq, Repr

/-- The request of an operation as admitted on the card `eid`. -/
def Operation.asked (op : Operation) (eid : String) : Asked :=
  ⟨op.kind, op.target, op.profilesBefore, eid⟩

/-- What happened. `asked`, `fate`, `reads` and `leftNow` are about the operation in the slot:
what was asked for, the answer its write got, the inventories whose read began after that
answer, and the receipts its helper run left on the card. `journalAsked` is about the operation
in the journal. Receipts are named by their card's EID, in lower case, and their number. -/
structure History where
  asked : Option Asked := none
  fate : Fate := .unsent
  reads : List Inventory := []
  leftNow : List Nat := []
  journalAsked : Option Asked := none
  /-- The write requests of this process, with the operation they were made for. -/
  sent : List (String × Request) := []
  /-- Receipts a `notify` request named, with the EID it expected. -/
  notified : List (String × Nat) := []
  /-- Receipts on the list of a card when the user asked to send them. -/
  requested : List (String × Nat) := []
  /-- Receipts a read showed on the card an operation of the agent was admitted on, after its
  write was answered, that were not on its list before. -/
  produced : List (String × Nat) := []
  /-- Receipts the helper runs of this process left on the card they changed. -/
  left : List (String × Nat) := []
  /-- Receipts that entered the queue of this process. -/
  queued : List (String × Nat) := []
  /-- Those of them that are still on their card, while that card is still there. -/
  due : List (String × Nat) := []
  /-- Downloads whose installation the user agreed to, with their control channel. -/
  accepted : List (String × Nat) := []
  /-- Snapshots taken by `save_state`, the latest of them, and the one in the state file. -/
  snapshots : Nat := 0
  lastSnapshot : Option Value := none
  landed : Nat := 0

/-! ### The world -/

/-- What the threads share. -/
structure World where
  inner : Inner
  /-- The card mutex is held. -/
  card : Bool := false
  /-- The control channels of downloads: decisions sent and not yet taken. -/
  chans : List (List Control) := []
  stateFile : Option Value := none
  journalFile : Option Value := none
  /-- The HTTP server takes requests. -/
  serving : Bool := false
  now : Nat := 0
  history : History := {}

/-- How far a thread has come with the operation it owns. -/
inductive Phase where
  /-- It owns no operation. -/
  | free
  /-- It claimed the slot; no write has been sent. -/
  | claimed
  /-- The helper run that carries the operation out is under way. -/
  | running
  /-- The run has been answered (or was cut off by a restart); there is no verdict yet. -/
  | settling
  /-- The verdict is published; the journal is not cleared yet. -/
  | clearing
  deriving DecidableEq, Repr

/-- What the last look at the card said about the change. -/
inductive Evidence where
  | none
  | applied
  | notApplied
  | gone
  deriving DecidableEq, Repr

/-- Receipts a thread found: the EID of the inventory they are from, and their numbers. `own`:
they are from the card of the operation in the slot, read after its write was answered, or the
user asked for them. -/
structure Found where
  eid : Option String
  seqs : List Nat
  own : Bool

/-- Where a thread stands. -/
structure Ctx where
  /-- The operation it acts for. -/
  op : Option (String × Kind) := none
  /-- The operation as it was admitted, for its journal entry. -/
  admitted : Option Operation := none
  phase : Phase := .free
  /-- The operation has a journal entry. -/
  recorded : Bool := false
  fate : Fate := .unsent
  /-- It has read the card since the write was answered. -/
  readOk : Bool := false
  evidence : Evidence := .none
  /-- The requested nickname has been sent. -/
  renamed : Bool := false
  /-- The control channel of its download. -/
  channel : Option Nat := none
  /-- Receipts it found. -/
  receipts : Option Found := none
  /-- Receipts its operation left may not be queued yet. -/
  owes : Bool := false
  /-- It queued receipts and has not yet seen to a worker. -/
  pushed : Bool := false
  /-- It claimed the worker's place and has not yet started the worker. -/
  claimedWorker : Bool := false
  /-- It is the receipt worker. -/
  worker : Bool := false
  /-- The round the worker is in. -/
  round : Option (List Nat × Option String) := none
  /-- It holds the card mutex. -/
  card : Bool := false
  /-- An inventory run is under way, or answered and not taken in. -/
  reading : Bool := false
  /-- That run began after the operation's write was answered. -/
  fresh : Bool := false
  /-- It changed what the state file holds and has not taken a snapshot since. -/
  dirty : Bool := false
  /-- The snapshot it is about to write, with its number. -/
  saving : Option (Nat × Value) := none
  /-- It is the main thread before the server starts. -/
  booting : Bool := false
  /-- The journal the main thread read. -/
  journal : Option Value := none
  /-- It was started by the server, or by a heartbeat the server answered. -/
  client : Bool := false

/-- It owns the operation in the slot: from its admission (or recovery) to its verdict. -/
def Ctx.owns (c : Ctx) : Bool := c.phase == .claimed || c.phase == .running || c.phase == .settling

/-- Between the verdict and the end of `clear_journal`. -/
def Ctx.clearing (c : Ctx) : Bool := c.phase == .clearing

/-- The main thread at the start of the process. What it loaded counts as queued by it, and as
not saved yet. -/
def Ctx.boot : Ctx := { booting := true, pushed := true, dirty := true }

/-! ### Actions -/

/-- Reads of the guarded state that change nothing. -/
inductive Look : Type → Type where
  | now : Look Nat
  | view : Look Inner
  | operationBusy : Look Bool
  | profilesDue : Look Bool
  | detectSkip (key : Option String) : Look Bool
  | previewExpired : Look Bool
  | inventoryEid : Look String

/-- Calls into the environment that leave the manager's data alone. -/
inductive Query : Type → Type where
  | simReady : Query Bool
  | simKey : Query (Option String)
  | wanUp : Query Bool
  | invalidateNetwork : Query Unit
  | sleep (duration : Nat) : Query Unit

/-- The atomic actions. -/
inductive Act : Type → Type 1 where
  | look {β : Type} (q : Look β) : Act β
  | ask {β : Type} (q : Query β) : Act β
  | reply (answer : Answer) : Act Unit
  -- the start of the process
  | readJournal : Act (Option Value)
  | receiptsPending : Act Bool
  | putOperation (op : Operation) : Act Unit
  | serve : Act Unit
  -- the two files
  | snapshot : Act Value
  | writeState (snapshot : Value) : Act (Except String Unit)
  | writeJournal (op : Operation) : Act (Except String Unit)
  | journalOperation : Act (Option (Except String Unit))
  | journalExists : Act Bool
  | removeJournal : Act (Except String Unit)
  -- the card
  | lockCard : Act Unit
  | tryLockCard : Act Bool
  | unlockCard : Act Unit
  | startHelper (request : Request) : Act Unit
  | helperAnswer : Act HelperOutcome
  | absorbRead (outcome : HelperOutcome) (simReady : Bool) : Act (Except (String × String) Bool)
  | summary : Act Bool
  | detectDone (key : Option String) : Act Unit
  -- admission
  | admitChange (kind : Kind) (id handle : String) (revision : Nat) : Act (Except Refusal Admitted)
  | claimDownload (id : String) : Act (Except Refusal (String × Nat))
  | dropOperation : Act Unit
  | spawn (body : Body) : Act Unit
  -- the operation in the slot
  | setOp (state : OpState) (message : Option String) : Act Unit
  | setFinishedAt : Act Unit
  | setHelperMissing : Act Unit
  | examine : Act (Option String × List Nat)
  | findInstalled : Act (Option (Option (String × String × String)))
  | takeFound (handle : String) : Act (Option String)
  | newReceipts : Act (List Nat)
  -- downloads
  | takeControl (controls : Nat) : Act (Option Control)
  | sendControl (control : Control) : Act Unit
  | runEvent : Act RunEvent
  | onProgress (step : String) (data : Value) (eid : String) : Act Unit
  | downloadInstalled (data : Value) : Act Unit
  | downloadBaseline (before : List Nat) : Act Unit
  | confirm (id : Option String) (install : Bool) (nickname : Option String) :
      Act (Except String Unit)
  | cancel (id : Option String) : Act (Except String Unit)
  -- locks and receipts
  | setLock (handle : String) (locked : Bool) : Act Bool
  | listedReceipts : Act (Option (List Nat))
  | pushReceipts (seqs : List Nat) : Act Unit
  | claimWorker : Act Bool
  | workerRound : Act (Option (List Nat × Option String × Nat))
  | absorbDelivery (outcome : HelperOutcome) : Act Unit

/-- How a file operation ends. `unsynced`: the file changed, but the directory's sync failed. -/
inductive IoResult where
  | done
  | failed (error : String)
  | unsynced (error : String)

/-- What the caller learns. -/
def IoResult.result : IoResult → Except String Unit
  | .done => .ok ()
  | .failed e | .unsynced e => .error e

/-- Whether the file changed. -/
def IoResult.changed : IoResult → Bool
  | .failed _ => false
  | _ => true

/-- What the environment answers to an action. `left` are the receipts a run that changes the card
left on it. -/
inductive Choice where
  | none
  | flag (b : Bool)
  | text (t : Option String)
  | io (r : IoResult)
  | outcome (o : HelperOutcome) (left : List Nat := [])
  | event (e : RunEvent) (left : List Nat := [])
  | interrupted (left : List Nat := [])

/-- What happens outside the agent's threads. -/
inductive Outside where
  /-- Time passes. -/
  | tick (duration : Nat)
  /-- The server takes a request. -/
  | request (request : HttpRequest)
  /-- The process starts, or dies and starts again. `salt` is what `random_salt` would give, and
  `readable` says whether the state file can be read. -/
  | restart (salt : List UInt8) (readable : Bool)

/-! ### What an action does -/

/-- The value of a look. -/
def Look.eval {β : Type} (w : World) : Look β → β
  | .now => w.now
  | .view => w.inner
  | .operationBusy => w.inner.operationBusy
  | .profilesDue => w.inner.profilesDue w.now
  | .detectSkip key => w.inner.detectSkip key
  | .previewExpired => w.inner.previewExpired w.now
  | .inventoryEid => (w.inner.inventory.map (·.eid)).getD ""

/-- The environment's answer to a query, if it is one. -/
def Query.eval {β : Type} : Query β → Choice → Option β
  | .simReady, .flag b => some b
  | .simKey, .text t => some t
  | .wanUp, .flag b => some b
  | .invalidateNetwork, _ => some ()
  | .sleep _, _ => some ()
  | _, _ => none

namespace World

/-- Adds to the history. -/
def note (w : World) (f : History → History) : World := { w with history := f w.history }

/-- Puts a control into a download's channel. -/
def sendOn (w : World) (ch : Nat) (control : Control) : World :=
  { w with chans := w.chans.modify ch (· ++ [control]) }

/-- The slot is claimed with `op` on the card `eid`. -/
def noteClaim (w : World) (op : Operation) (eid : String) : World :=
  w.note fun h =>
    { h with asked := some (op.asked eid), fate := .unsent, reads := [], leftNow := [] }

/-- The receipts `seqs` of the card the operation in the slot was admitted on. -/
def receiptsOf (asked : Option Asked) (seqs : List Nat) : List (String × Nat) :=
  match asked with
  | some a => seqs.map (fun s => (toAsciiLowercase a.eid, s))
  | none => []

/-- The run of the operation in the slot ended, known or not, and left the receipts `left`. -/
def noteFate (w : World) (fate : Fate) (left : List Nat) : World :=
  w.note fun h => { h with
    fate, reads := [], leftNow := left, left := h.left ++ receiptsOf h.asked left }

/-- A journal entry replaced the file. -/
def putJournal (w : World) (op : Operation) : World :=
  { w with journalFile := some op.journal }.note fun h => { h with journalAsked := h.asked }

/-- What the reads since the answer show on the operation's own card beyond the list before is
the operation's. -/
def noteProduced (w : World) : World :=
  match w.inner.operation, w.history.asked with
  | some op, some asked => w.note fun h => { h with
      produced := h.produced ++ (h.reads.filter (fun inv => inv.eid == asked.eid)).flatMap
        fun inv =>
        (inv.notifications.filter (fun s => !op.receiptBefore.contains s)).map
          (fun s => (toAsciiLowercase inv.eid, s)) }
  | _, _ => w

/-- A new card has its own queue. -/
def noteCard (w : World) (newCard : Bool) : World :=
  w.note fun h => { h with due := if newCard then [] else h.due }

/-- A read took `inv` in. It counts for the operation when it began after the answer to its
write. -/
def noteRead (w : World) (fresh : Bool) (inv : Inventory) : World :=
  if fresh && w.history.fate != .unsent then
    (w.note fun h => { h with reads := h.reads ++ [inv] }).noteProduced
  else w

/-- A read was taken in, or failed. -/
def noteAbsorbed (w : World) (fresh : Bool) : Except (String × String) Bool → World
  | .ok newCard =>
    match w.inner.inventory with
    | some inv => (w.noteCard newCard).noteRead fresh inv
    | none => w
  | .error _ => w

/-- The write of the operation was answered. -/
def noteAnswer (w : World) (phase : Phase) (outcome : HelperOutcome) (left : List Nat) : World :=
  if phase = .running then w.noteFate outcome.fate left else w

/-- The inventory in memory is from the card the operation in the slot was admitted on, read
after its write was answered. -/
def ownCard (w : World) : Bool :=
  !w.history.reads.isEmpty
    && w.inner.inventory.any (fun inv => w.history.asked.any (fun a => a.eid == inv.eid))

/-- The receipts `seqs` a thread found enter the queue. They are due while the queue is their
card's. -/
def noteQueued (P : Platform) (w : World) (found : Option Found) (seqs : List Nat) : World :=
  match found.bind (·.eid) with
  | some eid =>
    let new := seqs.map (fun s => (toAsciiLowercase eid, s))
    w.note fun h => { h with
      queued := h.queued ++ new
      due := if w.inner.card = some (cardHash P w.inner.salt eid) then h.due ++ new else h.due }
  | none => w

/-- A delivery round for the card `eid` was answered. -/
def noteDelivery (w : World) (eid : Option String) (outcome : HelperOutcome) : World :=
  match eid, outcome with
  | some eid, .ok data => w.note fun h => { h with
      due := h.due.filter fun r =>
        !(r.1 == toAsciiLowercase eid && (Inner.receiptsOff data).contains r.2) }
  | some eid, .failed kind _ _ =>
    if kind = "card_changed" then
      w.note fun h => { h with due := h.due.filter (fun r => r.1 != toAsciiLowercase eid) }
    else w
  | _, _ => w

end World

/-- `exec P T a c e w`: action `a` of a thread in context `c`, with the environment's answer `e`.
`none` when the action has to wait, or `e` is no answer to it. -/
def exec (P : Platform) (t : Timing) {β : Type} : Act β → Ctx → Choice → World → Option (β × World)
  | .look q, _, _, w => some (q.eval w, w)
  | .ask q, _, e, w => (q.eval e).map fun b => (b, w)
  | .reply _, _, _, w => some ((), w)
  | .readJournal, _, .flag readable, w => some (if readable then w.journalFile else none, w)
  | .receiptsPending, _, _, w => some (!w.inner.receipts.pending.isEmpty, w)
  | .putOperation op, _, .interrupted left, w =>
    some ((), ({ w with inner := { w.inner with operation := some op } }.note fun h =>
      { h with asked := h.journalAsked }).noteFate .unknown left)
  | .serve, _, _, w => some ((), { w with serving := true })
  | .snapshot, _, _, w =>
    some (w.inner.snapshot, w.note fun h =>
      { h with snapshots := h.snapshots + 1, lastSnapshot := some w.inner.snapshot })
  | .writeState v, c, .io r, w =>
    some (r.result, if r.changed then
      { w with stateFile := some v }.note fun h =>
        { h with landed := (c.saving.map Prod.fst).getD h.landed }
      else w)
  | .writeJournal op, _, .io r, w =>
    some (r.result, if r.changed then w.putJournal op else w)
  | .journalOperation, _, .io r, w =>
    match w.inner.operation with
    | some op => some (some r.result, if r.changed then w.putJournal op else w)
    | none => some (none, w)
  | .journalExists, _, _, w => some (w.journalFile.isSome, w)
  | .removeJournal, _, .io r, w =>
    match w.journalFile with
    | some _ => some (r.result, if r.changed then { w with journalFile := none } else w)
    | none => some (.error "not found", w)
  | .lockCard, _, _, w => if w.card then none else some ((), { w with card := true })
  | .tryLockCard, _, _, w =>
    if w.card then some (false, w) else some (true, { w with card := true })
  | .unlockCard, _, _, w => some ((), { w with card := false })
  | .startHelper req, c, _, w =>
    some ((), w.note fun h => { h with
      sent := if req.isWrite then h.sent ++ [((c.op.map (·.1)).getD "", req)] else h.sent
      notified := match req with
        | .notify eid seqs => h.notified ++ seqs.map (fun s => (toAsciiLowercase eid, s))
        | _ => h.notified })
  | .helperAnswer, c, .outcome o left, w => some (o, w.noteAnswer c.phase o left)
  | .absorbRead outcome simReady, c, _, w =>
    let (r, inner) := w.inner.absorbRead P t w.now outcome simReady
    some (r, { w with inner }.noteAbsorbed c.fresh r)
  | .summary, _, _, w =>
    let (due, inner) := w.inner.summary w.now
    some (due, { w with inner })
  | .detectDone key, _, _, w => some ((), { w with inner := w.inner.detectDone key })
  | .admitChange kind id handle revision, _, _, w =>
    match w.inner.admitChange kind id handle revision with
    | (.ok a, inner) => some (.ok a, { w with inner }.noteClaim a.op a.eid)
    | (.error refusal, inner) => some (.error refusal, { w with inner })
  | .claimDownload id, _, _, w =>
    match w.inner.claimDownload id w.chans.length with
    | (.ok eid, inner) =>
      let w' := { w with inner, chans := w.chans ++ [[]] }
      some (.ok (eid, w.chans.length), match inner.operation with
        | some op => w'.noteClaim op eid
        | none => w')
    | (.error refusal, inner) => some (.error refusal, { w with inner })
  | .dropOperation, _, _, w =>
    some ((), { w with inner := { w.inner with operation := none } })
  | .spawn _, _, _, w => some ((), w)
  | .setOp state message, _, _, w => some ((), { w with inner := w.inner.setOp state message })
  | .setFinishedAt, _, _, w =>
    some ((), { w with inner := { w.inner with finishedAt := some w.now } })
  | .setHelperMissing, _, _, w =>
    some ((), { w with inner := { w.inner with status := .helperMissing } })
  | .examine, _, _, w => some (w.inner.examine, w)
  | .findInstalled, _, _, w => some (w.inner.findInstalled, w)
  | .takeFound handle, _, _, w =>
    let (nickname, inner) := w.inner.takeFound handle
    some (nickname, { w with inner })
  | .newReceipts, _, _, w => some (w.inner.newReceipts, w)
  | .takeControl ch, _, _, w =>
    match w.chans[ch]? with
    | some (control :: rest) => some (some control, { w with chans := w.chans.set ch rest })
    | _ => some (none, w)
  | .sendControl _, _, _, w => some ((), w)
  | .runEvent, c, .event ev left, w =>
    some (ev, match ev with
      | .done o => w.noteAnswer c.phase o left
      | _ => w)
  | .onProgress step data eid, _, _, w =>
    some ((), { w with inner := w.inner.onProgress t w.now step data eid })
  | .downloadInstalled data, _, _, w =>
    some ((), { w with inner := w.inner.downloadInstalled data }.noteProduced)
  | .downloadBaseline before, _, _, w =>
    some ((), { w with inner := w.inner.downloadBaseline before }.noteProduced)
  | .confirm id install nickname, _, _, w =>
    match w.inner.operation.filter (Inner.confirmable id) with
    | none => some (.error "no download is waiting for confirmation", w)
    | some op =>
      let op := { op with nickname }
      match op.control with
      | none =>
        some (.error "the download already ended",
          { w with inner := { w.inner with operation := some op } })
      | some ch =>
        some (.ok (), ({ w with inner := w.inner.confirmed op }.sendOn ch
          (if install then .install else .decline)).note fun h => { h with
            accepted := if install then h.accepted ++ [(op.id, ch)] else h.accepted })
  | .cancel id, _, _, w =>
    match w.inner.operation.filter
        (fun o => o.kind == .download && id == some o.id && !o.state.resolved) with
    | none => some (.error "no download is running", w)
    | some op =>
      if op.state ≠ .connecting ∧ op.state ≠ .awaitingConfirmation then
        some (.error "the profile is being installed; it can't be cancelled now", w)
      else match op.control with
        | none => some (.error "the download already ended", w)
        | some ch => some (.ok (), w.sendOn ch .cancel)
  | .setLock handle locked, _, _, w =>
    let (known, inner) := w.inner.setLock handle locked
    some (known, { w with inner })
  | .listedReceipts, _, _, w =>
    some (w.inner.listedReceipts, match w.inner.listedReceipts, w.inner.inventory with
      | some seqs, some inv => w.note fun h => { h with
          requested := h.requested ++ seqs.map (fun s => (toAsciiLowercase inv.eid, s)) }
      | _, _ => w)
  | .pushReceipts seqs, c, _, w =>
    some ((), { w with inner := w.inner.pushReceipts seqs }.noteQueued P c.receipts seqs)
  | .claimWorker, _, _, w =>
    let (claimed, inner) := w.inner.claimWorker
    some (claimed, { w with inner })
  | .workerRound, _, _, w =>
    let (round, inner) := w.inner.workerRound
    some (round, { w with inner })
  | .absorbDelivery outcome, c, _, w =>
    some ((), { w with inner := w.inner.absorbDelivery outcome }.noteDelivery
      (c.round.bind Prod.snd) outcome)
  | _, _, _, _ => none

/-! ### Where the thread stands afterwards -/

/-- What `verify` concludes for a change of kind `kind` from the target's state. -/
def Evidence.ofTarget (kind : Kind) (state : Option String) : Evidence :=
  match kind, state with
  | .enable, some s => if s = "enabled" then .applied else .notApplied
  | .enable, Option.none => .gone
  | .delete, Option.none => .applied
  | .delete, some _ => .notApplied
  | _, some s => if s = "disabled" then .applied else .notApplied
  | _, Option.none => .gone

/-- After a verdict the thread may still have receipts to queue: after a successful switch those
it found, after a successful download those it has yet to look for. -/
def Ctx.stillOwes (c : Ctx) (state : OpState) : Bool :=
  c.owes && state == .succeeded && match c.op with
    | some (_, .download) => true
    | some (_, .nickname) => false
    | _ => c.receipts.any (fun f => !f.seqs.isEmpty)

/-- The context after the verdict: the operation's journal entry is still to be cleared. -/
def Ctx.publish (c : Ctx) (state : OpState) : Ctx :=
  { c with phase := if c.recorded then .clearing else .free, owes := c.stillOwes state }

/-- The thread's context after its write was answered. -/
def Ctx.answered (c : Ctx) (o : HelperOutcome) : Ctx :=
  if c.phase = .running then { c with phase := .settling, fate := o.fate, owes := true } else c

/-- A child thread that carries the operation on. -/
def Ctx.child (c : Ctx) : Ctx :=
  { op := c.op, admitted := c.admitted, phase := c.phase, recorded := c.recorded, fate := c.fate
    channel := c.channel, owes := c.owes }

/-- `c.after a r w`: the context after action `a` returned `r` in the world `w`. -/
def Ctx.after {β : Type} (c : Ctx) : Act β → β → World → Ctx
  | .readJournal, r, _ => { c with journal := r }
  | .receiptsPending, r, _ => if r then c else { c with pushed := false }
  | .putOperation op, _, _ => { c with
      op := some (op.id, op.kind), phase := .settling, recorded := true, fate := .unknown
      readOk := false, evidence := .none, owes := true }
  | .serve, _, _ => { c with booting := false }
  | .snapshot, v, w => { c with dirty := false, saving := some (w.history.snapshots + 1, v) }
  | .writeState _, _, _ => { c with saving := none }
  | .writeJournal _, r, _ => { c with recorded := r.isOk }
  | .journalOperation, r, _ => { c with recorded := r.any (·.isOk) }
  | .journalExists, r, _ => if r then c else { c with phase := .free }
  | .removeJournal, _, _ => { c with phase := .free, journal := none }
  | .lockCard, _, _ => { c with card := true }
  | .tryLockCard, r, _ => { c with card := r }
  | .unlockCard, _, _ => { c with card := false }
  | .startHelper req, _, w =>
    match req with
    | .inventory => { c with reading := true, fresh := w.history.fate != .unsent }
    | .notify _ _ => c
    | _ => if c.phase = .claimed then { c with phase := .running } else { c with renamed := true }
  | .helperAnswer, o, _ => c.answered o
  | .absorbRead _ _, r, _ => { c with
      reading := false
      fresh := false
      readOk := c.readOk || (c.phase == .settling && r.isOk)
      dirty := c.dirty || (match r with | .ok newCard => newCard | .error _ => false) }
  | .admitChange _ _ _ _, r, _ =>
    match r with
    | .ok a => { c with
        op := some (a.op.id, a.op.kind), admitted := some a.op, phase := .claimed }
    | .error _ => c
  | .claimDownload id, r, _ =>
    match r with
    | .ok (_, ch) => { c with op := some (id, .download), phase := .claimed, channel := some ch }
    | .error _ => c
  | .dropOperation, _, _ => { c with phase := .free }
  | .spawn b, _, _ =>
    match b with
    | .runSwitch _ _ | .runDownload _ _ | .verify _ _ | .settleDownload _ =>
      { c with phase := .free, owes := false }
    | .receiptWorker => { c with claimedWorker := false }
    | _ => c
  | .setOp state _, _, _ => if state.resolved then c.publish state else c
  | .examine, r, w => { c with
      evidence := match c.op with
        | some (_, kind) => .ofTarget kind r.1
        | none => .none
      receipts := some ⟨w.inner.inventory.map (·.eid), r.2, w.ownCard⟩ }
  | .findInstalled, r, _ => { c with
      evidence := match r with
        | some (some _) => .applied
        | some none => .notApplied
        | none => .none }
  | .newReceipts, r, w => { c with
      receipts := some ⟨w.inner.inventory.map (·.eid), r, w.ownCard⟩
      owes := c.owes && !r.isEmpty }
  | .runEvent, ev, _ =>
    match ev with
    | .done o => c.answered o
    | _ => c
  | .setLock _ _, r, _ => if r then { c with dirty := true } else c
  | .listedReceipts, r, w =>
    { c with receipts := r.map fun seqs => ⟨w.inner.inventory.map (·.eid), seqs, true⟩ }
  | .pushReceipts _, _, _ => { c with pushed := true, dirty := true, owes := false }
  | .claimWorker, r, _ => { c with pushed := false, claimedWorker := r }
  | .workerRound, r, _ =>
    match r with
    | some (seqs, eid, _) => { c with round := some (seqs, eid) }
    | none => { c with worker := false, round := none }
  | .absorbDelivery _, _, _ => { c with dirty := true, round := none }
  | _, _, _ => c

/-- The threads an action starts, with their contexts. -/
def spawns {β : Type} (c : Ctx) : Act β → β → List (Body × Ctx)
  | .spawn b, _ =>
    match b with
    | .receiptWorker => [(b, { worker := true })]
    | .detect => [(b, { client := true })]
    | _ => [(b, c.child)]
  | _, _ => []

/-! ### What happens outside -/

/-- The process starts: memory is what the state file gives, and the files stay. -/
def World.start (w : World) (salt : List UInt8) (readable : Bool) : World where
  inner := Inner.load salt (if readable then w.stateFile.getD .null else .null)
  stateFile := w.stateFile
  journalFile := w.journalFile
  now := w.now
  history := { w.history with
    asked := none, fate := .unsent, reads := [], leftNow := [], sent := [], left := []
    queued := [], due := [], accepted := [] }

/-- An event from outside. -/
def occur : Outside → World → Option (Occurrence Ctx World Body)
  | .tick d, w => some ⟨{ w with now := w.now + d }, false, []⟩
  | .request r, w => if w.serving then some ⟨w, false, [(.http r, { client := true })]⟩ else none
  | .restart salt readable, w =>
    if salt.length = 16 then some ⟨w.start salt readable, true, [(.main, .boot)]⟩ else none

/-- A device before the agent's first start: no state file and no journal. -/
def World.fresh : World where
  inner := { salt := [] }

end OpenUI.Agent.Esim
