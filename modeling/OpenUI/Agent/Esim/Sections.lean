import OpenUI.Agent.Esim.State

/-!
# `OpenUI.Agent.Esim.Sections`: the critical sections of the manager's mutex

Every function of the manager takes the mutex, reads or changes `Inner` and lets go. Each such
section is one definition here, named after the function it is part of, so that a thread program
(`Manager.lean`) is a sequence of them. `now` is the clock at the section.
-/

set_option autoImplicit false

namespace OpenUI.Agent.Esim

open OpenUI.Json OpenUI.Text

/-- Why a request is turned down: with an HTTP code and a text, or because it repeats the
operation in the slot (the answer is then the view). -/
inductive Refusal where
  | answer (code : Nat) (error : String)
  | repeated
  deriving DecidableEq, Repr

/-- `Admitted`: the operation, its target, the active profile and the card's EID. -/
structure Admitted where
  op : Operation
  target : CardProfile
  active : Option CardProfile
  eid : String

namespace Inner

/-! ### Reads -/

/-- The end of `absorb_read` for a read that failed. -/
def readFailed (error : String × String) (inner : Inner) :
    Except (String × String) Bool × Inner :=
  (.error error, { inner with readError := some error })

/-- The part of `absorb_read` that takes a new inventory in. The result says whether the card is
a new one. -/
def takeInventory (P : Platform) (inv : Inventory) (inner : Inner) : Bool × Inner :=
  let hash := cardHash P inner.salt inv.eid
  let changed := inner.inventory.all (fun old => !old.sameContent inv)
  let newCard := inner.card != some hash
  (newCard, { inner with
    revision := if changed then inner.revision + 1 else inner.revision
    card := some hash
    -- Receipts belong to the card they were found on.
    receipts := if newCard then { worker := inner.receipts.worker } else inner.receipts
    inventory := some inv
    status := .ready
    diagnostic := none
    readError := none })

/-- `isdr_unavailable` counts as a reload only around an eSIM change. -/
def inChange (t : Timing) (now : Nat) (inner : Inner) : Bool :=
  inner.operationBusy || inner.finishedAt.any (fun at' => now - at' < t.reloadWindow)

/-- `absorb_read`, from the lock on. -/
def absorbRead (P : Platform) (t : Timing) (now : Nat) (outcome : HelperOutcome) (simReady : Bool)
    (before : Inner) : Except (String × String) Bool × Inner :=
  let inner := { before with readAttempt := some now }
  match outcome with
  | .ok data =>
    match parseInventory P inner.salt now data with
    | some inv =>
      let (newCard, inner) := inner.takeInventory P inv
      (.ok newCard, inner)
    | none => inner.readFailed ("read_failed", "unreadable profile list")
  | .failed kind message _ =>
    if kind = "lock_busy" then
      inner.readFailed ("busy", message)
    else if kind = "isdr_unavailable" then
      if inner.card.isSome && (inner.inChange t now || !simReady) then
        inner.readFailed ("sim_reloading", message)
      else
        -- The card and its locks are remembered for when it comes back.
        (.error ("unsupported", message), { inner with
          status := .unsupported
          diagnostic := some "The SIM in the slot has no eSIM management application."
          revision := if inner.inventory.isSome then inner.revision + 1 else inner.revision
          inventory := none
          readError := none })
    else if kind = "management_unavailable" ∨ kind = "transport" ∨ kind = "cancelled" then
      (if inner.card.isSome then inner
        else { inner with status := .unavailable, diagnostic := some message }).readFailed
          ("management_unavailable", message)
    else
      inner.readFailed ("read_failed", message)
  | .missing m =>
    { inner with status := .helperMissing, diagnostic := some m }.readFailed ("helper_missing", m)
  | .killed => inner.readFailed ("read_failed", "the card read was stopped at its deadline")
  | .garbled m => inner.readFailed ("read_failed", m)

/-- `summary`: whether the heartbeat starts a detection, which it then notes. -/
def summary (now : Nat) (inner : Inner) : Bool × Inner :=
  let due := !inner.detectRunning && !inner.operationBusy
    && inner.detectedAt.all (fun t => detectTtl ≤ now - t)
  (due, if due then { inner with detectRunning := true, detectedAt := some now } else inner)

/-- `detect`: an ordinary SIM stays unsupported until the SIM changes, and a known card is
re-read by the tab itself. -/
def detectSkip (key : Option String) (inner : Inner) : Bool :=
  (key.isSome && key == inner.simKey)
    && (inner.status == .unsupported || inner.status == .ready)
    && (inner.status == .unsupported || inner.inventory.isSome)

/-- The end of `detect`. -/
def detectDone (key : Option String) (inner : Inner) : Inner :=
  { inner with simKey := key, detectRunning := false }

/-- `profiles`: whether the list is due for a read. -/
def profilesDue (now : Nat) (inner : Inner) : Bool :=
  !inner.operationBusy && inner.status != .unsupported && inner.status != .helperMissing
    && inner.readAttempt.all (fun t => inventoryTtl ≤ now - t)

/-! ### Admission -/

/-- The checks of `admit` that depend on the kind of change. -/
def admissible (kind : Kind) (handle : String) (target : CardProfile) (inner : Inner) :
    Except Refusal Unit :=
  match kind with
  | .enable =>
    if target.class' ≠ "operational" then
      .error (.answer 409 "only operational profiles can be activated")
    else if target.state ≠ "disabled" then
      .error (.answer 409 "the profile is not inactive")
    else if handle ∈ inner.locked then
      .error (.answer 423 "the profile is locked against activation")
    else .ok ()
  | .disable =>
    if target.state ≠ "enabled" then .error (.answer 409 "the profile is not active") else .ok ()
  | .delete =>
    if handle ∈ inner.locked then
      .error (.answer 423 "locked profiles can't be deleted")
    else if target.state ≠ "disabled" then
      .error (.answer 409 "only an inactive profile can be deleted")
    else .ok ()
  | .nickname | .download => .ok ()

/-- The operation `admit` claims the slot with. -/
def newOperation (kind : Kind) (id handle : String) (inv : Inventory) : Operation where
  id := id
  kind := kind
  target := handle
  previous := match kind with
    | .enable | .disable => inv.enabled.map (·.handle)
    | _ => none
  receiptBefore := inv.notifications

/-- `admit`, from the lock on. The slot is claimed under the same lock as the checks, so two
requests cannot both be admitted. -/
def admitChange (kind : Kind) (id handle : String) (revision : Nat) (inner : Inner) :
    Except Refusal Admitted × Inner :=
  match inner.operation.filter (fun o => o.id == id) with
  | some op =>
    -- A repeated request gets the operation it already started.
    if op.kind = kind ∧ op.target = handle then (.error .repeated, inner)
    else (.error (.answer 409 "operation_id was already used for another change"), inner)
  | none =>
    if inner.operationBusy then
      (.error (.answer 409 "another eSIM change is still in progress"), inner)
    else if inner.status = .helperMissing then
      (.error (.answer 503 "eSIM management is unavailable: the helper is missing"), inner)
    else match inner.inventory with
      | none => (.error (.answer 503 "the profile list has not been read yet"), inner)
      | some inv =>
        if revision ≠ inner.revision then
          (.error (.answer 409 "the profile list changed; refresh and try again"), inner)
        else match inv.find handle with
          | none => (.error (.answer 404 "no such profile"), inner)
          | some target =>
            match inner.admissible kind handle target with
            | .error refusal => (.error refusal, inner)
            | .ok () =>
              let op := newOperation kind id handle inv
              (.ok ⟨op, target, inv.enabled, inv.eid⟩, { inner with operation := some op })

/-- The operation `download` claims the slot with; `ch` is its control channel. -/
def newDownload (id : String) (ch : Nat) (inv : Inventory) : Operation where
  id := id
  kind := .download
  target := ""
  previous := none
  state := .connecting
  receiptBefore := inv.notifications
  profilesBefore := inv.profiles.map (·.handle)
  control := some ch

/-- The claim in `download`: the card's EID, or a refusal. -/
def claimDownload (id : String) (ch : Nat) (inner : Inner) : Except Refusal String × Inner :=
  match inner.operation.filter (fun o => o.id == id) with
  | some op =>
    if op.kind = .download then (.error .repeated, inner)
    else (.error (.answer 409 "operation_id was already used for another change"), inner)
  | none =>
    if inner.operationBusy then
      (.error (.answer 409 "another eSIM change is still in progress"), inner)
    else if inner.status = .helperMissing then
      (.error (.answer 503 "eSIM management is unavailable: the helper is missing"), inner)
    else match inner.inventory with
      | none => (.error (.answer 409 "the profile list has not been read yet"), inner)
      | some inv => (.ok inv.eid, { inner with operation := some (newDownload id ch inv) })

/-! ### The operation in the slot -/

/-- `update_op`. -/
def updateOp (f : Operation → Operation) (inner : Inner) : Inner :=
  { inner with operation := inner.operation.map f }

/-- `set_op`. It acts on whatever operation is in the slot. -/
def setOp (state : OpState) (message : Option String) (inner : Inner) : Inner :=
  inner.updateOp fun op => { op with state, message }

/-- `verify` after a successful read: the target's state and the receipts that are new. -/
def examine (inner : Inner) : Option String × List Nat :=
  match inner.operation, inner.inventory with
  | some op, some inv =>
    ((inv.find op.target).map (·.state),
      inv.notifications.filter (fun s => !op.receiptBefore.contains s))
  | _, _ => (none, [])

/-- `settle_download` after a successful read: the first profile that was not there before. The
outer `none` is the early return for a missing operation or inventory. -/
def findInstalled (inner : Inner) : Option (Option (String × String × String)) :=
  match inner.operation, inner.inventory with
  | some op, some inv =>
    some ((inv.profiles.find? (fun p => !op.profilesBefore.contains p.handle)).map
      (fun p => (p.handle, p.iccid, inv.eid)))
  | _, _ => none

/-- `settle_download` names the target and takes the requested nickname. -/
def takeFound (handle : String) (inner : Inner) : Option String × Inner :=
  (inner.operation.bind (·.nickname),
    inner.updateOp fun op => { op with target := handle, nickname := none })

/-- `queue_new_receipts_after_read`: the receipts that appeared since the operation started. -/
def newReceipts (inner : Inner) : List Nat :=
  match inner.operation, inner.inventory with
  | some op, some inv => inv.notifications.filter (fun s => !op.receiptBefore.contains s)
  | _, _ => []

/-- The preview a download's metadata gives, without identifier-like names. -/
def previewOf (eid : String) (data : Value) : Value :=
  let iccid := (data.get "iccid").asStr.getD ""
  let clean := fun v => (optText v).filter (fun t => !identifierLike t iccid eid)
  .obj [("provider", Value.ofOption (clean (data.get "provider"))),
    ("name", Value.ofOption (clean (data.get "name"))),
    ("class", .str ((data.get "class").asStr.getD "operational"))]

/-- The update of `on_progress`. -/
def onProgress (t : Timing) (now : Nat) (step : String) (data : Value) (eid : String)
    (inner : Inner) : Inner :=
  inner.updateOp fun op =>
    let op := { op with step := some step }
    if step = "es8p_metadata_parse" then
      { op with preview := some (previewOf eid data) }
    else if step = "preview" then
      { op with
        state := .awaitingConfirmation
        previewUntil := some (now + t.previewLimit)
        message := none }
    else if step = "es10b_prepare_download" ∨ step = "es9p_get_bound_profile_package" then
      { op with state := .connecting, previewUntil := none }
    else if step = "es10b_load_bound_profile_package" then
      { op with
        state := .installing
        message := some "Installing on the card; this takes about 15-30 seconds." }
    else op

/-- `run_download`: the preview was not answered in time. -/
def previewExpired (now : Nat) (inner : Inner) : Bool :=
  inner.operation.any fun o =>
    o.state == .awaitingConfirmation && o.previewUntil.any (· ≤ now)

/-- The receipts a helper answer says were on the card before. -/
def notificationsBefore (data : Value) : Option (List Nat) :=
  (data.get "notifications_before").asArray.map (·.filterMap Value.asU64)

/-- `run_download`, the helper answered with success. -/
def downloadInstalled (data : Value) (inner : Inner) : Inner :=
  inner.updateOp fun op =>
    let op := { op with
      state := .verifying, message := some "Installed; reading the card back." }
    match notificationsBefore data with
    | some before => { op with receiptBefore := before }
    | none => op

/-- `run_download`, the helper answered with a failure that lists the receipts. -/
def downloadBaseline (before : List Nat) (inner : Inner) : Inner :=
  inner.updateOp fun op => { op with receiptBefore := before }

/-- `download_confirm` finds the operation it may confirm. -/
def confirmable (id : Option String) (op : Operation) : Bool :=
  op.kind == .download && id == some op.id && op.state == .awaitingConfirmation

/-- `download_confirm`, once the decision went out. -/
def confirmed (op : Operation) (inner : Inner) : Inner :=
  { inner with operation := some { op with state := .connecting, previewUntil := none } }

/-! ### Locks and receipts -/

/-- `lock`: whether the profile is known, and the new set of locks. -/
def setLock (handle : String) (locked : Bool) (inner : Inner) : Bool × Inner :=
  if inner.inventory.any (fun i => (i.find handle).isSome) then
    (true, { inner with
      locked := if locked then insertHandle handle inner.locked
        else inner.locked.filter (· ≠ handle) })
  else (false, inner)

/-- `receipts_send`: the receipts on the card, or `none` while a change is in progress. -/
def listedReceipts (inner : Inner) : Option (List Nat) :=
  if inner.operationBusy then none
  else some ((inner.inventory.map (·.notifications)).getD [])

/-- `queue_receipts`: each number once. -/
def pushReceipts (seqs : List Nat) (inner : Inner) : Inner :=
  { inner with receipts := { inner.receipts with
    pending := seqs.foldl (fun pending s => if s ∈ pending then pending else pending ++ [s])
      inner.receipts.pending
    round := 0
    gaveUp := false } }

/-- `start_receipt_worker`: claims the worker's place; false when a worker has it. -/
def claimWorker (inner : Inner) : Bool × Inner :=
  if inner.receipts.worker then (false, inner)
  else (true, { inner with receipts := { inner.receipts with worker := true } })

/-- `receipt_worker` looks at the queue: the receipts to send, the card's EID and the round, or
`none` when the worker ends. -/
def workerRound (inner : Inner) : Option (List Nat × Option String × Nat) × Inner :=
  if inner.receipts.pending = [] ∨ receiptMaxRounds ≤ inner.receipts.round then
    (none, { inner with receipts := { inner.receipts with
      gaveUp := inner.receipts.pending ≠ [] ∧ receiptMaxRounds ≤ inner.receipts.round
      worker := false } })
  else
    (some (inner.receipts.pending, inner.inventory.map (·.eid), inner.receipts.round), inner)

/-- A result the worker takes as done: delivered, or no longer on the card. -/
def receiptDone (r : Value) : Bool := (r.get "delivered").isTrue || (r.get "gone").isTrue

/-- The sequence number of a result. -/
def receiptSeq (r : Value) : Nat := (r.get "seq").asU64.getD 0

/-- The results of a delivery round. -/
def receiptResults (data : Value) : List Value := (data.get "results").asArray.getD []

/-- The sequence numbers a round takes off the queue. -/
def receiptsDone (data : Value) : List Nat :=
  ((receiptResults data).filter receiptDone).map receiptSeq

/-- The sequence numbers the helper says are off the card now. -/
def receiptsOff (data : Value) : List Nat :=
  ((receiptResults data).filter
    (fun r => (r.get "removed").isTrue || (r.get "gone").isTrue)).map receiptSeq

/-- The errors of a round, for the receipts that stay. -/
def receiptErrors (data : Value) : List String :=
  ((receiptResults data).filter (fun r => !receiptDone r)).filterMap fun r =>
    (r.get "error").asStr.map fun e => (r.get "host").asStr.getD "server" ++ ": " ++ e

/-- `receipt_worker` takes a round's outcome in. -/
def absorbDelivery (outcome : HelperOutcome) (before : Inner) : Inner :=
  let inner := { before with
    receipts := { before.receipts with round := before.receipts.round + 1 } }
  match outcome with
  | .ok data => { inner with
      receipts := { inner.receipts with
        pending := inner.receipts.pending.filter (fun s => !(receiptsDone data).contains s)
        lastError := (receiptErrors data).head? }
      -- Re-read the card on the next view so its receipt count is current.
      readAttempt := none }
  | .failed kind message _ =>
    if kind = "card_changed" then
      { inner with receipts := { inner.receipts with pending := [], lastError := some message } }
    else
      { inner with receipts := { inner.receipts with lastError := some message } }
  | .killed => { inner with receipts :=
      { inner.receipts with lastError := some "the delivery run was stopped" } }
  | .garbled m | .missing m =>
    { inner with receipts := { inner.receipts with lastError := some m } }

end Inner

end OpenUI.Agent.Esim
