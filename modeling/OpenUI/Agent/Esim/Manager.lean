import OpenUI.Agent.Esim.Actions
import OpenUI.Agent.Esim.Checks

/-!
# `OpenUI.Agent.Esim.Manager`: the manager's functions as thread programs

`EsimManager` of `agent/src/esim.rs`, function by function and in the source's order: start and
recovery, reads, writes, downloads, receipts. A function is the sequence of its critical
sections, helper calls and file operations; log lines are left out. A loop is a body of its own
that goes on with itself. `threadBody` names the program of every thread, and `manager` is the
machine they run on.
-/

set_option autoImplicit false

namespace OpenUI.Agent.Esim

open OpenUI.Json OpenUI.Text OpenUI.Concurrency

/-- A program of the manager. -/
abbrev Prog := Program Act

/-- A look at the guarded state. -/
def look {β : Type} (q : Look β) : Prog β := liftM (Act.look q)

/-- A question to the environment. -/
def ask {β : Type} (q : Query β) : Prog β := liftM (Act.ask q)

/-- `if b { p }`. -/
def onlyIf (b : Bool) (p : Prog Unit) : Prog Unit := if b then p else pure ()

/-- Runs `p` for what it does. -/
def ignore {α : Type} (p : Prog α) : Prog Unit := do
  let _ ← p
  pure ()

/-- `(code, json!({"ok": true, "data": self.view()}))`. -/
def answerView (code : Nat) : Prog Answer := do
  let view ← look .view
  pure { code, view := some view }

/-- `err(code, msg)`. -/
def err (code : Nat) (error : String) : Answer := { code, error := some error }

/-- The answer to a request that is turned down. -/
def refuse : Refusal → Prog Answer
  | .answer code error => pure (err code error)
  | .repeated => answerView 200

/-! ### State and journal files -/

/-- `save_state`. A failure is only logged. -/
def saveState : Prog Unit := do
  let snapshot ← Act.snapshot
  ignore (liftM (Act.writeState snapshot))

/-- `clear_journal`. A failure is only logged. -/
def clearJournal : Prog Unit := do
  let found ← Act.journalExists
  onlyIf found (ignore (liftM Act.removeJournal))

/-! ### Receipts -/

/-- `start_receipt_worker`. -/
def startReceiptWorker : Prog Unit := do
  let claimed ← Act.claimWorker
  onlyIf claimed (liftM (Act.spawn .receiptWorker))

/-- `queue_receipts`; `queue_change_receipts` only adds a log line. -/
def queueReceipts (seqs : List Nat) : Prog Unit :=
  if seqs = [] then pure ()
  else do
    Act.pushReceipts seqs
    saveState
    startReceiptWorker

/-- `queue_new_receipts_after_read`. -/
def queueNewReceiptsAfterRead : Prog Unit := do
  let new ← Act.newReceipts
  queueReceipts new

/-! ### Recovery -/

/-- `recover`, what becomes of the journal it read. -/
def recoverJournal : Option Value → Prog Unit
  | none => pure ()
  | some j =>
    match Operation.recovered j with
    | none => clearJournal
    | some op => do
      Act.putOperation op
      -- An interrupted download is never resumed: a new profile is the only sign it finished.
      Act.spawn (if op.kind = .download then .settleDownload false else .verify op.kind false)

/-- `recover`: an operation that was in flight is read back, never sent again. -/
def recover : Prog Unit := do
  let journal ← Act.readJournal
  let pending ← Act.receiptsPending
  onlyIf pending startReceiptWorker
  recoverJournal journal

/-- The main thread: `with_paths`, `recover`, and the server. -/
def main : Prog (Next Body) := do
  saveState
  recover
  Act.serve
  pure .stop

/-! ### Reads -/

/-- `no_isdr && self.env.sim_ready()`. -/
def askSimReady : HelperOutcome → Prog Bool
  | .failed kind _ _ => if kind = "isdr_unavailable" then ask .simReady else pure false
  | _ => pure false

/-- `absorb_read`. Whether the SIM is ready is asked before the lock. -/
def absorbRead (outcome : HelperOutcome) : Prog (Except (String × String) Unit) := do
  let simReady ← askSimReady outcome
  let result ← Act.absorbRead outcome simReady
  match result with
  | .error e => pure (.error e)
  | .ok newCard => do
    onlyIf newCard saveState
    pure (.ok ())

/-- One helper run, from its start to its answer. -/
def helper (request : Request) : Prog HelperOutcome := do
  Act.startHelper request
  Act.helperAnswer

/-- A helper run under the card mutex. -/
def helperLocked (request : Request) : Prog HelperOutcome := do
  Act.lockCard
  let outcome ← helper request
  Act.unlockCard
  pure outcome

/-- An inventory run and what becomes of it, under the card mutex. -/
def readLocked : Prog (Except (String × String) Unit) := do
  let outcome ← helper .inventory
  let result ← absorbRead outcome
  Act.unlockCard
  pure result

/-- `read_card`. -/
def readCard : Prog (Except (String × String) Unit) := do
  Act.lockCard
  readLocked

/-- `summary`; the detection runs in the background. -/
def summary : Prog Answer := do
  let due ← Act.summary
  onlyIf due (liftM (Act.spawn .detect))
  answerView 200

/-- `detect`. -/
def detect : Prog (Next Body) := do
  let key ← ask .simKey
  let skip ← look (.detectSkip key)
  onlyIf (!skip) (ignore readCard)
  Act.detectDone key
  pure .stop

/-- The read of `profiles`. It never queues behind another card session. -/
def readIfFree : Prog Unit := do
  let free ← Act.tryLockCard
  onlyIf free (ignore readLocked)

/-- `profiles`. -/
def profiles : Prog Answer := do
  let due ← look .profilesDue
  onlyIf due readIfFree
  answerView 200

/-- `refresh`. -/
def refresh : Prog Answer := do
  let busy ← look .operationBusy
  onlyIf (!busy) (ignore readCard)
  answerView 200

/-! ### Writes -/

/-- `admit`. -/
def admitRequest (kind : Kind) (body : Value) : Prog (Except Answer Admitted) :=
  match (body.get "operation_id").asStr.filter validOperationId with
  | none => pure (.error (err 400 "operation_id must be 8-64 letters, digits, '-' or '_'"))
  | some id =>
    match (body.get "handle").asStr with
    | none => pure (.error (err 400 "missing handle"))
    | some handle =>
      match (body.get "revision").asU64 with
      | none => pure (.error (err 400 "missing revision"))
      | some revision => do
        let result ← Act.admitChange kind id handle revision
        match result with
        | .ok a => pure (.ok a)
        | .error refusal => do
          let answer ← refuse refusal
          pure (.error answer)

/-- The helper request of `switch`. -/
def switchRequest (kind : Kind) (a : Admitted) : Request :=
  match kind with
  | .delete => .delete a.target.iccid a.eid
  | _ => .switch kind a.target.iccid a.eid (a.active.map (·.iccid))

/-- `switch`: enable, disable and delete. -/
def switch (kind : Kind) (body : Option Value) : Prog Answer :=
  match body with
  | none => pure (err 400 "invalid JSON")
  | some body => do
    let result ← admitRequest kind body
    match result with
    | .error answer => pure answer
    | .ok a => do
      let written ← Act.writeJournal a.op
      match written with
      | .error e => do
        Act.dropOperation
        pure (err 503 ("cannot record the change: " ++ e))
      | .ok () => do
        Act.spawn (.runSwitch kind (switchRequest kind a))
        answerView 202

/-- `set_op`. -/
def setOp (state : OpState) (message : Option String) : Prog Unit :=
  liftM (Act.setOp state message)

/-- `finish`. -/
def finish (state : OpState) (message : Option String) : Prog Unit := do
  setOp state message
  Act.setFinishedAt
  clearJournal

/-- `run_switch`, what follows from the helper's answer. -/
def switchAnswered (kind : Kind) : HelperOutcome → Prog (Next Body)
  | .ok _ =>
    if kind = .delete then do
      setOp .verifying (some "The card accepted the deletion; reading the card back.")
      pure (.goto (.verify kind true))
    else do
      setOp .reloading
        (some "The card accepted the change; the modem is reloading the SIM.")
      ask .invalidateNetwork
      pure (.goto (.verify kind true))
  | .failed k message detail =>
    if k = "refused" ∧ kind ≠ .delete ∧ (detail.get "code").asU64 = some 5 then do
      finish .busy (some ("The card is busy (its SIM Toolkit is in a session). Nothing changed; "
        ++ "it usually accepts a retry within a few minutes. Right after the last "
        ++ "profile was deactivated this took about 4 minutes on the tested card."))
      pure .stop
    else if k = "refused" then do
      finish .refused (some ("The card refused the change (" ++ message ++ "). Nothing changed."))
      pure .stop
    else if k = "state_changed" ∨ k = "card_changed" then do
      finish .refused (some (message ++ ". Nothing changed."))
      ignore readCard
      pure .stop
    else if k = "outcome_unknown" then do
      setOp .verifying (some "The card's answer was lost; reading the card back.")
      ask .invalidateNetwork
      pure (.goto (.verify kind false))
    else if k = "lock_busy" then do
      finish .failed (some "Another eSIM operation held the card. Nothing changed.")
      pure .stop
    else do
      finish .failed (some ("The change was not sent (" ++ message ++ ")."))
      pure .stop
  | .killed | .garbled _ => do
    setOp .verifying (some "The change may or may not have reached the card; reading it back.")
    ask .invalidateNetwork
    pure (.goto (.verify kind false))
  | .missing m => do
    Act.setHelperMissing
    finish .failed (some m)
    pure .stop

/-- `run_switch`. -/
def runSwitch (kind : Kind) (request : Request) : Prog (Next Body) := do
  let outcome ← helperLocked request
  switchAnswered kind outcome

/-- `verify`, up to its loop. -/
def verify (t : Timing) (kind : Kind) (accepted : Bool) : Prog (Next Body) := do
  ask (.sleep t.verifyDelay)
  let start ← look .now
  pure (.goto (.verifyLoop kind accepted start))

/-- `verify`: the target's state is the one the change asked for. -/
def switchDone (kind : Kind) (state : Option String) : Bool :=
  match kind with
  | .enable => state == some "enabled"
  | .delete => state.isNone
  | _ => state == some "disabled"

/-- The message of a change that shows on the card. -/
def switchDoneMessage : Kind → String
  | .enable =>
    "The profile is active on the card. Connectivity is separate and can take a minute."
  | .delete => "The profile was deleted from the card."
  | _ => "No profile is active. Cellular service has stopped."

/-- `verify`, the end of a turn: give up when the window has closed, or wait. -/
def verifyWait (t : Timing) (kind : Kind) (accepted : Bool) (start : Nat) :
    Prog (Next Body) := do
  let now ← look .now
  if t.verifyWindow ≤ now - start then do
    finish .unknown (some ("The card could not be read back. The change may or may not have "
      ++ "happened; refresh in a minute."))
    pure .stop
  else do
    ask (.sleep t.verifyInterval)
    pure (.goto (.verifyLoop kind accepted start))

/-- One turn of `verify`'s loop. -/
def verifyLoop (t : Timing) (kind : Kind) (accepted : Bool) (start : Nat) :
    Prog (Next Body) := do
  let read ← readCard
  match read with
  | .ok () => do
    let (targetState, receiptsNew) ← Act.examine
    if switchDone kind targetState then do
      finish .succeeded (some (switchDoneMessage kind))
      onlyIf (kind != .delete) (ask .invalidateNetwork)
      queueReceipts receiptsNew
      pure .stop
    else match targetState with
      | some _ =>
        if !accepted then do
          finish .failed (some "The card shows the change was not applied.")
          pure .stop
        else
          -- Accepted but not visible yet: keep reading.
          verifyWait t kind accepted start
      | none => do
        finish .unknown (some "The profile is no longer on the card.")
        pure .stop
  | .error (k, _) => do
    onlyIf (kind != .delete
        && (k == "sim_reloading" || k == "management_unavailable" || k == "busy"))
      (setOp (if accepted then .reloading else .verifying)
        (some "The modem is reloading the SIM; the card can't be read yet."))
    verifyWait t kind accepted start

/-! ### Downloads -/

/-- The checks of `download` before the lock: the id, the trimmed code and confirmation code. -/
def checkDownload (body : Value) : Except Answer (String × String × Option String) :=
  match (body.get "operation_id").asStr.filter validOperationId with
  | none => .error (err 400 "operation_id must be 8-64 letters, digits, '-' or '_'")
  | some id =>
    match (body.get "activation_code").asStr with
    | none => .error (err 400 "missing activation_code")
    | some code =>
      match checkActivationCode code with
      | .error e => .error (err 400 e)
      | .ok needsConfirmation =>
        match optText (body.get "confirmation_code") with
        | some c =>
          if maxConfirmationCode < c.utf8ByteSize || c.toList.any isControl then
            .error (err 400
              "the confirmation code is too long or contains control characters")
          else .ok (id, trim code, some c)
        | none =>
          if needsConfirmation then
            .error (err 400 "this activation code needs a confirmation code")
          else .ok (id, trim code, none)

/-- `download`. -/
def download (body : Option Value) : Prog Answer :=
  match body with
  | none => pure (err 400 "invalid JSON")
  | some body =>
    match checkDownload body with
    | .error answer => pure answer
    | .ok (id, code, confirmation) => do
      let claim ← Act.claimDownload id
      match claim with
      | .error refusal => refuse refusal
      | .ok (eid, controls) => do
        -- The download runs over the router's own data, so it needs a data connection.
        let up ← ask .wanUp
        if !up then do
          Act.dropOperation
          pure (err 409 ("the router has no mobile data connection; a download needs an active "
            ++ "profile with data"))
        else do
          let journaled ← Act.journalOperation
          match journaled with
          | some (.error e) => do
            Act.dropOperation
            pure (err 503 ("cannot record the change: " ++ e))
          | _ => do
            Act.spawn (.runDownload (.download code eid confirmation) controls)
            answerView 202

/-- `run_download`, up to its loop. -/
def runDownload (request : Request) (controls : Nat) : Prog (Next Body) := do
  Act.lockCard
  Act.startHelper request
  pure (.goto (.downloadLoop controls false))

/-- `run_download`: a failed run may list the receipts that were on the card before. -/
def takeBaseline (detail : Value) : Prog Unit :=
  match Inner.notificationsBefore detail with
  | some before => liftM (Act.downloadBaseline before)
  | none => pure ()

/-- `run_download`, what follows from the helper's answer. -/
def downloadAnswered : HelperOutcome → Prog (Next Body)
  | .ok data => do
    Act.downloadInstalled data
    pure (.goto (.settleDownload true))
  | .failed kind message detail => do
    takeBaseline detail
    if kind = "download_cancelled" then do
      finish .cancelled (some (
        if message = "declined at the preview" then
          "Declined at the preview. Nothing was installed."
        else if message = "not confirmed in time" then
          "The preview was not confirmed within 2 minutes. Nothing was installed."
        else "Cancelled. Nothing was installed."))
      pure .stop
    else if kind = "download_failed" then do
      finish .failed (some (explainDownloadFailure message))
      -- A card-reported install failure leaves a receipt for the operator.
      queueNewReceiptsAfterRead
      pure .stop
    else if kind = "outcome_unknown" then
      pure (.goto (.settleDownload false))
    else if kind = "lock_busy" then do
      finish .failed (some "Another eSIM operation held the card. Nothing was installed.")
      pure .stop
    else do
      finish .failed (some ("The download did not start: " ++ message ++ "."))
      pure .stop
  | .killed | .garbled _ => pure (.goto (.settleDownload false))
  | .missing m => do
    Act.setHelperMissing
    finish .failed (some m)
    pure .stop

/-- `on_progress`. -/
def onProgress (step : String) (data : Value) : Prog Unit := do
  let eid ← look .inventoryEid
  Act.onProgress step data eid

/-- One turn of `run_download`'s loop, from the helper's event on. -/
def downloadEvent (controls : Nat) (timedOut : Bool) : RunEvent → Prog (Next Body)
  | .wait => pure (.goto (.downloadLoop controls timedOut))
  | .progress step data => do
    onProgress step data
    pure (.goto (.downloadLoop controls timedOut))
  | .done outcome => do
    Act.unlockCard
    downloadAnswered outcome

/-- One turn of `run_download`'s loop. Waiting decisions go out one a turn, before anything
else is looked at. -/
def downloadLoop (controls : Nat) (timedOut : Bool) : Prog (Next Body) := do
  let control ← Act.takeControl controls
  match control with
  | some control => do
    Act.sendControl control
    pure (.goto (.downloadLoop controls timedOut))
  | none => do
    let expired ← look .previewExpired
    onlyIf (expired && !timedOut) (liftM (Act.sendControl .timeout))
    let event ← Act.runEvent
    downloadEvent controls (timedOut || expired) event

/-- `settle_download`, up to its loop. -/
def settleDownload (reported : Bool) : Prog (Next Body) := do
  let start ← look .now
  pure (.goto (.settleLoop reported start))

/-- `settle_download`, the end of a turn. -/
def settleWait (t : Timing) (reported : Bool) (start : Nat) : Prog (Next Body) := do
  let now ← look .now
  if t.verifyWindow ≤ now - start then do
    finish .unknown (some ("The card could not be read back. The profile may or may not have been "
      ++ "installed; refresh in a minute."))
    pure .stop
  else do
    ask (.sleep t.verifyInterval)
    pure (.goto (.settleLoop reported start))

/-- `settle_download` writes the requested nickname. The result is the note for the user. -/
def writeNickname (iccid eid name : String) : Prog String := do
  let outcome ← helperLocked (.nickname iccid eid name)
  ignore readCard
  pure (match outcome with
    | .ok _ => ""
    | _ => " The nickname could not be saved; use Rename.")

/-- `settle_download` writes the nickname the user gave, if any. -/
def writeRequested (iccid eid : String) (nickname : Option String) : Prog String :=
  match nickname.filter (fun n => !n.isEmpty) with
  | some name => writeNickname iccid eid name
  | none => pure ""

/-- `settle_download` found the new profile. -/
def settleFound (handle iccid eid : String) : Prog (Next Body) := do
  let nickname ← Act.takeFound handle
  let note ← writeRequested iccid eid nickname
  finish .succeeded (some ("Installed. The new profile is inactive." ++ note))
  queueNewReceiptsAfterRead
  pure .stop

/-- One turn of `settle_download`'s loop. -/
def settleLoop (t : Timing) (reported : Bool) (start : Nat) : Prog (Next Body) := do
  let read ← readCard
  match read with
  | .ok () => do
    let found ← Act.findInstalled
    match found with
    | none => pure .stop
    | some (some (handle, iccid, eid)) => settleFound handle iccid eid
    | some none =>
      if !reported then do
        finish .failed (some "The download was interrupted; nothing was installed.")
        pure .stop
      else settleWait t reported start
  | .error _ => settleWait t reported start

/-- `download_confirm`. -/
def downloadConfirm (body : Option Value) : Prog Answer :=
  match body with
  | none => pure (err 400 "invalid JSON")
  | some body =>
    match (body.get "install").asBool with
    | none => pure (err 400 "missing install")
    | some install =>
      let nickname := optText (body.get "nickname")
      match (nickname.map validNickname).getD (.ok ()) with
      | .error e => pure (err 400 e)
      | .ok () => do
        let result ← Act.confirm (body.get "operation_id").asStr install nickname
        match result with
        | .error e => pure (err 409 e)
        | .ok () => answerView 200

/-- `download_cancel`. -/
def downloadCancel (body : Option Value) : Prog Answer :=
  match body with
  | none => pure (err 400 "invalid JSON")
  | some body => do
    let result ← Act.cancel (body.get "operation_id").asStr
    match result with
    | .error e => pure (err 409 e)
    | .ok () => answerView 200

/-! ### Receipts on request, renames and locks -/

/-- `receipts_send`: delivers every receipt on the card, on request only. -/
def receiptsSend : Prog Answer := do
  let seqs ← Act.listedReceipts
  match seqs with
  | none => pure (err 409 "another eSIM change is still in progress")
  | some seqs =>
    if seqs = [] then answerView 200
    else do
      queueReceipts seqs
      answerView 202

/-- The verdict of `nickname` on the helper's answer. -/
def nicknameVerdict : HelperOutcome → OpState × Option String
  | .ok _ => (.succeeded, none)
  | .failed kind message _ =>
    if kind = "outcome_unknown" then (.unknown, some (message ++ "; refresh to see the name"))
    else if kind = "refused" ∨ kind = "state_changed" ∨ kind = "card_changed" then
      (.refused, some message)
    else (.failed, some message)
  | .killed => (.unknown, some "the rename was stopped; refresh to see the name")
  | .garbled m | .missing m => (.failed, some m)

/-- `nickname` publishes its verdict, reads the card and answers. -/
def nicknameAnswered (state : OpState) (message : Option String) : Prog Answer := do
  setOp state message
  ignore readCard
  let view ← look .view
  pure (if state = .succeeded then { code := 200, view := some view }
    else
      { code := 409
        error := some ((view.operation.bind (·.message)).getD "the rename failed")
        view := some view })

/-- `nickname`: quick, so answered when done. -/
def nickname (body : Option Value) : Prog Answer :=
  match body with
  | none => pure (err 400 "invalid JSON")
  | some body =>
    match (body.get "nickname").asStr with
    | none => pure (err 400 "missing nickname")
    | some name =>
      match validNickname name with
      | .error e => pure (err 400 e)
      | .ok () => do
        let result ← admitRequest .nickname body
        match result with
        | .error answer => pure answer
        | .ok a => do
          let outcome ← helperLocked (.nickname a.target.iccid a.eid name)
          nicknameAnswered (nicknameVerdict outcome).1 (nicknameVerdict outcome).2

/-- `lock`: an agent-side guard against activating a profile. -/
def lock (body : Option Value) : Prog Answer :=
  match body with
  | none => pure (err 400 "invalid JSON")
  | some body =>
    match (body.get "handle").asStr, (body.get "locked").asBool with
    | some handle, some locked => do
      let known ← Act.setLock handle locked
      if known then do
        saveState
        answerView 200
      else pure (err 404 "no such profile")
    | _, _ => pure (err 400 "expected handle and locked")

/-- One delivery round of `receipt_worker`. -/
def deliver (eid : String) (seqs : List Nat) (round : Nat) : Prog (Next Body) := do
  let outcome ← helperLocked (.notify eid seqs)
  Act.absorbDelivery outcome
  saveState
  let pending ← Act.receiptsPending
  onlyIf pending (ask (.sleep (receiptDelays.getD (min round 5) 0)))
  pure (.goto .receiptWorker)

/-- One turn of `receipt_worker`'s loop. -/
def receiptWorker (t : Timing) : Prog (Next Body) := do
  let look ← Act.workerRound
  match look with
  | none => pure .stop
  | some (_, none, _) => do
    -- After a restart the card has not been read yet: wait for the first read.
    ask (.sleep t.wanPoll)
    pure (.goto .receiptWorker)
  | some (seqs, some eid, round) => do
    let up ← ask .wanUp
    if !up then do
      ask (.sleep t.wanPoll)
      pure (.goto .receiptWorker)
    else do
      onlyIf (round == 0) (ask (.sleep t.receiptSettle))
      deliver eid seqs round

/-! ### Threads -/

/-- A handler of the HTTP server. -/
def handle : HttpRequest → Prog Answer
  | .profiles => profiles
  | .refresh => refresh
  | .dashboard => summary
  | .enable body => switch .enable body
  | .disable body => switch .disable body
  | .delete body => switch .delete body
  | .nickname body => nickname body
  | .lock body => lock body
  | .download body => download body
  | .downloadConfirm body => downloadConfirm body
  | .downloadCancel body => downloadCancel body
  | .receiptsSend => receiptsSend

/-- The program of each thread. -/
def threadBody (t : Timing) : Body → Prog (Next Body)
  | .main => main
  | .http request => do
    let answer ← handle request
    Act.reply answer
    pure .stop
  | .detect => detect
  | .runSwitch kind request => runSwitch kind request
  | .verify kind accepted => verify t kind accepted
  | .verifyLoop kind accepted start => verifyLoop t kind accepted start
  | .runDownload request controls => runDownload request controls
  | .downloadLoop controls timedOut => downloadLoop controls timedOut
  | .settleDownload reported => settleDownload reported
  | .settleLoop reported start => settleLoop t reported start
  | .receiptWorker => receiptWorker t

/-- The manager's threads on their world. -/
def manager (P : Platform) (t : Timing) : Machine Act Ctx World Body Choice Outside where
  exec := exec P t
  after := Ctx.after
  spawns := spawns
  body := threadBody t
  occur := occur

/-- A state of the agent and the disk. -/
abbrev AgentState := State Act Ctx World Body

/-- The device before the agent's first start. -/
def AgentState.fresh : AgentState := ⟨.fresh, []⟩

end OpenUI.Agent.Esim
