import OpenUI.Euicc.Es9p
import OpenUI.Helper.Download
import OpenUI.Helper.Inventory

/-!
# `OpenUI.Helper.Notify`: the delivery of receipts

`notify` of `esim-helper/src/main.rs`, with the functions of `euicc/src/es10b.rs`, `es10c.rs`,
`info2.rs` and `es9p.rs` that it calls. In one card session it lists the receipts and retrieves
those that were asked for; without a session it sends each to its server; in a second session it
removes the ones that were accepted. `notify` is a program over what it asks of the card and of the servers.

A run keeps a record (`Done`, the latest first) of the commands and of the requests. No action
depends on the record. The HTTP headers of a request are the same for all and are left out.
-/

set_option autoImplicit false

namespace OpenUI.Helper.Notify

open OpenUI.Concurrency OpenUI.Euicc OpenUI.Json

/-! ### The card's functions -/

/-- A request to the card, and how its answer's contents are read. -/
def ask {α : Type} (tag : Nat) (req : Node) (read : Bytes → Except Error α) : CardProgram α := do
  let body ← es10Request tag req
  tryOk (read body)

/-- The request of `eid`. -/
def eidRequest : Node := .cons 0xBF3E [.prim 0x5C [0x5A]]

/-- `eid`, from the body of the answer. -/
def readEid (body : Bytes) : Except Error String := do
  let t ← okOr (find body 0x5A) (.malformed "no EID")
  return Agent.Esim.hex t.value

/-- `eid`. -/
def eid : CardProgram String := ask 0xBF3E eidRequest readEid

/-- `euicc_ci_pkid_list_for_verification` of `parse_info2`. A later list replaces an earlier one. -/
def ciKeyIds (body : Bytes) : List String :=
  (elements body).foldl (fun ids t =>
    if t.tag = 0xA9 then (elements t.value).map fun key => Agent.Esim.hex key.value else ids) []

/-- `euicc_info2`, as far as it is read here. -/
def euiccInfo2 : CardProgram (List String) :=
  ask 0xBF22 (.prim 0xBF22 []) fun body => .ok (ciKeyIds body)

/-- The request of `list_notifications`. -/
def listRequest : Node := .prim 0xBF28 []

/-- The sequence numbers of `parse_notifications`. -/
def readNotifications (body : Bytes) : Except Error (List UInt64) := do
  let listing ← okOr (parseNotifications body) (.malformed "notification list error")
  return listing.map fun n => UInt64.ofNat n.seqNumber

/-- `list_notifications`, as far as it is read here. -/
def listNotifications : CardProgram (List UInt64) := ask 0xBF28 listRequest readNotifications

/-- `PendingNotification`: a notification ready for its server. -/
structure PendingNotification where
  notificationAddress : String
  /-- The whole element. -/
  der : Bytes
  deriving DecidableEq, Repr

/-- `find_any`. -/
def findAny (buf : Bytes) (tags : List Nat) : Option Tlv :=
  (elements buf).find? fun t => tags.contains t.tag

/-- `parse_pending`: a RetrieveNotificationsListResponse body. -/
def parsePending (body : Bytes) : Except Error PendingNotification := do
  let list ← okOr (find body 0xA0) (.malformed "no pending notification")
  let pending ← okOr (findAny list.value [0xBF37, 0x30]) (.malformed "no pending notification")
  let metadata ← okOr
    -- An installation result has its metadata one level deeper than another notification.
    (if pending.tag = 0xBF37 then (find pending.value 0xBF27).bind fun d => find d.value 0xBF2F
    else find pending.value 0xBF2F)
    (.malformed "no notification metadata")
  let address ← okOr (find metadata.value 0x0C) (.malformed "no notification address")
  return { notificationAddress := fromUtf8Lossy address.value, der := pending.raw }

/-- The request of `retrieve_notification`. -/
def retrieveRequest (seq : UInt64) : Node := .cons 0xBF2B [.cons 0xA0 [.prim 0x80 (fromU64 seq)]]

/-- `retrieve_notification`. -/
def retrieveNotification (seq : UInt64) : CardProgram PendingNotification :=
  ask 0xBF2B (retrieveRequest seq) parsePending

/-- `result_code`, from the body of the answer. -/
def readResultCode (body : Bytes) : Except Error Nat := do
  let t ← okOr (find body 0x80) (.malformed "no result code")
  return (toU64 t.value).toNat

/-- The request of `remove_notification`. -/
def removeRequest (seq : UInt64) : Node := .cons 0xBF30 [.prim 0x80 (fromU64 seq)]

/-- `remove_notification`: 0 is ok, 1 is nothing to delete. -/
def removeNotification (seq : UInt64) : CardProgram Nat :=
  ask 0xBF30 (removeRequest seq) readResultCode

/-! ### What the operation does -/

/-- The actions of the operation. The end of a card session is not one: it has no result. -/
inductive Step : Type → Type where
  /-- `Card::session`, with the tags its guard passes. -/
  | session (tags : List Nat) : Step (Except Failure Unit)
  /-- A command to the card. -/
  | command (der : Bytes) : Step (Except Error Bytes)
  /-- `Http::post`. -/
  | post (url : String) (body : Bytes) : Step (Except String (UInt32 × Bytes))
  /-- `cancelled`. -/
  | cancelled : Step Bool

/-- A part that may end the request. -/
abbrev Steps := ExceptT Failure (Program Step)

/-- A command of a card function is one to the open card session. -/
def Step.ofEs10 : {β : Type} → Es10 β → Step β
  | _, .command der => .command der

/-- A function of `Euicc`, on the open card session. -/
def onCard {α : Type} (p : CardProgram α) : Program Step (Except Error α) :=
  p.run.hoist Step.ofEs10

/-- A function of `Euicc`, with `map_err(|x| read_err(what, x))?`. -/
def reading {α : Type} (what : String) (p : CardProgram α) : Steps α :=
  ExceptT.mk do return (← onCard p).mapError (readErr what)

/-- `check_eid`. -/
def checkEid (expect : String) : Steps Unit := do
  let eid ← reading "reading the EID" eid
  if Text.eqIgnoreAsciiCase expect eid then return ()
  else throw { kind := "card_changed", message := "a different eSIM card is in the slot" }

/-! ### The servers -/

/-- `PATH_HANDLE_NOTIFICATION`. -/
def pathHandleNotification : String := "/gsma/rsp2/es9plus/handleNotification"

/-- The URL of a request. -/
def url (serverAddress path : String) : String := "https://" ++ cStr serverAddress ++ path

/-- The body of HandleNotification. -/
def handleNotificationBody (b64PendingNotification : String) : Bytes :=
  Es9p.printObject [("pendingNotification", some b64PendingNotification)]

/-- The second half of `exchange`: the body of a 2xx answer. -/
def readAnswer : Except String (UInt32 × Bytes) → Except Download.Es9pStatus Bytes
  | .error cause => .error { message := "HTTP transport failed", transportError := some cause }
  | .ok (code, body) =>
    if code / 100 ≠ 2 then
      -- The status is printed as an `i32`.
      .error { subjectIdentifier := toString code.toInt32, message := Download.httpStatusError }
    else .ok body

/-- `exchange`. -/
def exchange (serverAddress path : String) (request : Bytes) :
    Program Step (Except Download.Es9pStatus Bytes) := do
  let answer ← Step.post (url serverAddress path) request
  return readAnswer answer

/-- `handle_notification`. -/
def handleNotification (serverAddress b64PendingNotification : String) :
    Program Step (Except Download.Es9pStatus Unit) := do
  let answer ← exchange serverAddress pathHandleNotification
    (handleNotificationBody b64PendingNotification)
  return answer.map fun _ => ()

/-! ### Delivery -/

/-- The tags of the first session. -/
def readTags : List Nat := [0xBF3E, 0xBF22, 0xBF28, 0xBF2B]

/-- The tags of the second session. -/
def removeTags : List Nat := [0xBF3E, 0xBF30]

/-- `GSMA_CI1_KEY_ID`. -/
def gsmaCi1KeyId : String := "81370f5125d0b1d408d4c3b232e6d25e795bebfb"

/-- The result of a receipt that is not on the card. -/
def goneResult (seq : UInt64) : Value :=
  .obj [("seq", .num seq.toNat), ("delivered", .bool false), ("gone", .bool true)]

/-- The result of a receipt that its server did not take. -/
def failedResult (seq : UInt64) (host error : String) : Value :=
  .obj [("seq", .num seq.toNat), ("delivered", .bool false), ("host", .str host),
    ("error", .str error)]

/-- The result of a receipt that its server took, after the second session. -/
def deliveredResult (seq : UInt64) (removed : Bool) : Value :=
  .obj [("seq", .num seq.toNat), ("delivered", .bool true), ("removed", .bool removed)]

/-- The result of a receipt that its server took, without a second session. -/
def keptResult (error : String) (seq : UInt64) : Value :=
  .obj [("seq", .num seq.toNat), ("delivered", .bool true), ("removed", .bool false),
    ("error", .str error)]

/-- The first loop: the requested receipts that are listed, and the results of the others. -/
def retrieveEach (listed : List UInt64) :
    List UInt64 → Steps (List (UInt64 × PendingNotification) × List Value)
  | [] => return ([], [])
  | seq :: seqs =>
    if listed.contains seq then do
      let p ← reading "retrieving a receipt" (retrieveNotification seq)
      let (pending, results) ← retrieveEach listed seqs
      return ((seq, p) :: pending, results)
    else do
      let (pending, results) ← retrieveEach listed seqs
      return (pending, goneResult seq :: results)

/-- The first session. -/
def retrieve (expectEid : String) (seqs : List UInt64) :
    Steps (List (UInt64 × PendingNotification) × List Value) := do
  ExceptT.mk (liftM (Step.session readTags))
  checkEid expectEid
  -- Without the root that signs the servers of the operators, nothing is looked at.
  let ids ← reading "reading the card's CI list" euiccInfo2
  if ids.any (Text.eqIgnoreAsciiCase gsmaCi1KeyId) then do
    let listed ← reading "reading the notifications" listNotifications
    retrieveEach listed seqs
  else
    throw { kind := "untrusted_ci", message := "the card does not trust GSMA RSP2 Root CI1" }

/-- The address of a receipt's server. -/
def PendingNotification.address (p : PendingNotification) : String :=
  Text.trim p.notificationAddress

/-- The error text of a server call. -/
def deliveryError (e : Download.Es9pStatus) : String :=
  match e.transportError with
  | some cause => e.message ++ " (" ++ cause ++ ")"
  | none => e.message ++ " (" ++ e.subjectIdentifier ++ ")"

/-- The second loop's body: one receipt goes to its server. -/
def deliver (p : PendingNotification) : Program Step (Except String Unit) := do
  -- A signal leaves the receipts that are still to come on the card.
  if ← Step.cancelled then return .error "cancelled"
  else if validAddress p.address then do
    let answer ← handleNotification p.address (encodeBase64 p.der)
    return answer.mapError deliveryError
  else return .error "invalid server address"

/-- The second loop: the receipts that were taken, and the results of the others. -/
def deliverEach : List (UInt64 × PendingNotification) → Program Step (List UInt64 × List Value)
  | [] => return ([], [])
  | (seq, p) :: pending => do
    let outcome ← deliver p
    let (delivered, results) ← deliverEach pending
    match outcome with
    | .ok () => return (seq :: delivered, results)
    | .error error => return (delivered, failedResult seq p.address error :: results)

/-- `Ok(0 | 1)`. -/
def isRemoved : Except Error Nat → Bool
  | .ok code => code == 0 || code == 1
  | .error _ => false

/-- The third loop: the results of the removals. -/
def removeEach : List UInt64 → Program Step (List Value)
  | [] => return []
  | seq :: delivered => do
    let result ← onCard (removeNotification seq)
    let results ← removeEach delivered
    return deliveredResult seq (isRemoved result) :: results

/-- The second session. -/
def remove (expectEid : String) (delivered : List UInt64) : Steps (List Value) := do
  ExceptT.mk (liftM (Step.session removeTags))
  -- The card may have been changed while the receipts were on their way.
  checkEid expectEid
  ExceptT.lift (removeEach delivered)

/-- The results of the receipts that were delivered. -/
def settle (expectEid : String) (delivered : List UInt64) : Program Step (List Value) := do
  if delivered.isEmpty then return []
  else match ← (remove expectEid delivered).run with
    | .ok results => return results
    -- The receipts were taken, so they are reported although none was removed.
    | .error f => return delivered.map (keptResult f.message)

/-- `notify`. -/
def notify (expectEid : String) (seqs : List UInt64) : Steps Value := do
  let (pending, gone) ← retrieve expectEid seqs
  let (delivered, failed) ← ExceptT.lift (deliverEach pending)
  let settled ← ExceptT.lift (settle expectEid delivered)
  return .obj [("results", .arr (gone ++ failed ++ settled))]

/-! ### Runs -/

/-- What was done, for the record. -/
inductive Done where
  | command (der : Bytes) (result : Except Error Bytes)
  | posted (url : String) (body : Bytes) (result : Except String (UInt32 × Bytes))

/-- The environment's answer to an action. -/
structure Answer where
  session : Except Failure Unit := .ok ()
  card : Except Error Bytes := .ok []
  post : Except String (UInt32 × Bytes) := .ok (204, [])
  cancelled : Bool := false

/-- An action. -/
def exec : Effects Step Answer (List Done)
  | _, .session _, e, log => some (e.session, log)
  | _, .command der, e, log => some (e.card, .command der e.card :: log)
  | _, .post url body, e, log => some (e.post, .posted url body e.post :: log)
  | _, .cancelled, e, log => some (e.cancelled, log)

end OpenUI.Helper.Notify
