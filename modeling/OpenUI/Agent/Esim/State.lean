import OpenUI.Agent.Esim.Card

/-!
# `OpenUI.Agent.Esim.State`: the manager's state and its files

The "State" section of `agent/src/esim.rs`: the operation in the slot, the receipt queue, what
the mutex guards (`Inner`), and the two JSON files that outlive the process. `Inner.load` is
what `with_paths` makes of the state file, `Operation.recovered` what `recover` makes of the
journal. The last part shows that each reads back what was written.
-/

set_option autoImplicit false

namespace OpenUI.Agent.Esim

open OpenUI.Json OpenUI.Text

/-- `Timing`, in milliseconds. -/
structure Timing where
  verifyDelay : Nat := 5000
  verifyInterval : Nat := 3000
  verifyWindow : Nat := 90000
  receiptSettle : Nat := 5000
  wanPoll : Nat := 15000
  reloadWindow : Nat := 120000
  previewLimit : Nat := 120000

/-- `DETECT_TTL`. -/
def detectTtl : Nat := 60000
/-- `INVENTORY_TTL`. -/
def inventoryTtl : Nat := 20000
/-- `RECEIPT_DELAYS`. -/
def receiptDelays : List Nat := [30000, 120000, 300000, 600000, 1800000, 3600000]
/-- `RECEIPT_MAX_ROUNDS`. -/
def receiptMaxRounds : Nat := 24

/-- `HelperOutcome`: what one helper run produced. -/
inductive HelperOutcome where
  | ok (data : Value)
  | failed (kind message : String) (detail : Value)
  | missing (message : String)
  | killed
  | garbled (message : String)

/-- The lines the agent writes to a running download. -/
inductive Control where
  | install
  | decline
  | cancel
  | timeout
  deriving DecidableEq, Repr

/-- `RunEvent`: one event from a running download. -/
inductive RunEvent where
  | progress (step : String) (data : Value)
  | wait
  | done (outcome : HelperOutcome)

/-- `Status`. -/
inductive Status where
  | detecting
  | ready
  | unsupported
  | unavailable
  | helperMissing
  deriving DecidableEq, Repr

/-- `Kind`. -/
inductive Kind where
  | enable
  | disable
  | nickname
  | download
  | delete
  deriving DecidableEq, Repr

/-- `Kind::as_str`. -/
def Kind.asStr : Kind → String
  | .enable => "enable"
  | .disable => "disable"
  | .nickname => "nickname"
  | .download => "download"
  | .delete => "delete"

/-- `Kind::parse`. -/
def Kind.parse (s : String) : Option Kind :=
  if s = "enable" then some .enable
  else if s = "disable" then some .disable
  else if s = "nickname" then some .nickname
  else if s = "download" then some .download
  else if s = "delete" then some .delete
  else none

/-- `OpState`. -/
inductive OpState where
  | pending
  | reloading
  | verifying
  | succeeded
  | busy
  | refused
  | failed
  | unknown
  | connecting
  | awaitingConfirmation
  | installing
  | cancelled
  deriving DecidableEq, Repr

/-- `OpState::resolved`. -/
def OpState.resolved : OpState → Bool
  | .pending | .reloading | .verifying | .connecting | .awaitingConfirmation | .installing => false
  | _ => true

/-- `Operation`. The sender `control` is the number of the download's channel. -/
structure Operation where
  id : String
  kind : Kind
  target : String
  previous : Option String
  state : OpState := .pending
  message : Option String := none
  receiptBefore : List Nat := []
  step : Option String := none
  preview : Option Value := none
  previewUntil : Option Nat := none
  nickname : Option String := none
  control : Option Nat := none
  profilesBefore : List String := []

/-- `Receipts`. -/
structure Receipts where
  pending : List Nat := []
  round : Nat := 0
  worker : Bool := false
  lastError : Option String := none
  gaveUp : Bool := false

/-- `Inner`: what the manager's mutex guards. `locked` is a set, kept without duplicates. -/
structure Inner where
  salt : List UInt8
  card : Option String := none
  locked : List String := []
  status : Status := .detecting
  diagnostic : Option String := none
  detectRunning : Bool := false
  detectedAt : Option Nat := none
  simKey : Option String := none
  inventory : Option Inventory := none
  revision : Nat := 0
  readError : Option (String × String) := none
  readAttempt : Option Nat := none
  operation : Option Operation := none
  finishedAt : Option Nat := none
  receipts : Receipts := {}

/-- An operation is in the slot and not resolved. -/
def Inner.operationBusy (inner : Inner) : Bool :=
  inner.operation.any (fun o => !o.state.resolved)

/-! ### The state file -/

/-- The snapshot `save_state` takes. -/
def Inner.snapshot (inner : Inner) : Value :=
  .obj [("version", .num 1),
    ("salt", .str (hex inner.salt)),
    ("card", Value.ofOption inner.card),
    ("locked", Value.ofStrings inner.locked),
    ("receipts", Value.ofNumbers inner.receipts.pending)]

/-- Inserts a handle into the set of locked handles. -/
def insertHandle (handle : String) (locked : List String) : List String :=
  if handle ∈ locked then locked else handle :: locked

/-- `with_paths`: the state at the start of the process, from the state file's JSON. A missing or
unreadable file counts as `null`; `fresh` is the random salt of a first start. -/
def Inner.load (fresh : List UInt8) (saved : Value) : Inner where
  salt := (((saved.get "salt").asStr.bind unhex).filter (fun s => s.length == 16)).getD fresh
  card := optText (saved.get "card")
  locked := (saved.get "locked").strings.foldr insertHandle []
  receipts := { pending := (saved.get "receipts").numbers }

/-! ### The journal -/

/-- What `write_journal` writes. -/
def Operation.journal (op : Operation) : Value :=
  .obj [("version", .num 1),
    ("id", .str op.id),
    ("kind", .str op.kind.asStr),
    ("target", .str op.target),
    ("previous", Value.ofOption op.previous),
    ("receipt_before", Value.ofNumbers op.receiptBefore),
    ("profiles_before", Value.ofStrings op.profilesBefore)]

/-- The operation `recover` puts into the slot. -/
def Operation.recovering (j : Value) (kind : Kind) (id target : String) : Operation where
  id := id
  kind := kind
  target := target
  previous := optText (j.get "previous")
  state := .verifying
  message := some "The agent restarted during this change; checking the card."
  receiptBefore := (j.get "receipt_before").numbers
  profilesBefore := (j.get "profiles_before").strings

/-- The operation `recover` finds in a journal; `none` when the journal is malformed. -/
def Operation.recovered (j : Value) : Option Operation :=
  match (j.get "kind").asStr.bind Kind.parse, optText (j.get "id") with
  | some kind, some id =>
    let target := (optText (j.get "target")).getD ""
    if target.isEmpty && kind != .download then none else some (.recovering j kind id target)
  | _, _ => none

/-- `valid_operation_id`. -/
def validOperationId (s : String) : Bool :=
  8 ≤ s.utf8ByteSize && s.utf8ByteSize ≤ 64
    && s.toList.all (fun c => isAsciiAlphanumeric c || c == '-' || c == '_')

/-! ### Reading back what was written -/

@[simp] theorem Kind.parse_asStr (k : Kind) : Kind.parse k.asStr = some k := by
  cases k <;> decide

/-- A valid operation id has no white space in it. -/
theorem optText_operationId {s : String} (h : validOperationId s = true) :
    optText (.str s) = some s := by
  simp only [validOperationId, Bool.and_eq_true, decide_eq_true_eq, List.all_eq_true] at h
  obtain ⟨⟨hlen, _⟩, hall⟩ := h
  apply optText_str
  · rw [String.isEmpty_eq_false_iff]
    rintro rfl
    exact absurd hlen (by decide)
  · intro c hc
    have hok := hall c hc
    have hdash : isWhitespace '-' = false ∧ isWhitespace '_' = false := by decide
    simp only [Bool.or_eq_true, beq_iff_eq] at hok
    rcases hok with (hok | rfl) | rfl
    · simp only [isAsciiAlphanumeric, isAsciiDigit, Bool.or_eq_true, Bool.and_eq_true,
        decide_eq_true_eq] at hok
      simp only [isWhitespace, Bool.or_eq_false_iff, Bool.and_eq_false_iff, beq_eq_false_iff_ne,
        decide_eq_false_iff_not]
      omega
    · exact hdash.1
    · exact hdash.2

/-- What a journal must hold for `recover` to find its operation again: a valid id, and a target
that survives `opt_text`. A download has no target yet. -/
def Operation.Recoverable (op : Operation) : Prop :=
  validOperationId op.id = true ∧
    (optText (.str op.target) = some op.target ∨ op.target = "" ∧ op.kind = .download)

@[simp] theorem Value.get_journal_id (op : Operation) : op.journal.get "id" = .str op.id := rfl

@[simp] theorem Operation.recovering_receiptBefore (op : Operation) (k : Kind) (i t : String) :
    (recovering op.journal k i t).receiptBefore = op.receiptBefore :=
  Value.numbers_ofNumbers _

@[simp] theorem Operation.recovering_profilesBefore (op : Operation) (k : Kind) (i t : String) :
    (recovering op.journal k i t).profilesBefore = op.profilesBefore :=
  Value.strings_ofStrings _

/-- `recover` finds the operation that was journalled, under its id, kind and target. -/
theorem Operation.recovered_journal {op : Operation} (h : op.Recoverable) :
    Operation.recovered op.journal = some (.recovering op.journal op.kind op.id op.target) := by
  obtain ⟨hid, htarget⟩ := h
  have hkind : (op.journal.get "kind").asStr.bind Kind.parse = some op.kind := Kind.parse_asStr _
  have hid' : optText (op.journal.get "id") = some op.id := optText_operationId hid
  have hget : (optText (op.journal.get "target")).getD "" = op.target ∧
      (op.target.isEmpty && op.kind != .download) = false := by
    rw [show op.journal.get "target" = .str op.target from rfl]
    rcases htarget with h | ⟨h, hk⟩
    · refine ⟨by rw [h]; rfl, ?_⟩
      have hne : op.target.isEmpty = false := by
        rw [String.isEmpty_eq_false_iff]
        intro hc
        rw [hc] at h
        exact absurd h (by decide)
      rw [hne, Bool.false_and]
    · refine ⟨?_, by rw [hk]; simp⟩
      rw [h]
      decide
  simp only [Operation.recovered, hkind, hid', hget.1, hget.2, Bool.false_eq_true, if_false]

theorem foldr_insertHandle {l : List String} (h : l.Nodup) : l.foldr insertHandle [] = l := by
  induction l with
  | nil => rfl
  | cons x xs ih =>
      rw [List.nodup_cons] at h
      rw [List.foldr_cons, ih h.2, insertHandle, if_neg h.1]

/-- A restart loads the card, the locks and the pending receipts that were saved. -/
theorem Inner.load_snapshot {inner : Inner} (fresh : List UInt8) (hsalt : inner.salt.length = 16)
    (hcard : ∀ h, inner.card = some h → optText (.str h) = some h) (hlocked : inner.locked.Nodup) :
    (Inner.load fresh inner.snapshot).salt = inner.salt ∧
    (Inner.load fresh inner.snapshot).card = inner.card ∧
    (Inner.load fresh inner.snapshot).locked = inner.locked ∧
    (Inner.load fresh inner.snapshot).receipts.pending = inner.receipts.pending := by
  refine ⟨?_, ?_, ?_, ?_⟩
  · show ((((some (hex inner.salt)).bind unhex).filter (fun s => s.length == 16)).getD fresh) = _
    rw [Option.bind_some, unhex_hex, Option.filter_some, if_pos (by simp [hsalt]),
      Option.getD_some]
  · show optText (Value.ofOption inner.card) = inner.card
    cases hc : inner.card with
    | none => rfl
    | some h => exact hcard h hc
  · show (Value.ofStrings inner.locked).strings.foldr insertHandle [] = inner.locked
    rw [Value.strings_ofStrings, foldr_insertHandle hlocked]
  · exact Value.numbers_ofNumbers _

end OpenUI.Agent.Esim
