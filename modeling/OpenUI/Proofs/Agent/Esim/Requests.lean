import OpenUI.Agent.Esim.Device
import OpenUI.Helper.Arguments
import OpenUI.Proofs.Agent.Esim.Runs

/-!
# `OpenUI.Proofs.Agent.Esim.Requests`: the agent's requests and the helper's checks

The helper checks every argument again: an ICCID is 18 to 20 digits, an EID 32 hexadecimal digits,
and a delivery names 1 to 32 receipts. The agent takes the first two from the card and the last
from its queue as they are. `asking` follows a request from the inventory it is made of to the
helper call, whatever is promised of the inventory; `requests_accepted` is the case of the checks.

* `Asks`: what a program asks the helper for, one rule for each way programs are put together.
* `asks_body`: every thread body asks only for what it was promised.
* `fine_switchRequest`, `fine_notify`: requests made of identifiers that fit are accepted.
-/

set_option autoImplicit false

namespace OpenUI.Agent.Esim

open OpenUI.Json OpenUI.Text OpenUI.Concurrency

variable {P : Platform} {t : Timing}

/-! ### From the inventory to the helper call -/

section Asking

variable {V : Request → Prop} {α β : Type}

/-- The requests that are made of an inventory's identifiers. -/
def Request.fromInventory : Request → Bool
  | .switch _ _ _ _ | .delete _ _ | .notify _ _ => true
  | _ => false

/-- What a thread body needs of the request it was started with. -/
def Body.brings (V : Request → Prop) : Body → Prop
  | .runSwitch _ request | .runDownload request _ => request.fromInventory = true → V request
  | _ => True

/-- What an action needs of the request it makes. -/
def Act.needs (V : Request → Prop) : Act β → Prop
  | .startHelper request => request.fromInventory = true → V request
  | .spawn b => b.brings V
  | _ => True

/-- What is promised of a request that is made of the inventory in memory. -/
def Act.promises (V : Request → Prop) : Act β → β → Prop
  | .admitChange kind _ _ _, r =>
    ∀ a, r = .ok a → kind.isSwitch = true → V (switchRequest kind a)
  | .workerRound, r => ∀ seqs eid round, r = some (seqs, some eid, round) → V (.notify eid seqs)
  | _, _ => True

/-- Every request made of an inventory meets `V`. -/
def asking (P : Platform) (t : Timing) (V : Request → Prop) : (manager P t).Regime where
  ok _ a := a.needs V
  facts _ a r := a.promises V r
  pre b _ := b.brings V
  fin _ := True

/-- What a thread that returns goes on with. -/
def Next.brings (V : Request → Prop) : Next Body → Prop
  | .stop => True
  | .goto b => b.brings V

/-- The program asks the helper only for requests that meet `V`, as long as what it is promised
does; and its result meets `R`. -/
def Asks (P : Platform) (t : Timing) (V : Request → Prop) (p : Prog α) (R : α → Prop) : Prop :=
  ∀ c, (asking P t V).discipline.wp p (fun _ r => R r) c

namespace Asks

/-- No claim on the result. -/
abbrev anything {α : Type} (_ : α) : Prop := True

theorem pure {a : α} {R : α → Prop} (h : R a) : Asks P t V (Pure.pure a) R := fun _ => h

theorem act {a : Act β} {R : β → Prop} (h : a.needs V) (hr : ∀ r, a.promises V r → R r) :
    Asks P t V (liftM a) R := fun _ => ⟨h, fun r _ hp => hr r hp⟩

theorem bind {p : Prog α} {f : α → Prog β} {S : α → Prop} {R : β → Prop} (hp : Asks P t V p S)
    (hf : ∀ a, S a → Asks P t V (f a) R) : Asks P t V (p >>= f) R := fun c =>
  (Discipline.wp_bind _ p f _ c).mpr (Discipline.wp_mono _ (hp c) fun c' a h => hf a h c')

/-- An action that asks for nothing, in front of a program. -/
theorem step {a : Act β} {f : β → Prog α} {R : α → Prop} (h : a.needs V)
    (hf : ∀ r, Asks P t V (f r) R) : Asks P t V (liftM a >>= f) R :=
  bind (S := anything) (act h fun _ _ => trivial) fun r _ => hf r

/-- A part that asks for nothing, in front of a program. -/
theorem andThen {p : Prog β} {f : β → Prog α} {R : α → Prop} (h : Asks P t V p anything)
    (hf : ∀ r, Asks P t V (f r) R) : Asks P t V (p >>= f) R := bind h fun r _ => hf r

theorem onlyIf {b : Bool} {p : Prog Unit} (h : Asks P t V p anything) :
    Asks P t V (Esim.onlyIf b p) anything := by
  cases b
  · exact .pure trivial
  · exact h

theorem ignore {p : Prog α} (h : Asks P t V p anything) : Asks P t V (Esim.ignore p) anything :=
  h.andThen fun _ => .pure trivial

/-- A single action that asks for nothing. -/
theorem one {a : Act β} (h : a.needs V) : Asks P t V (liftM a) anything := act h fun _ _ => trivial

end Asks

open Asks (anything)

/-! ### The manager's functions -/

theorem asks_saveState : Asks P t V saveState anything :=
  .step trivial fun _ => .ignore (.one trivial)

theorem asks_clearJournal : Asks P t V clearJournal anything :=
  .step trivial fun _ => .onlyIf (.ignore (.one trivial))

theorem asks_startReceiptWorker : Asks P t V startReceiptWorker anything :=
  .step trivial fun _ => .onlyIf (.one trivial)

theorem asks_queueReceipts (seqs : List Nat) : Asks P t V (queueReceipts seqs) anything := by
  unfold queueReceipts
  split
  · exact .pure trivial
  · exact .step trivial fun _ => asks_saveState.andThen fun _ => asks_startReceiptWorker

theorem asks_queueNewReceipts : Asks P t V queueNewReceiptsAfterRead anything :=
  .step trivial fun new => asks_queueReceipts new

theorem asks_finish (state : OpState) (message : Option String) :
    Asks P t V (finish state message) anything :=
  .step trivial fun _ => .step trivial fun _ => asks_clearJournal

theorem asks_finish_stop (state : OpState) (message : Option String) :
    Asks P t V (finish state message >>= fun _ => pure .stop) (Next.brings V) :=
  (asks_finish state message).andThen fun _ => .pure trivial

theorem asks_answerView (code : Nat) : Asks P t V (answerView code) anything :=
  .step trivial fun _ => .pure trivial

theorem asks_refuse (refusal : Refusal) : Asks P t V (refuse refusal) anything := by
  cases refusal with
  | answer _ _ => exact .pure trivial
  | repeated => exact asks_answerView _

/-- A helper run for a request that is promised, or not made of an inventory. -/
theorem asks_helperLocked {request : Request} (h : request.fromInventory = true → V request) :
    Asks P t V (helperLocked request) anything :=
  .step trivial fun _ => .andThen (.step h fun _ => .one trivial) fun _ =>
    .step trivial fun _ => .pure trivial

theorem asks_absorbRead (o : HelperOutcome) : Asks P t V (absorbRead o) anything := by
  have hready : Asks P t V (askSimReady o) anything := by
    unfold askSimReady
    split
    · split
      · exact .one trivial
      · exact .pure trivial
    · exact .pure trivial
  refine hready.andThen fun _ => .step trivial fun r => ?_
  cases r with
  | error _ => exact .pure trivial
  | ok _ => exact (Asks.onlyIf asks_saveState).andThen fun _ => .pure trivial

theorem asks_readLocked : Asks P t V readLocked anything :=
  .andThen (.step (fun h => by cases h) fun _ => .one trivial) fun o => (asks_absorbRead o).andThen
    fun _ =>
    .step trivial fun _ => .pure trivial

theorem asks_readCard : Asks P t V readCard anything := .step trivial fun _ => asks_readLocked

/-! #### The start, and reads -/

theorem asks_main : Asks P t V main (Next.brings V) := by
  refine asks_saveState.andThen fun _ => .andThen ?_ fun _ => .step trivial fun _ => .pure trivial
  refine .step trivial fun journal => .step trivial fun _ =>
    (Asks.onlyIf asks_startReceiptWorker).andThen fun _ => ?_
  unfold recoverJournal
  split
  · exact .pure trivial
  · split
    · exact asks_clearJournal
    · refine .step trivial fun _ => .one ?_
      show Body.brings V (if _ then _ else _)
      split <;> trivial

theorem asks_detect : Asks P t V detect (Next.brings V) :=
  .step trivial fun _ => .step trivial fun _ =>
    .andThen (.onlyIf (.ignore asks_readCard)) fun _ => .step trivial fun _ => .pure trivial

theorem asks_profiles : Asks P t V profiles anything :=
  .step trivial fun _ => .andThen (.onlyIf (.step trivial fun _ =>
    .onlyIf (.ignore asks_readLocked))) fun _ => asks_answerView _

theorem asks_refresh : Asks P t V refresh anything :=
  .step trivial fun _ => .andThen (.onlyIf (.ignore asks_readCard)) fun _ => asks_answerView _

theorem asks_summary : Asks P t V summary anything :=
  .step trivial fun _ => .andThen (.onlyIf (.one trivial)) fun _ => asks_answerView _

/-! #### Writes -/

/-- An admitted change comes with a promise for its request. -/
theorem asks_admitRequest (kind : Kind) (body : Value) : Asks P t V (admitRequest kind body)
    (fun r => ∀ a, r = .ok a → kind.isSwitch = true → V (switchRequest kind a)) := by
  unfold admitRequest
  split
  · exact .pure fun _ h => by cases h
  · split
    · exact .pure fun _ h => by cases h
    · split
      · exact .pure fun _ h => by cases h
      · refine .bind (.act trivial fun _ h => h) fun r hr => ?_
        cases r with
        | ok a => exact .pure fun a' h => hr a' (by cases h; rfl)
          | error refusal =>
            exact (asks_refuse refusal).andThen fun _ => .pure fun _ h => by cases h

theorem asks_switch {kind : Kind} (hk : kind.isSwitch = true) (body : Option Value) :
    Asks P t V (switch kind body) anything := by
  cases body with
  | none => exact .pure trivial
  | some body =>
    refine (asks_admitRequest kind body).bind fun r hr => ?_
    cases r with
    | error _ => exact .pure trivial
    | ok a =>
      refine .step trivial fun written => ?_
      cases written with
      | error _ => exact .step trivial fun _ => .pure trivial
      | ok _ => exact .step (fun _ => hr a rfl hk) fun _ => asks_answerView _

theorem asks_nickname (body : Option Value) : Asks P t V (nickname body) anything := by
  cases body with
  | none => exact .pure trivial
  | some body =>
    unfold nickname
    dsimp only
    split
    · exact .pure trivial
    · split
      · exact .pure trivial
      · refine (asks_admitRequest .nickname body).bind fun r _ => ?_
        cases r with
        | error _ => exact .pure trivial
        | ok a =>
          exact (asks_helperLocked (fun h => by cases h)).andThen fun _ => .step trivial fun _ =>
            (Asks.ignore asks_readCard).andThen fun _ => .step trivial fun _ => .pure trivial

theorem asks_switchAnswered (kind : Kind) (o : HelperOutcome) :
    Asks P t V (switchAnswered kind o) (Next.brings V) := by
  have hread : ∀ {state : OpState} {message : Option String} {accepted : Bool},
      Asks P t V (setOp state message >>= fun _ => ask .invalidateNetwork >>= fun _ =>
        pure (.goto (.verify kind accepted))) (Next.brings V) :=
    .step trivial fun _ => .step trivial fun _ => .pure trivial
  unfold switchAnswered
  split
  · split
    · exact .step trivial fun _ => .pure trivial
    · exact hread
  · split
    · exact asks_finish_stop _ _
    · split
      · exact asks_finish_stop _ _
      · split
        · exact (asks_finish _ _).andThen fun _ => (Asks.ignore asks_readCard).andThen fun _ =>
            .pure trivial
        · split
          · exact hread
          · split
            · exact asks_finish_stop _ _
            · exact asks_finish_stop _ _
  · exact hread
  · exact hread
  · exact .step trivial fun _ => asks_finish_stop _ _

theorem asks_runSwitch {kind : Kind} {request : Request}
    (h : request.fromInventory = true → V request) :
    Asks P t V (runSwitch kind request) (Next.brings V) :=
  (asks_helperLocked h).andThen fun o => asks_switchAnswered kind o

theorem asks_verifyWait (kind : Kind) (accepted : Bool) (start : Nat) :
    Asks P t V (verifyWait t kind accepted start) (Next.brings V) := by
  refine .step trivial fun now => ?_
  split
  · exact asks_finish_stop _ _
  · exact .step trivial fun _ => .pure trivial

theorem asks_verifyLoop (kind : Kind) (accepted : Bool) (start : Nat) :
    Asks P t V (verifyLoop t kind accepted start) (Next.brings V) := by
  refine asks_readCard.andThen fun read => ?_
  split
  · refine .step trivial fun seen => ?_
    obtain ⟨state, new⟩ := seen
    dsimp only
    split
    · exact (asks_finish _ _).andThen fun _ => .andThen (.onlyIf (.one trivial)) fun _ =>
        (asks_queueReceipts _).andThen fun _ => .pure trivial
    · split
      · split
        · exact asks_finish_stop _ _
        · exact asks_verifyWait _ _ _
      · exact asks_finish_stop _ _
  · exact .andThen (.onlyIf (.one trivial)) fun _ => asks_verifyWait _ _ _

/-! #### Downloads -/

theorem asks_download (body : Option Value) : Asks P t V (download body) anything := by
  cases body with
  | none => exact .pure trivial
  | some body =>
    unfold download
    dsimp only
    split
    · exact .pure trivial
    · refine .step trivial fun claim => ?_
      cases claim with
      | error refusal => exact asks_refuse refusal
      | ok claimed =>
        refine .step trivial fun up => ?_
        split
        · exact .step trivial fun _ => .pure trivial
        · refine .step trivial fun journaled => ?_
          split
          · exact .step trivial fun _ => .pure trivial
          · exact .step (fun h => by cases h) fun _ => asks_answerView _

theorem asks_downloadAnswered (o : HelperOutcome) :
    Asks P t V (downloadAnswered o) (Next.brings V) := by
  unfold downloadAnswered
  split
  · exact .step trivial fun _ => .pure trivial
  · refine .andThen ?_ fun _ => ?_
    · unfold takeBaseline
      split
      · exact .one trivial
      · exact .pure trivial
    · split
      · exact asks_finish_stop _ _
      · split
        · exact (asks_finish _ _).andThen fun _ => asks_queueNewReceipts.andThen fun _ =>
            .pure trivial
        · split
          · exact .pure trivial
          · split
            · exact asks_finish_stop _ _
            · exact asks_finish_stop _ _
  · exact .pure trivial
  · exact .pure trivial
  · exact .step trivial fun _ => asks_finish_stop _ _

theorem asks_downloadLoop (controls : Nat) (timedOut : Bool) :
    Asks P t V (downloadLoop controls timedOut) (Next.brings V) := by
  refine .step trivial fun control => ?_
  cases control with
  | some control => exact .step trivial fun _ => .pure trivial
  | none =>
    refine .step trivial fun expired => Asks.andThen (.onlyIf (.one trivial)) fun _ =>
      .step trivial fun event => ?_
    cases event with
    | wait => exact .pure trivial
    | progress step data =>
      exact .andThen (.step trivial fun _ => .one trivial) fun _ => .pure trivial
    | done o => exact .step trivial fun _ => asks_downloadAnswered o

theorem asks_settleWait (reported : Bool) (start : Nat) :
    Asks P t V (settleWait t reported start) (Next.brings V) := by
  refine .step trivial fun now => ?_
  split
  · exact asks_finish_stop _ _
  · exact .step trivial fun _ => .pure trivial

theorem asks_settleFound (handle iccid eid : String) :
    Asks P t V (settleFound handle iccid eid) (Next.brings V) := by
  refine .step trivial fun name => .andThen ?_ fun _ => (asks_finish _ _).andThen fun _ =>
    asks_queueNewReceipts.andThen fun _ => .pure trivial
  unfold writeRequested
  split
  · exact (asks_helperLocked (fun h => by cases h)).andThen fun _ =>
      (Asks.ignore asks_readCard).andThen fun _ =>
      .pure trivial
  · exact .pure trivial

theorem asks_settleLoop (reported : Bool) (start : Nat) :
    Asks P t V (settleLoop t reported start) (Next.brings V) := by
  refine asks_readCard.andThen fun read => ?_
  split
  · refine .step trivial fun found => ?_
    split
    · exact .pure trivial
    · exact asks_settleFound _ _ _
    · split
      · exact asks_finish_stop _ _
      · exact asks_settleWait _ _
  · exact asks_settleWait _ _

/-! #### Receipts and the rest -/

theorem asks_receiptWorker : Asks P t V (receiptWorker t) (Next.brings V) := by
  refine .bind (.act trivial fun _ h => h) fun r (hr : ∀ _ _ _, _) => ?_
  split
  · exact .pure trivial
  · exact .step trivial fun _ => .pure trivial
  · rename_i seqs eid round
    refine .step trivial fun up => ?_
    split
    · exact .step trivial fun _ => .pure trivial
    · exact .andThen (.onlyIf (.one trivial)) fun _ =>
        (asks_helperLocked fun _ => hr seqs eid round rfl).andThen fun _ => .step trivial fun _ =>
          asks_saveState.andThen fun _ => .step trivial fun _ =>
            Asks.andThen (.onlyIf (.one trivial)) fun _ => .pure trivial

theorem asks_handle (request : HttpRequest) : Asks P t V (handle request) anything := by
  cases request with
  | profiles => exact asks_profiles
  | refresh => exact asks_refresh
  | dashboard => exact asks_summary
  | enable body => exact asks_switch rfl body
  | disable body => exact asks_switch rfl body
  | delete body => exact asks_switch rfl body
  | nickname body => exact asks_nickname body
  | download body => exact asks_download body
  | lock body =>
    show Asks P t V (lock body) anything
    unfold lock
    split
    · exact .pure trivial
    · split
      · refine .step trivial fun known => ?_
        split
        · exact asks_saveState.andThen fun _ => asks_answerView _
        · exact .pure trivial
      · exact .pure trivial
  | downloadConfirm body =>
    show Asks P t V (downloadConfirm body) anything
    unfold downloadConfirm
    split
    · exact .pure trivial
    · split
      · exact .pure trivial
      · dsimp only
        split
        · exact .pure trivial
        · refine .step trivial fun result => ?_
          cases result with
          | error _ => exact .pure trivial
          | ok _ => exact asks_answerView _
  | downloadCancel body =>
    show Asks P t V (downloadCancel body) anything
    unfold downloadCancel
    split
    · exact .pure trivial
    · refine .step trivial fun result => ?_
      cases result with
      | error _ => exact .pure trivial
      | ok _ => exact asks_answerView _
  | receiptsSend =>
    refine .step trivial fun seqs => ?_
    split
    · exact .pure trivial
    · split
      · exact asks_answerView _
      · exact (asks_queueReceipts _).andThen fun _ => asks_answerView _

/-- Every thread body asks only for what it was promised. -/
theorem asks_body (b : Body) (h : b.brings V) : Asks P t V (threadBody t b) (Next.brings V) := by
  cases b with
  | main => exact asks_main
  | http request =>
    exact (asks_handle request).andThen fun _ => .step trivial fun _ => .pure trivial
  | detect => exact asks_detect
  | runSwitch kind request => exact asks_runSwitch h
  | verify kind accepted =>
    exact .step trivial fun _ => .step trivial fun _ => .pure trivial
  | verifyLoop kind accepted start => exact asks_verifyLoop kind accepted start
  | runDownload request controls =>
    exact .step trivial fun _ => .step h fun _ => .pure trivial
  | downloadLoop controls timedOut => exact asks_downloadLoop controls timedOut
  | settleDownload reported => exact .step trivial fun _ => .pure trivial
  | settleLoop reported start => exact asks_settleLoop reported start
  | receiptWorker => exact asks_receiptWorker

end Asking

/-! ### What the helper accepts -/

/-- The helper finds nothing wrong with the request itself. -/
def Accepted (line : Value) : Prop :=
  ∃ operation, ((Helper.parseRequest (some line)) >>= Helper.arguments) = .ok operation

/-- Every field of a request is read back from its line. -/
theorem get_line (env : DeviceEnv) (deadline : Nat) (request : Request) (key : String) :
    (env.line deadline request).get key =
      if key = "deadline_ms" then .num deadline
      else if key = "slot" then .num env.slot
      else if key = "node" then .num env.node
      else if key = "protocol" then .num helperProtocol
      else request.body.get key := by
  have hbody : ∃ fields, request.body = .obj fields := by cases request <;> exact ⟨_, rfl⟩
  have hprotocol := Value.set_obj hbody "protocol" (.num helperProtocol)
  have hnode := Value.set_obj hprotocol "node" (.num env.node)
  have hslot := Value.set_obj hnode "slot" (.num env.slot)
  rw [DeviceEnv.line, Value.get_set hslot, Value.get_set hnode, Value.get_set hprotocol,
    Value.get_set hbody]

/-- The helper reads the request line, whatever the request is. -/
theorem parseRequest_line (env : DeviceEnv) (deadline : Nat) {request : Request} {op : String}
    (hop : request.body.get "op" = .str op) (hlock : request.body.get "lock_path" = .null) :
    Helper.parseRequest (some (env.line deadline request)) = .ok {
      op, node := env.node, slot := env.slot, lockPath := Helper.defaultLock
      deadline := min deadline Helper.maxDeadline, body := env.line deadline request } := by
  have hrange : ¬ (UInt32.size ≤ env.node ∨ ¬ (1 ≤ env.slot ∧ env.slot ≤ 2)) := by
    have := env.node_lt
    have := env.slot_range
    omega
  have hdefault : ((stripPrefix "/tmp/" Helper.defaultLock).isNone ||
      contains Helper.defaultLock "..") = false := by decide
  unfold Helper.parseRequest
  simp only [get_line, String.reduceEq, if_false, if_true, hop, hlock, Value.asU64, Value.asStr,
    Option.getD_some, Option.getD_none, hrange, hdefault, helperProtocol, Helper.protocol,
    ne_eq, not_true_eq_false, Bool.false_eq_true]

theorem iccidArg_ok {body : Value} {key iccid : String} (hget : body.get key = .str iccid)
    (h : Helper.validIccid iccid = true) : Helper.iccidArg body key = .ok iccid := by
  unfold Helper.iccidArg
  rw [hget, Value.asStr, Option.filter_some, if_pos h]

theorem eidArg_ok {body : Value} {eid : String} (hget : body.get "expect_eid" = .str eid)
    (h : Helper.validEid eid = true) : Helper.eidArg body = .ok eid := by
  unfold Helper.eidArg
  rw [hget, Value.asStr, Option.filter_some, if_pos h]

theorem expectEnabledArg_ok {body : Value} {active : Option String}
    (hget : body.get "expect_enabled" = Value.ofOption active)
    (h : ∀ iccid, active = some iccid → Helper.validIccid iccid = true) :
    Helper.expectEnabledArg body = .ok active := by
  unfold Helper.expectEnabledArg
  cases active with
  | none => rw [hget]; rfl
  | some iccid => rw [hget, iccidArg_ok hget (h iccid rfl)]; rfl

theorem seqsArg_numbers {body : Value} {seqs : List Nat}
    (hget : body.get "seqs" = Value.ofNumbers seqs) : Helper.seqsArg body =
      if seqs ≠ [] ∧ seqs.length ≤ 32 then .ok seqs
      else .error (Helper.invalidRequest "invalid seqs") := by
  have hnumbers : ∀ ns : List Nat, (ns.map Value.num).mapM Value.asU64 = some ns := by
    intro ns
    induction ns with
    | nil => rfl
    | cons n ns ih => rw [List.map_cons, List.mapM_cons, ih]; rfl
  have hcount : (!seqs.isEmpty && decide (seqs.length ≤ 32)) = true ↔
      seqs ≠ [] ∧ seqs.length ≤ 32 := by simp
  unfold Helper.seqsArg
  simp only [hget, Value.ofNumbers, Value.asArray, hnumbers, Option.filter_some]
  by_cases h : seqs ≠ [] ∧ seqs.length ≤ 32
  · rw [if_pos (hcount.mpr h), if_pos h]
  · rw [if_neg (fun hc => h (hcount.mp hc)), if_neg h]

/-- A switch of a profile with a proper ICCID on a card with a proper EID is accepted. -/
theorem accepted_switch (env : DeviceEnv) (deadline : Nat) {kind : Kind} {iccid eid : String}
    {active : Option String} (hk : kind = .enable ∨ kind = .disable)
    (hiccid : Helper.validIccid iccid = true) (heid : Helper.validEid eid = true)
    (hactive : ∀ iccid, active = some iccid → Helper.validIccid iccid = true) :
    Accepted (env.line deadline (.switch kind iccid eid active)) := by
  have hswitch : ∀ which, Helper.switchArguments (env.line deadline (.switch kind iccid eid active))
      which = .ok (.switch which iccid eid active) := by
    intro which
    unfold Helper.switchArguments
    rw [iccidArg_ok (get_line env deadline _ _) hiccid,
      expectEnabledArg_ok (get_line env deadline _ _) hactive,
      eidArg_ok (get_line env deadline _ _) heid]
    rfl
  unfold Accepted
  rw [parseRequest_line env deadline rfl rfl]
  rcases hk with rfl | rfl
  · exact ⟨_, hswitch .enable⟩
  · exact ⟨_, hswitch .disable⟩

theorem accepted_delete (env : DeviceEnv) (deadline : Nat) {iccid eid : String}
    (hiccid : Helper.validIccid iccid = true) (heid : Helper.validEid eid = true) :
    Accepted (env.line deadline (.delete iccid eid)) := by
  unfold Accepted
  rw [parseRequest_line env deadline rfl rfl]
  refine ⟨.delete iccid eid, ?_⟩
  show Helper.deleteArguments (env.line deadline (.delete iccid eid)) = _
  unfold Helper.deleteArguments
  rw [iccidArg_ok (get_line env deadline _ _) hiccid, eidArg_ok (get_line env deadline _ _) heid]
  rfl

/-- A delivery of 1 to 32 receipts is accepted. -/
theorem accepted_notify (env : DeviceEnv) (deadline : Nat) {eid : String} {seqs : List Nat}
    (heid : Helper.validEid eid = true) (hne : seqs ≠ []) (hle : seqs.length ≤ 32) :
    Accepted (env.line deadline (.notify eid seqs)) := by
  unfold Accepted
  rw [parseRequest_line env deadline rfl rfl]
  refine ⟨.notify eid seqs, ?_⟩
  show Helper.notifyArguments (env.line deadline (.notify eid seqs)) = _
  unfold Helper.notifyArguments
  rw [seqsArg_numbers (get_line env deadline _ _), if_pos ⟨hne, hle⟩,
    eidArg_ok (get_line env deadline _ _) heid]
  rfl

/-- A longer delivery is not. -/
theorem refused_notify (env : DeviceEnv) (deadline : Nat) {eid : String} {seqs : List Nat}
    (hlong : 32 < seqs.length) : ¬ Accepted (env.line deadline (.notify eid seqs)) := by
  rintro ⟨operation, h⟩
  rw [parseRequest_line env deadline rfl rfl] at h
  have h : Helper.notifyArguments (env.line deadline (.notify eid seqs)) = .ok operation := h
  unfold Helper.notifyArguments at h
  rw [seqsArg_numbers (get_line env deadline _ _), if_neg (by omega)] at h
  cases h

/-! ### Identifiers that fit -/

/-- What a change of the profile `handle` takes from the inventory is of the form the helper
accepts: the EID, the profile's ICCID, and that of the enabled profile. A deletion does not name the
enabled profile. -/
def Inventory.fits (kind : Kind) (handle : String) (inv : Inventory) : Bool :=
  Helper.validEid inv.eid && (inv.find handle).all (fun p => Helper.validIccid p.iccid)
    && (kind == .delete || inv.enabled.all (fun p => Helper.validIccid p.iccid))

/-- A change is asked for only where its identifiers fit, and a delivery round finds a card whose
EID fits and at most 32 receipts in the queue. -/
def requestsFit : Steps where
  act w _ _ a _ := match a with
    | .admitChange kind _ handle _ => !kind.isSwitch || w.inner.inventory.all (·.fits kind handle)
    | .workerRound => w.inner.inventory.all fun inv =>
      Helper.validEid inv.eid && w.inner.receipts.pending.length ≤ 32
    | _ => true
  outside _ _ := true

/-- The helper accepts the request, wherever the card is and whatever the deadline. -/
def Request.Fine (request : Request) : Prop :=
  ∀ (env : DeviceEnv) (deadline : Nat), Accepted (env.line deadline request)

/-- A change whose identifiers fit. -/
theorem fine_switchRequest {kind : Kind} {id handle : String} {revision : Nat}
    {inner inner' : Inner}
    {a : Admitted} (h : inner.admitChange kind id handle revision = (.ok a, inner'))
    (hk : kind.isSwitch = true)
    (hfits : ∀ inv, inner.inventory = some inv → inv.fits kind handle = true) :
    (switchRequest kind a).Fine := by
  obtain ⟨-, -, -, inv, hinv, -, heid, hactive, hfind⟩ := admitChange_ok h
  have hall := hfits inv hinv
  simp only [Inventory.fits, hfind, Option.all_some, Bool.and_eq_true, Bool.or_eq_true,
    beq_iff_eq] at hall
  obtain ⟨⟨hvalid, htarget⟩, henabled⟩ := hall
  have hactive' : kind ≠ .delete → ∀ iccid, a.active.map (·.iccid) = some iccid →
      Helper.validIccid iccid = true := by
    intro hkind iccid hi
    obtain ⟨p, hp, rfl⟩ := Option.map_eq_some_iff.mp hi
    rw [hactive] at hp
    simpa only [hp, Option.all_some] using henabled.resolve_left hkind
  rw [← heid] at hvalid
  intro env deadline
  cases kind with
  | enable => exact accepted_switch env deadline (.inl rfl) htarget hvalid (hactive' (by simp))
  | disable => exact accepted_switch env deadline (.inr rfl) htarget hvalid (hactive' (by simp))
  | delete => exact accepted_delete env deadline htarget hvalid
  | nickname | download => cases hk

/-- A delivery round of at most 32 receipts on a card whose EID fits. -/
theorem fine_notify {inner : Inner} {seqs : List Nat} {eid : String} {round : Nat}
    (h : inner.workerRound.1 = some (seqs, some eid, round))
    (hfits : ∀ inv, inner.inventory = some inv →
      Helper.validEid inv.eid = true ∧ inner.receipts.pending.length ≤ 32) :
    (Request.notify eid seqs).Fine := by
  unfold Inner.workerRound at h
  split at h
  · cases h
  · rename_i hne
    simp only [Option.some.injEq, Prod.mk.injEq] at h
    obtain ⟨rfl, heid, -⟩ := h
    obtain ⟨inv, hinv, rfl⟩ := Option.map_eq_some_iff.mp heid
    obtain ⟨hvalid, hle⟩ := hfits inv hinv
    exact fun env deadline => accepted_notify env deadline hvalid (fun hnil => hne (.inl hnil)) hle

/-- What is promised of a request holds of it, when its identifiers fit. -/
theorem promises_act {β : Type} {w w' : World} {cs : List Ctx} {c : Ctx} {a : Act β} {e : Choice}
    {r : β} (hK : requestsFit.act w cs c a e = true) (he : exec P t a c e w = some (r, w')) :
    a.promises Request.Fine r := by
  cases a with
  | admitChange kind id handle revision =>
    intro a ha hk
    simp only [exec] at he
    split at he
    · rename_i a' inner hadmit
      simp only [Option.some.injEq, Prod.mk.injEq] at he
      obtain ⟨rfl, -⟩ := he
      cases ha
      refine fine_switchRequest hadmit hk fun inv hinv => ?_
      simpa [requestsFit, hk, hinv] using hK
    · simp only [Option.some.injEq, Prod.mk.injEq] at he
      obtain ⟨rfl, -⟩ := he
      cases ha
  | workerRound =>
    intro seqs eid round hr
    simp only [exec, Option.some.injEq, Prod.mk.injEq] at he
    obtain ⟨rfl, -⟩ := he
    refine fine_notify hr fun inv hinv => ?_
    simpa [requestsFit, hinv] using hK
  | _ => trivial

/-! ### Runs -/

/-- The helper request a program starts with. -/
def askedNext : Prog (Next Body) → Option Request
  | .act a _ => match a with
    | .startHelper request => some request
    | _ => none
  | .pure _ => none

/-- Every request made of an inventory that a thread is about to send is accepted. -/
def RequestsAccepted (s : AgentState) : Prop :=
  ∀ th ∈ s.threads, ∀ request, askedNext th.prog = some request →
    request.fromInventory = true → request.Fine

/-- A thread is started only with a request that is fine. -/
theorem spawns_bring {β : Type} {V : Request → Prop} {c : Ctx} {a : Act β} {r : β}
    (hok : a.needs V) : ∀ bc ∈ spawns c a r, bc.1.brings V := by
  intro bc hbc
  cases a with
  | spawn b =>
    have hb : bc.1 = b := by
      cases b <;> exact congrArg Prod.fst (List.mem_singleton.mp hbc)
    rw [hb]
    exact hok
  | _ => cases hbc

theorem starts_bring {V : Request → Prop} {w : World} {x : Outside}
    {o : Occurrence Ctx World Body} (ho : occur x w = some o) : ∀ bc ∈ o.starts, bc.1.brings V := by
  rcases occur_cases ho with ⟨d, rfl⟩ | ⟨r, -, rfl⟩ | ⟨salt, readable, -, -, rfl⟩
  · exact fun _ hbc => absurd hbc List.not_mem_nil
  · exact fun bc hbc => List.mem_singleton.mp hbc ▸ trivial
  · exact fun bc hbc => List.mem_singleton.mp hbc ▸ trivial

/-- **Requests the helper accepts.** In every run in which the identifiers of a change fit and a
delivery round finds a fitting EID and at most 32 receipts in the queue, the helper accepts every
enable, disable, delete and notify request the agent sends. -/
theorem requests_accepted {s : AgentState} (h : Reaches P t requestsFit s) :
    RequestsAccepted s := by
  have hrun : ∀ th ∈ s.threads, (asking P t Request.Fine).Keeps th := by
    refine (Machine.sound (asking P t Request.Fine) (I := fun _ _ => True) (fun b c hb => ?_)
      (fun _ _ hok hK he => ⟨promises_act hK he, spawns_bring hok, trivial⟩)
      (fun _ _ ho => ⟨starts_bring ho, trivial⟩) trivial
      (fun _ hth => absurd hth List.not_mem_nil) h).2
    refine Discipline.wp_mono _ (asks_body b hb c) fun c' next hnext => ?_
    cases next with
    | stop => trivial
    | goto b => exact hnext
  intro th hth request hask hfrom
  cases hp : th.prog with
  | pure _ => rw [hp] at hask; cases hask
  | act a k =>
    have hok : a.needs Request.Fine := (Machine.Regime.keeps_act (hrun th hth) hp).1
    rw [hp] at hask
    cases a with
    | startHelper req =>
      obtain rfl : req = request := Option.some.inj hask
      exact hok hfrom
    | _ => cases hask

/-- The identifiers of a card as operators issue them. -/
def issuedEid : String := "89049032000000000000000000000001"
def issuedIccid : String := "8988000000000000001"

/-- A card with one profile and the receipts `receipts`. -/
def issuedCard (receipts : List Nat) : HelperOutcome :=
  sampleInventory issuedEid [sampleProfile issuedIccid "disabled"] receipts

/-- The agent has started and read that card. -/
def issuedTurns (receipts : List Nat) : List Turn :=
  startTurns ++ .outside (.request .refresh) :: turns 1 1 ++ readTurns 1 (issuedCard receipts) true
    ++ turns 1 2

/-- Thread `3` is about to send the enable request that thread `2` admitted. -/
def enableTurns : List Turn :=
  issuedTurns [5] ++ .outside (.request (.enable (sampleChange "enable-01" issuedIccid))) ::
    turns 2 1 ++ fileDone 2 ++ turns 2 3 ++ turns 3 1

theorem requests_accepted_sample : ∃ s, Reaches samplePlatform {} requestsFit s ∧
    s.threads.any (fun th => (askedNext th.prog).any Request.isSwitch) = true ∧
    RequestsAccepted s := by
  obtain ⟨s, hs, hcheck⟩ := sample_run requestsFit enableTurns
    (fun s => s.threads.any (fun th => (askedNext th.prog).any Request.isSwitch))
    (by decide +kernel)
  exact ⟨s, hs, hcheck, requests_accepted hs⟩

/-- The user sends all receipts of the card, and the worker, thread `3`, is about to deliver
them. -/
def deliveryTurns (receipts : List Nat) : List Turn :=
  issuedTurns receipts ++ .outside (.request .receiptsSend) :: turns 2 3 ++ fileDone 2 ++ turns 2 2
    ++ turns 3 1 ++ .thread 3 (.flag true) :: turns 3 2

/-- A delivery of more receipts than the helper takes at once. -/
def Request.tooLong : Request → Bool
  | .notify _ seqs => 32 < seqs.length
  | _ => false

/-- A card with 33 receipts: the delivery the agent is about to ask for is refused. -/
theorem backlog_refused :
    ¬ ∀ (P : Platform) (t : Timing) (s : AgentState), Reaches P t .any s → RequestsAccepted s := by
  intro hall
  obtain ⟨s, hs, hcheck⟩ := sample_run .any (deliveryTurns (List.range 33))
    (fun s => s.threads.any (fun th => (askedNext th.prog).any Request.tooLong))
    (by decide +kernel)
  obtain ⟨th, hth, hask⟩ := List.any_eq_true.mp hcheck
  obtain ⟨request, hrequest, hlong⟩ := (Option.any_eq_true _ _).mp hask
  cases request with
  | notify eid seqs =>
    have hfine := hall _ _ s hs th hth _ hrequest rfl
    exact refused_notify ⟨3, 1, by decide, by decide⟩ 120000 (of_decide_eq_true hlong) (hfine _ _)
  | _ => cases hlong

end OpenUI.Agent.Esim
