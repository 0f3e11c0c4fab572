import OpenUI.Agent.Cell
import OpenUI.Agent.CsvUtils
import OpenUI.Concurrency.Interpreter
import OpenUI.Concurrency.Machine

/-!
# `OpenUI.Agent.Apn`: the requests that switch and delete APN profiles

`router_apn_profiles_delete` and `router_apn_profiles_activate` of `agent/src/router.rs`, and the
firmware's APN object that they call over ubus. The worker threads of `agent/src/server.rs` run any
number of them side by side. Each call is one action; there is no lock around several of them.

The firmware keeps the APN mode and the profile that is enabled. It may refuse a call, or carry it
out and still be reported as having failed, and it may report a mode, an id or a flag as a number,
as a text or as a boolean.
-/

set_option autoImplicit false

namespace OpenUI.Agent.Apn

open OpenUI.Text OpenUI.Concurrency OpenUI.Agent.CsvUtils OpenUI.Agent.Cell

/-! ### Answers of the firmware -/

/-- A value in an answer, as far as it is looked at. -/
inductive Leaf where
  | string (s : String)
  | number (n : NumberText)
  | bool (b : Bool)
  /-- Anything else, or nothing. -/
  | other

/-- `as_u64`. -/
def Leaf.asU64 : Leaf → Option Nat
  | .number n =>
    if n.text.toList.all isAsciiDigit then parseUnsigned 18446744073709551616 n.text.toList
    else none
  | _ => none

/-- An element of `apnListArray`. -/
structure Entry where
  profileId : Leaf
  isEnable : Leaf

/-- An answer of the firmware. -/
inductive Reply where
  /-- The `apnListArray` of an answer, if that is an array. -/
  | list (apnListArray : Option (List Entry))
  | mode (apnMode : Leaf)
  | other

/-- `v.get("apn_mode").and_then(Value::as_u64)`. -/
def Reply.apnMode : Reply → Option Nat
  | .mode leaf => leaf.asU64
  | _ => none

/-- `id_matches`. -/
def idMatches (id : Leaf) (profileId : String) : Bool :=
  match id with
  | .string s => s == profileId
  | .number n => n.text == profileId
  | _ => false

/-- `enabled`. -/
def flagged : Leaf → Bool
  | .bool b => b
  | .number n => (Leaf.number n).asU64 == some 1
  | .string s => s == "1" || eqIgnoreAsciiCase s "true"
  | .other => false

/-- `apn_profile_is_active`. -/
def apnProfileIsActive (data : Reply) (profileId : String) : Bool :=
  match data with
  | .list (some entries) => entries.any fun e => idMatches e.profileId profileId && flagged e.isEnable
  | _ => false

/-! ### Requests -/

/-- The ubus calls of the two requests. -/
inductive Call : Type → Type where
  | getManuApnList : Call (Except String Reply)
  | getApnMode : Call (Except String Reply)
  | setApnMode (mode : Nat) : Call (Except String Reply)
  | enableManuApnId (profileId : String) : Call (Except String Reply)
  | deleteManuApn (profileId : String) : Call (Except String Reply)

/-- The answer to a request. -/
inductive Response where
  | ok (data : Reply)
  | error (status : Nat) (text : String)

/-- `ApnProfileId::validate`. -/
def validateId (id : String) : Except String Unit :=
  if id = "" ∨ 32 < id.utf8ByteSize ∨
      ¬ id.toList.all (fun c => isAsciiAlphanumeric c || c == '_' || c == '-') then
    .error "profileId must be a firmware profile identifier"
  else .ok ()

/-- The profile id of a request, from the body as serde_json parses it. -/
def requestedId (body : Except String String) : Except String String :=
  match body with
  | .error e => .error ("invalid profile id: " ++ e)
  | .ok id =>
    match validateId id with
    | .error e => .error e
    | .ok () => .ok id

/-- `router_apn_profiles_delete`. -/
def routerApnProfilesDelete (body : Except String String) : Program Call Response :=
  match requestedId body with
  | .error e => pure (.error 400 e)
  | .ok id => do
    let list ← Call.getManuApnList
    match list with
    | .error e => pure (.error 503 ("cannot verify active APN profile: " ++ e))
    | .ok data =>
      if apnProfileIsActive data id then pure (.error 409 "cannot delete the active APN profile")
      else do
        let deleted ← Call.deleteManuApn id
        match deleted with
        | .ok data => pure (.ok data)
        | .error e => pure (.error 503 e)

/-- `router_apn_profiles_activate`. -/
def routerApnProfilesActivate (body : Except String String) : Program Call Response :=
  match requestedId body with
  | .error e => pure (.error 400 e)
  | .ok id => do
    let mode ← Call.getApnMode
    let currentMode := mode.toOption.bind Reply.apnMode
    let set ← Call.setApnMode 1
    match set with
    | .error e => pure (.error 503 ("cannot enable manual APN mode: " ++ e))
    | .ok _ => do
      let activated ← Call.enableManuApnId id
      match activated with
      | .ok data => pure (.ok data)
      | .error e => do
        if currentMode = some 0 then
          let _ ← Call.setApnMode 0
          pure (.error 503 e)
        else pure (.error 503 e)

/-! ### The firmware -/

/-- The APN object. -/
structure Firmware where
  /-- `apn_mode` is 1. -/
  manual : Bool
  profiles : List String
  enabled : Option String
  listed : ∀ id, enabled = some id → id ∈ profiles

/-- What becomes of a call. -/
inductive Outcome where
  | done
  | refused
  /-- Carried out, but reported as failed. -/
  | lost
  deriving DecidableEq

/-- How a value is reported. -/
inductive Form where
  | number
  | digit
  | word
  | boolean
  deriving DecidableEq

/-- A `0` or `1` in one of the forms. -/
def flagLeaf (form : Form) (b : Bool) : Leaf :=
  match form with
  | .number => .number (if b then ⟨"1", by decide⟩ else ⟨"0", by decide⟩)
  | .digit => .string (if b then "1" else "0")
  | .word => .string (if b then "true" else "false")
  | .boolean => .bool b

/-- An id as a number, if it looks like one, or as a text. -/
def idLeaf (form : Form) (id : String) : Leaf :=
  if h : id.toList.all isNumberChar = true then
    if form = .number then .number ⟨id, h⟩ else .string id
  else .string id

/-- The environment's part in a call: what becomes of it, and the forms of its answer. -/
structure Answer where
  outcome : Outcome
  error : String
  modeForm : Form
  idForm : String → Form
  flagForm : String → Form

namespace Firmware

/-- The answer to `get_manu_apn_list`. -/
def listReply (f : Firmware) (a : Answer) : Reply :=
  .list (some (f.profiles.map fun id =>
    ⟨idLeaf (a.idForm id) id, flagLeaf (a.flagForm id) (f.enabled == some id)⟩))

/-- A profile is enabled, in the place of the one before. -/
def enable (f : Firmware) (id : String) : Firmware where
  manual := f.manual
  profiles := if id ∈ f.profiles then f.profiles else id :: f.profiles
  enabled := some id
  listed id' h := by
    cases h
    split
    · assumption
    · exact List.mem_cons_self ..

/-- A profile is deleted. -/
def delete (f : Firmware) (id : String) : Firmware where
  manual := f.manual
  profiles := f.profiles.filter (· ≠ id)
  enabled := if f.enabled = some id then none else f.enabled
  listed id' h := by
    by_cases he : f.enabled = some id
    · rw [if_pos he] at h
      cases h
    · rw [if_neg he] at h
      refine List.mem_filter.mpr ⟨f.listed id' h, ?_⟩
      refine decide_eq_true fun heq => he ?_
      rw [← heq]
      exact h

/-- The mode is set. -/
def setMode (f : Firmware) (mode : Nat) : Firmware := { f with manual := mode == 1 }

end Firmware

/-- A call to delete a profile, and whether that was the enabled one at the time. -/
structure Deletion where
  id : String
  enabled : Bool
  deriving DecidableEq

/-- The firmware, and the deletions it was asked for. -/
structure World where
  firmware : Firmware
  asked : List Deletion

/-- What a call does to the firmware. -/
def effect {β : Type} (f : Firmware) : Call β → Firmware
  | .getManuApnList | .getApnMode => f
  | .setApnMode mode => f.setMode mode
  | .enableManuApnId id => f.enable id
  | .deleteManuApn id => f.delete id

/-- What a call is answered, once it has been carried out. -/
def replyTo {β : Type} (f : Firmware) (a : Answer) : Call β → Reply
  | .getManuApnList => f.listReply a
  | .getApnMode => .mode (flagLeaf a.modeForm f.manual)
  | .setApnMode _ | .enableManuApnId _ | .deleteManuApn _ => .other

/-- The deletion that a call asks for. -/
def deletionOf {β : Type} (f : Firmware) : Call β → List Deletion
  | .deleteManuApn id => [⟨id, f.enabled == some id⟩]
  | _ => []

/-- A result, which is the same for every call. -/
def resultOf (f : Firmware) (a : Answer) : {β : Type} → Call β → β
  | _, .getManuApnList => answered .getManuApnList
  | _, .getApnMode => answered .getApnMode
  | _, .setApnMode mode => answered (.setApnMode mode)
  | _, .enableManuApnId id => answered (.enableManuApnId id)
  | _, .deleteManuApn id => answered (.deleteManuApn id)
where
  /-- The reply, or the error. -/
  answered (call : Call (Except String Reply)) : Except String Reply :=
    if a.outcome = .done then .ok (replyTo f a call) else .error a.error

/-- One call. -/
def perform {β : Type} (call : Call β) (a : Answer) (w : World) : β × World :=
  (resultOf w.firmware a call,
    { firmware := if a.outcome = .refused then w.firmware else effect w.firmware call
      asked := deletionOf w.firmware call ++ w.asked })

/-! ### Runs -/

inductive Request where
  | delete (body : Except String String)
  | activate (body : Except String String)

/-- Where the thread of a request stands. -/
inductive Stage where
  | other
  /-- It is to delete the profile. -/
  | deleting (id : String)
  /-- It has found that the profile is not active, and has not yet asked for its deletion. -/
  | cleared (id : String)
  deriving DecidableEq

/-- The stage in which a request starts. -/
def Request.stage : Request → Stage
  | .delete body => match requestedId body with
    | .ok id => .deleting id
    | .error _ => .other
  | .activate _ => .other

/-- The stage after a call. -/
def Stage.after (c : Stage) : {β : Type} → Call β → β → Stage
  | _, .getManuApnList, r => match c, r with
    | .deleting id, .ok data => if apnProfileIsActive data id then .other else .cleared id
    | _, _ => .other
  | _, .deleteManuApn _, _ => .other
  | _, .getApnMode, _ => c
  | _, .setApnMode _, _ => c
  | _, .enableManuApnId _, _ => c

/-- The program of a request. -/
def program : Request → Program Call (Next Request)
  | .delete body => do
    let _ ← routerApnProfilesDelete body
    return .stop
  | .activate body => do
    let _ ← routerApnProfilesActivate body
    return .stop

/-- The agent's worker threads. From outside, requests arrive. -/
def workers : Machine Call Stage World Request Answer Request where
  exec call _ a w := some (perform call a w)
  after c call r _ := c.after call r
  spawns _ _ _ := []
  body := program
  occur request w := some ⟨w, false, [(request, request.stage)]⟩

/-- The firmware before the first request. -/
def start (f : Firmware) : State Call Stage World Request := ⟨⟨f, []⟩, []⟩

/-- The environment of a request that runs alone: the answers to its calls, by their number. -/
def alone (answers : Nat → Answer) : Handler Call (Nat × World) :=
  fun call s => ((perform call (answers s.1) s.2).1, s.1 + 1, (perform call (answers s.1) s.2).2)

end OpenUI.Agent.Apn
