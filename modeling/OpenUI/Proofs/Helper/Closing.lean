import OpenUI.Proofs.Helper.Endings
import OpenUI.Proofs.Helper.GuardSafety
import OpenUI.Proofs.Helper.GuardTransparency

/-!
# `OpenUI.Proofs.Helper.Closing`: the card's session is closed out

Once the card has opened its session, a download that stops without installing cancels it, with the
reason of its ending. `session_closed` proves it for every run that is `Clean`: no stop signal comes
while the session is open and nothing of the package was sent (the guard refuses CancelSession
then), the transaction id fits CancelSession, no element of the package looks like a CancelSession,
and a failure that the server itself reported is not followed by a Cancel.

* `play_command`: what a command leaves, and that the card answered it only if no stop was in force.
* `cancel_passes`: the guard passes every block of a CancelSession when none is.
* `Opened`, `Stopped`: what holds while the session is open, and where `steps` stopped.
-/

set_option autoImplicit false

namespace OpenUI.Helper.Download

open OpenUI.Concurrency OpenUI.Concurrency.Program OpenUI.Euicc OpenUI.Json

-- The equations are stated here once, before the proofs that rewrite with them.
section
attribute [local simp] Done.closes Done.opens cleanUp Euicc.Node.encode Euicc.encodeAll
end

/-! ### What the record says -/

/-- The server itself reported the failure, with a code of its own. -/
def Es9pStatus.reported (e : Es9pStatus) : Bool :=
  e.transportError.isNone && e.subjectCode != "0.0.0"

/-- A failed call to the server. -/
def Done.failure : Done → Option Es9pStatus
  | .initiated (.error e) | .authenticated (.error e) | .fetched (.error e) => some e
  | _ => none

section
attribute [local simp] Done.failure
end

/-- The server was sent cancelSession. -/
def Done.tells : Done → Bool
  | .toldServer _ _ => true
  | _ => false

section
attribute [local simp] Done.tells
end

/-- The reason of a decision to stop. -/
def DownloadCtl.reason : DownloadCtl → Option CancelSessionReason
  | .accept => none
  | .decline => some .endUserRejection
  | .cancel => some .postponed
  | .previewTimeout => some .timeout

section
attribute [local simp] DownloadCtl.reason
end

/-- The reason to stop that the user, a closed pipe or the clock gave. -/
def Done.asks : Done → Option CancelSessionReason
  | .awaited a => a.decision.reason
  | .drained true => some .postponed
  | _ => none

section
attribute [local simp] Done.asks
end

/-- The transaction id inside serverSigned1. -/
def transactionIdOf (auth : AuthenticateServerParam) : Option Bytes := do
  let signed1 ← find (decodeBase64 auth.b64ServerSigned1) 0x30
  let transactionId ← find signed1.value 0x80
  return transactionId.value

/-- The longest transaction id that fits the request of a CancelSession. -/
def longestId : Nat := 245

/-- The condition on a run. -/
structure Clean (r : Run) : Prop where
  /-- No stop signal came while the session was open and nothing of the package had been sent. -/
  calm : r.hasty = false
  /-- The server's transaction ids fit CancelSession. -/
  ids : ∀ server auth id, .initiated (.ok (server, auth)) ∈ r.log → transactionIdOf auth = some id →
    id ≠ [] ∧ id.length ≤ longestId
  /-- No element of the package looks like a CancelSession. -/
  package : ∀ package segments segment, .fetched (.ok package) ∈ r.log →
    bppSegments (decodeBase64 package) = .ok segments → .ok segment ∈ segments →
    leadingTag segment ≠ some 0xBF41
  /-- A failure that the server reported does not read like one of HTTP, and no Cancel and no stop
  signal comes with it. -/
  reported : ∀ d ∈ r.log, ∀ e, d.failure = some e → e.reported = true →
    e.message ≠ httpStatusError ∧ r.flags.cancelled = false ∧ .drained true ∉ r.log

/-- A stop is in force: the guard refuses whatever comes. -/
def Run.refuses (r : Run) : Bool :=
  r.flags.cancelled && !r.guard.writeSent && !r.flags.installing

/-! ### One APDU -/

/-- `allows` changes nothing in the guard but the command it remembers. -/
theorem allows_keeps (g : Guard) (apdu : Bytes) :
    (g.allows apdu).2.allowed = g.allowed ∧ (g.allows apdu).2.writeSent = g.writeSent := by
  have hcases := g.allows_cases apdu
  generalize g.allows apdu = allowed at hcases
  cases hcases <;> exact ⟨rfl, rfl⟩

/-- An APDU that the guard may pass goes out when no stop is in force. -/
theorem offer_passes {f : Flags} {g g' : Guard} {apdu : Bytes} {t : Nat}
    (hallows : g.allows apdu = (some t, g'))
    (hrun : (f.cancelled && !g.writeSent && !f.installing) = false) :
    ∃ f' g'', g.offer f apdu = (.ok t, f', g'') ∧ g''.continuing = g'.continuing := by
  have hsent := (allows_keeps g apdu).2
  rw [hallows] at hsent
  unfold Guard.offer
  rw [hallows]
  dsimp only
  rw [hsent, hrun]
  exact ⟨_, _, rfl, rfl⟩

/-- The guard after an APDU: a stop is still in force if it was, unless the APDU went out. -/
theorem offer_cases {f f' : Flags} {g g' : Guard} {apdu : Bytes} {x : Except Error Nat}
    (h : g.offer f apdu = (x, f', g')) :
    g'.allowed = g.allowed ∧ f'.cancelled = f.cancelled ∧
      (f'.cancelled && !g'.writeSent && !f'.installing) =
        (!x.isOk && (f.cancelled && !g.writeSent && !f.installing)) := by
  obtain ⟨hallowed, hsent⟩ := allows_keeps g apdu
  unfold Guard.offer at h
  split at h
  · rename_i g₁ hallows
    rw [hallows] at hallowed hsent
    cases h
    exact ⟨hallowed, rfl, by rw [← hsent]; rfl⟩
  · rename_i t g₁ hallows
    rw [hallows] at hallowed hsent
    split at h
    · cases h
      exact ⟨hallowed, rfl, by rw [← hsent]; rfl⟩
    · rename_i hrun
      cases h
      refine ⟨hallowed, rfl, ?_⟩
      revert hrun
      cases f.cancelled <;> cases g₁.writeSent <;> cases f.installing <;>
        simp [Except.isOk, Except.toBool]

/-- What becomes of an APDU, and what it leaves. -/
theorem transmit_cases {apdu : Bytes} {e : Bool × Except Error Bytes} {r r' : Run}
    {offers offers' : List Offer} {x : Except Error Bytes}
    (h : Run.transmit (.transmit apdu) e (r, offers) = some (x, r', offers')) :
    r'.log = r.log ∧ r'.hasty = (r.signal e.1).hasty ∧
      r'.flags.cancelled = (r.signal e.1).flags.cancelled ∧ r'.guard.allowed = r.guard.allowed ∧
      ((∃ reason, x = .error reason ∧ offers' = offers ++ [{ apdu, answer := none }] ∧
          r'.refuses = (r.signal e.1).refuses) ∨
        (offers' = offers ++ [{ apdu, answer := some e.2 }] ∧ x = e.2 ∧ r'.refuses = false)) := by
  obtain ⟨stop, answer⟩ := e
  simp only [Run.transmit] at h
  split at h
  · rename_i reason f g hoffer
    obtain ⟨hallowed, hcancelled, hrefuses⟩ := offer_cases hoffer
    cases h
    exact ⟨rfl, rfl, hcancelled, hallowed, .inl ⟨reason, rfl, rfl, hrefuses⟩⟩
  · rename_i t f g hoffer
    obtain ⟨hallowed, hcancelled, hrefuses⟩ := offer_cases hoffer
    cases h
    refine ⟨rfl, rfl, ?_, hallowed, .inr ⟨rfl, rfl, ?_⟩⟩
    · rw [answered_cancelled]
      exact hcancelled
    · unfold Flags.answered Run.refuses
      split <;> exact hrefuses

/-- The guard lets an APDU out that it may pass, when no stop is in force. -/
theorem transmit_passes {apdu : Bytes} {e : Bool × Except Error Bytes} {r r' : Run}
    {offers offers' : List Offer} {x : Except Error Bytes} {t : Nat} {g : Guard}
    (h : Run.transmit (.transmit apdu) e (r, offers) = some (x, r', offers'))
    (hallows : r.guard.allows apdu = (some t, g)) (hrun : (r.signal e.1).refuses = false) :
    offers' = offers ++ [{ apdu, answer := some e.2 }] ∧ r'.guard.continuing = g.continuing := by
  obtain ⟨stop, answer⟩ := e
  obtain ⟨f', g', hoffer, hcontinuing⟩ := offer_passes (f := (r.signal stop).flags) hallows hrun
  have hsame : (r.signal stop).guard.offer (r.signal stop).flags apdu = (.ok t, f', g') := hoffer
  simp only [Run.transmit, hsame] at h
  cases h
  exact ⟨rfl, hcontinuing⟩

/-! ### One command -/

/-- Whether a command has gone out, and what its answer says: no stop was in force at the last
APDU. -/
def Answered (result : Except Error Bytes) (s : Run × List Offer) : Prop :=
  s.2 ≠ [] ∧ (result.isOk = true → s.1.refuses = false)

theorem answered_error {reason : Error} {s : Run × List Offer} (h : s.2 ≠ []) :
    Answered (.error reason) s := ⟨h, fun h => by cases h⟩

/-- One APDU, and the GET RESPONSEs that follow. -/
theorem answered_collect (channel : UInt8) (turns : Nat) (apdu out : Bytes)
    (s : Run × List Offer) :
    (transmitCollect channel turns apdu out).Upholds Run.transmit (fun _ => true) (fun _ => True)
      Answered s := by
  induction turns generalizing apdu out s with
  | zero =>
    unfold transmitCollect
    refine .act trivial fun e x s₁ _ h => ?_
    obtain ⟨-, -, -, -, ⟨reason, rfl, hoffers, -⟩ | ⟨hoffers, rfl, hrefuses⟩⟩ := transmit_cases h
    · exact .pure trivial (answered_error (by simp [hoffers]))
    · have hne : s₁.2 ≠ [] := by simp [hoffers]
      split
      · exact .pure trivial (answered_error hne)
      · split
        · split
          · refine .act trivial fun e₂ x₂ s₂ _ h₂ => .pure trivial (answered_error ?_)
            obtain ⟨-, -, -, -, ⟨_, -, hoffers, -⟩ | ⟨hoffers, -, -⟩⟩ := transmit_cases h₂ <;>
              simp [hoffers]
          · split
            · exact .pure trivial ⟨hne, fun _ => hrefuses⟩
            · exact .pure trivial (answered_error hne)
        · exact .pure trivial (answered_error hne)
  | succ turns ih =>
    unfold transmitCollect
    refine .act trivial fun e x s₁ _ h => ?_
    obtain ⟨-, -, -, -, ⟨reason, rfl, hoffers, -⟩ | ⟨hoffers, rfl, hrefuses⟩⟩ := transmit_cases h
    · exact .pure trivial (answered_error (by simp [hoffers]))
    · have hne : s₁.2 ≠ [] := by simp [hoffers]
      split
      · exact .pure trivial (answered_error hne)
      · split
        · split
          · exact ih _ _ s₁
          · split
            · exact .pure trivial ⟨hne, fun _ => hrefuses⟩
            · exact .pure trivial (answered_error hne)
        · exact .pure trivial (answered_error hne)

/-- The blocks of a command, one by one. -/
theorem answered_blocks (channel : UInt8) (polls : Nat) (bs : List Bytes) :
    ∀ (seq : Nat) (out : Bytes) (s : Run × List Offer), (bs = [] → Answered (.ok out) s) →
      (sendBlocks channel polls seq bs out).Upholds Run.transmit (fun _ => true) (fun _ => True)
        Answered s := by
  induction bs with
  | nil => exact fun _ out s h => .pure trivial (h rfl)
  | cons block rest ih =>
    intro seq out s _
    refine (answered_collect channel polls _ out s).bind fun result s₁ _ hanswered => ?_
    cases result with
    | error e => exact .pure trivial hanswered
    | ok out₁ => exact ih (seq + 1) out₁ s₁ fun _ => ⟨hanswered.1, fun _ => hanswered.2 rfl⟩

theorem blocks_ne_nil {der : Bytes} (h : der ≠ []) : blocks der ≠ [] := by
  have hlength := List.length_pos_iff.mpr h
  have hfirst := blocks_getElem? der 0
  rw [if_pos (by simpa using hlength)] at hfirst
  intro hnil
  rw [hnil] at hfirst
  cases hfirst

/-- A command that the card answered went out, and no stop was in force at its end. -/
theorem play_answered {channel : UInt8} {polls : Nat} {der : Bytes}
    {es : List (Bool × Except Error Bytes)} {r r' : Run} {offers : List Offer}
    {result : Except Error Bytes} (hne : der ≠ [])
    (h : (command channel polls der).play Run.transmit es (r, []) = some (some result,
      r', offers)) :
    Answered result (r', offers) :=
  ((answered_blocks channel polls _ 0 [] (r, []) fun hnil => absurd hnil (blocks_ne_nil hne)).play
    (fun _ _ => rfl) h).2 result rfl

/-! ### What a calm run keeps -/

/-- While the session is open, no stop is in force. -/
structure Guarded (r : Run) : Prop where
  allowed : r.guard.allowed = downloadTags
  runs : r.opened = true → r.closing = false → r.refuses = false

theorem Guarded.signal {r : Run} (h : Guarded r) {stop : Bool}
    (hcalm : (r.signal stop).hasty = false) : Guarded (r.signal stop) := by
  refine ⟨h.allowed, fun hopened hclosing => ?_⟩
  have hruns := h.runs hopened hclosing
  have hopened : r.opened = true := hopened
  have hclosing : r.closing = false := hclosing
  unfold Run.refuses at hruns ⊢
  unfold Run.signal at hcalm ⊢
  rw [hopened, hclosing] at hcalm
  cases stop
  · simpa using hruns
  · have hinstalling : r.flags.installing = true := by simp_all
    simp [hinstalling]

/-- The calm states of a command. -/
abbrev CalmNow (s : Run × List Offer) : Prop := s.1.hasty = false

theorem transmit_calm {β : Type} (a : Exchange β) (e : Bool × Except Error Bytes)
    (s : Run × List Offer) (x : β) (s' : Run × List Offer)
    (h : Run.transmit a e s = some (x, s')) (hcalm : CalmNow s') : CalmNow s := by
  cases a
  obtain ⟨-, hhasty, -⟩ := transmit_cases h
  have hsignal : (s.1.signal e.1).hasty = false := hhasty.symm.trans hcalm
  exact (Bool.or_eq_false_iff.mp hsignal).1

theorem Guarded.transmit {β : Type} {a : Exchange β} {e : Bool × Except Error Bytes}
    {s s' : Run × List Offer} {x : β} (hs : Guarded s.1)
    (h : Run.transmit a e s = some (x, s')) (hcalm : CalmNow s') : Guarded s'.1 := by
  cases a
  obtain ⟨hlog, hhasty, -, hallowed, hcases⟩ := transmit_cases h
  have hsignal := hs.signal (hhasty.symm.trans hcalm)
  refine ⟨hallowed.trans hs.allowed, fun hopened hclosing => ?_⟩
  unfold Run.opened at hopened
  unfold Run.closing at hclosing
  rw [hlog] at hopened hclosing
  obtain ⟨_, -, -, hrefuses⟩ | ⟨-, -, hrefuses⟩ := hcases
  · rw [hrefuses]
    exact hsignal.runs hopened hclosing
  · exact hrefuses

/-- The states of a command in a calm run. -/
def Level (s : Run × List Offer) : Prop := CalmNow s ∧ Guarded s.1

/-- A command in a calm run passes only through such states. -/
theorem play_level {α : Type} {p : Program Exchange α} {es : List (Bool × Except Error Bytes)}
    {s s' : Run × List Offer} {x : Option α} (h : p.play Run.transmit es s = some (x, s'))
    (hcalm : CalmNow s') (hs : Guarded s.1) :
    p.play (Program.within Level Run.transmit) es s = some (x, s') :=
  play_within transmit_calm (fun _ _ _ _ _ he hcalm hs => hs.transmit he hcalm) h hcalm hs

/-- A command keeps it. -/
theorem Guarded.command {channel : UInt8} {polls : Nat} {der : Bytes}
    {es : List (Bool × Except Error Bytes)} {r r' : Run} {offers : List Offer}
    {result : Except Error Bytes} (hr : Guarded r) (hcalm : r'.hasty = false)
    (h : (command channel polls der).play Run.transmit es (r, []) = some (some result,
      r', offers)) :
    Guarded r' := by
  have hruns : (Euicc.command channel polls der).Upholds (Program.within Level Run.transmit)
      (fun _ => true) (fun s => Guarded s.1) (fun _ s => Guarded s.1) (r, []) :=
    .only (fun _ _ _ _ _ _ _ _ he => (within_eq_some.mp he).2.2) (.any _) hr
  exact (hruns.play (fun _ _ => rfl) (play_level h hcalm hr)).1

/-! ### One action -/

/-- What an action that is no command leaves in the record. -/
def recorded : {β : Type} → Step β → β → List Done
  | _, .command _, _ => []
  | _, .initiateAuthentication _ _ _, x => [.initiated x]
  | _, .authenticateClient _ _ _, x => [.authenticated x]
  | _, .getBoundProfilePackage _ _ _, x => [.fetched x]
  | _, .cancelSession _ serverTid response, _ => [.toldServer serverTid response]
  | _, .stopped, _ => []
  | _, .drain, cancel => [.drained cancel]
  | _, .await, a => [.awaited a]
  | _, .left, _ => []
  | _, .progress _ _, _ => []

section
attribute [local simp] recorded
end

/-- The action is a command to the card. -/
def isCommand : {β : Type} → Step β → Bool
  | _, .command _ => true
  | _, _ => false

variable {channel : UInt8} {polls : Nat}

/-- Any other action leaves the guard alone, and the flags but for a signal. -/
theorem exec_other {β : Type} {a : Step β} {e : Answer} {r r' : Run} {x : β}
    (ha : isCommand a = false) (h : Run.exec channel polls a e r = some (x, r')) :
    r'.log = recorded a x ++ r.log ∧ r'.flags = (r.signal e.stop).flags ∧ r'.guard = r.guard ∧
      r'.hasty = (r.signal e.stop).hasty := by
  cases a with
  | command => cases ha
  | await =>
    simp only [Run.exec] at h
    split at h
    · cases h
      exact ⟨rfl, rfl, rfl, rfl⟩
    · split at h <;> cases h <;> exact ⟨rfl, rfl, rfl, rfl⟩
  | _ =>
    cases h
    exact ⟨rfl, rfl, rfl, rfl⟩

/-- A command, with what was offered to the guard for it. -/
theorem exec_command {der : Bytes} {e : Answer} {r r' : Run} {x : Except Error Bytes}
    (h : Run.exec channel polls (.command der) e r = some (x, r')) :
    ∃ offers r₁, (command channel polls der).play Run.transmit e.card (r.before e, []) =
        some (some x, r₁, offers) ∧ r' = r₁.did (.command r₁.step der offers x) := by
  simp only [Run.exec] at h
  split at h
  · rename_i result r₁ offers hplay
    cases h
    exact ⟨offers, r₁, hplay, rfl⟩
  · cases h

theorem recorded_plain {β : Type} (a : Step β) (x : β) :
    ∀ d ∈ recorded a x, d.opens = false ∧ d.closes = false := by
  intro d hd
  cases a <;> simp only [recorded, List.mem_singleton, List.not_mem_nil] at hd <;> subst hd <;>
    exact ⟨rfl, rfl⟩

/-- The record of a run does not change what it says about the session when nothing is added that
opens or closes one. -/
theorem Guarded.same {r r' : Run} {new : List Done} (h : Guarded r) (hlog : r'.log = new ++ r.log)
    (hnew : ∀ d ∈ new, d.opens = false ∧ d.closes = false) (hflags : r'.flags = r.flags)
    (hguard : r'.guard = r.guard) : Guarded r' := by
  refine ⟨hguard ▸ h.allowed, fun hopened hclosing => ?_⟩
  have hopens : new.any Done.opens = false := List.any_eq_false.mpr fun d hd => by
    simp [(hnew d hd).1]
  rw [Run.opened, hlog, List.any_append, hopens, Bool.false_or] at hopened
  rw [Run.closing, hlog, List.any_append, Bool.or_eq_false_iff] at hclosing
  rw [Run.refuses, hflags, hguard]
  exact h.runs hopened hclosing.2

theorem Guarded.before {r : Run} {e : Answer} (hr : Guarded r)
    (hcalm : (r.before e).hasty = false) :
    Guarded (r.before e) :=
  (hr.signal hcalm).same (List.nil_append _).symm (by simp) rfl rfl

/-- Every action keeps it, in a calm run. -/
theorem Guarded.exec {β : Type} {a : Step β} {e : Answer} {r r' : Run} {x : β} (hr : Guarded r)
    (hcalm : r'.hasty = false) (h : Run.exec channel polls a e r = some (x, r')) : Guarded r' := by
  cases hkind : isCommand a with
  | false =>
    obtain ⟨hlog, hflags, hguard, hhasty⟩ := exec_other hkind h
    exact (hr.signal (hhasty ▸ hcalm)).same hlog (recorded_plain a x) hflags hguard
  | true =>
    cases a <;> cases hkind
    obtain ⟨offers, r₁, hplay, rfl⟩ := exec_command h
    have hcalm₁ : r₁.hasty = false := hcalm
    have hbefore : CalmNow (r.before e, []) := start_of_play transmit_calm hplay hcalm₁
    have hr₁ := (hr.before hbefore).command hcalm₁ hplay
    refine ⟨hr₁.allowed, fun hopened hclosing => ?_⟩
    have hclosing₁ : r₁.closing = false := (Bool.or_eq_false_iff.mp hclosing).2
    obtain hopens | hopened₁ := Bool.or_eq_true_iff.mp hopened
    · -- The session is opened by this command: it was answered, so no stop was in force.
      rename_i der
      cases x with
      | error _ => cases hopens
      | ok resp =>
        obtain ⟨htag, -⟩ := Bool.and_eq_true_iff.mp hopens
        have hne : der ≠ [] := by
          rintro rfl
          cases htag
        exact (play_answered hne hplay).2 rfl
    · exact hr₁.runs hopened₁ hclosing₁

/-! ### CancelSession -/

/-- The session is open, and everything that was offered for a command so far went out. -/
structure Passing (s : Run × List Offer) : Prop where
  guarded : Guarded s.1
  opened : s.1.opened = true
  closing : s.1.closing = false
  passed : ∀ o ∈ s.2, o.answer.isSome = true

/-- An APDU that the guard may pass goes out. -/
theorem Passing.transmit {apdu : Bytes} {e : Bool × Except Error Bytes} {s s' : Run × List Offer}
    {x : Except Error Bytes} {t : Nat} {g : Guard} (hs : Passing s)
    (h : Run.transmit (.transmit apdu) e s = some (x, s')) (hlevel : Level s')
    (hallows : s.1.guard.allows apdu = (some t, g)) :
    Passing s' ∧ s'.1.guard.continuing = g.continuing := by
  obtain ⟨hlog, hhasty, -, -⟩ := transmit_cases h
  have hsignal := hs.guarded.signal (hhasty.symm.trans hlevel.1)
  obtain ⟨hoffers, hcontinuing⟩ := transmit_passes h hallows (hsignal.runs hs.opened hs.closing)
  refine ⟨⟨hlevel.2, ?_, ?_, fun o ho => ?_⟩, hcontinuing⟩
  · rw [Run.opened, hlog]
    exact hs.opened
  · rw [Run.closing, hlog]
    exact hs.closing
  · rw [hoffers] at ho
    obtain ho | ho := List.mem_append.mp ho
    · exact hs.passed o ho
    · rw [List.mem_singleton.mp ho]
      rfl

/-- An APDU that the guard may pass, and the GET RESPONSEs that follow. -/
theorem passing_collect (channel : UInt8) (turns : Nat) (apdu out : Bytes) (s : Run × List Offer)
    {t : Nat} {g : Guard} (hs : Passing s) (hallows : s.1.guard.allows apdu = (some t, g)) :
    (transmitCollect channel turns apdu out).Upholds (Program.within Level Run.transmit)
      (fun _ => true) Passing (fun _ s => s.1.guard.continuing = g.continuing) s := by
  induction turns generalizing apdu out s t g with
  | zero =>
    unfold transmitCollect
    refine .act hs fun e x s₁ _ h => ?_
    obtain ⟨htransmit, hlevel⟩ := within_eq_some.mp h
    obtain ⟨hs₁, hcontinuing⟩ := hs.transmit htransmit hlevel hallows
    split
    · exact .pure hs₁ hcontinuing
    · split
      · split
        · refine .act hs₁ fun e₂ x₂ s₂ _ h₂ => ?_
          obtain ⟨htransmit₂, hlevel₂⟩ := within_eq_some.mp h₂
          obtain ⟨hs₂, hcontinuing₂⟩ :=
            hs₁.transmit htransmit₂ hlevel₂ (t := 0) (g := s₁.1.guard) rfl
          exact .pure hs₂ (hcontinuing₂.trans hcontinuing)
        · split <;> exact .pure hs₁ hcontinuing
      · exact .pure hs₁ hcontinuing
  | succ turns ih =>
    unfold transmitCollect
    refine .act hs fun e x s₁ _ h => ?_
    obtain ⟨htransmit, hlevel⟩ := within_eq_some.mp h
    obtain ⟨hs₁, hcontinuing⟩ := hs.transmit htransmit hlevel hallows
    split
    · exact .pure hs₁ hcontinuing
    · split
      · split
        · exact (ih _ _ s₁ hs₁ (t := 0) (g := s₁.1.guard) rfl).mono
            fun _ _ _ h => h.trans hcontinuing
        · split <;> exact .pure hs₁ hcontinuing
      · exact .pure hs₁ hcontinuing

/-- The blocks of a command that the guard allows, up to number 255. -/
theorem passing_blocks (channel : UInt8) (polls : Nat) {tag : Nat} (bs : List Bytes) :
    ∀ (seq : Nat) (out : Bytes) (s : Run × List Offer), Passing s → seq + bs.length ≤ 256 →
      (∀ block ∈ bs.head?, blockTag s.1.guard seq block = some tag) →
      (sendBlocks channel polls seq bs out).Upholds (Program.within Level Run.transmit)
        (fun _ => true) Passing (fun _ _ => True) s := by
  induction bs with
  | nil => exact fun _ _ _ hs _ _ => .pure hs trivial
  | cons block rest ih =>
    intro seq out s hs hlength htag
    have hallows := allows_storeData s.1.guard channel rest.isEmpty seq block
    rw [htag block rfl] at hallows
    refine (passing_collect channel polls _ out s hs hallows).bind fun result s₁ hs₁ hcontinuing =>
      ?_
    cases result with
    | error e => exact .pure hs₁ trivial
    | ok out₁ =>
      refine ih (seq + 1) out₁ s₁ hs₁ (by rw [List.length_cons] at hlength; omega)
        fun next hnext => ?_
      have hmore : rest.isEmpty = false := by
        cases rest with
        | nil => cases hnext
        | cons => rfl
      have hlater : (seq + 1) % 256 ≠ 0 := by
        cases rest with
        | nil => cases hnext
        | cons =>
          simp only [List.length_cons] at hlength
          omega
      rw [blockTag, if_neg hlater, hcontinuing, hmore]
      rfl

/-- When no stop is in force, every block of a CancelSession goes out. -/
theorem cancel_passes {channel : UInt8} {polls : Nat} {der : Bytes}
    {es : List (Bool × Except Error Bytes)} {r r' : Run} {offers : List Offer}
    {result : Except Error Bytes} (hr : Guarded r) (hopened : r.opened = true)
    (hclosing : r.closing = false) (htag : leadingTag der = some 0xBF41)
      (hlength : der.length ≤ 255)
    (hcalm : r'.hasty = false)
    (h : (command channel polls der).play Run.transmit es (r, []) = some (some result,
      r', offers)) :
    offers ≠ [] ∧ ∀ o ∈ offers, o.answer.isSome = true := by
  have hne : der ≠ [] := by
    rintro rfl
    cases htag
  refine ⟨(play_answered hne h).1, ?_⟩
  have hblocks : (blocks der).length ≤ 256 := by
    simp only [blocks, List.length_map, List.length_range, mss]
    omega
  have hfirst : ∀ block ∈ (blocks der).head?, blockTag r.guard 0 block = some 0xBF41 := by
    intro block hblock
    rw [List.head?_eq_getElem?, Option.mem_def, blocks_getElem?] at hblock
    split at hblock
    · rw [blockTag, if_pos (Nat.zero_mod 256), ← Option.some.inj hblock, leadingTag_take,
        Nat.mul_zero, List.drop_zero, htag, hr.allowed]
      rfl
    · cases hblock
  have hpassing : Passing (r, []) := ⟨hr, hopened, hclosing, by simp⟩
  have hruns := passing_blocks channel polls (blocks der) 0 [] (r, []) hpassing
    (by rwa [Nat.zero_add]) hfirst
  exact (hruns.play (fun _ _ => rfl) (play_level h hcalm hr)).1.passed

/-! ### A clean run -/

/-- What a stop signal and a command leave as it is: it came before, or it comes now. -/
theorem cancelled_of_play {α : Type} {p : Program Exchange α}
    {es : List (Bool × Except Error Bytes)}
    {s s' : Run × List Offer} {x : Option α} (h : p.play Run.transmit es s = some (x, s'))
    (hcancelled : s'.1.flags.cancelled = false) : s.1.flags.cancelled = false := by
  refine start_of_play (I := fun s => s.1.flags.cancelled = false) ?_ h hcancelled
  intro β a e s x s' he hcancelled
  cases a
  obtain ⟨-, -, hsame, -, -⟩ := transmit_cases he
  exact (Bool.or_eq_false_iff.mp (hsame.symm.trans hcancelled)).1

/-- What a signal sets was so before only if it is so after. -/
theorem of_signal {r : Run} {stop : Bool} :
    ((r.signal stop).hasty = false → r.hasty = false) ∧
      ((r.signal stop).flags.cancelled = false → r.flags.cancelled = false) :=
  ⟨fun h => (Bool.or_eq_false_iff.mp h).1, fun h => (Bool.or_eq_false_iff.mp h).1⟩

/-- What an action adds to the record. -/
theorem exec_log {β : Type} {a : Step β} {e : Answer} {r r' : Run} {x : β}
    (h : Run.exec channel polls a e r = some (x, r')) :
    (∃ new, r'.log = new ++ r.log) ∧ (r'.hasty = false → r.hasty = false) ∧
      (r'.flags.cancelled = false → r.flags.cancelled = false) := by
  cases hkind : isCommand a with
  | false =>
    obtain ⟨hlog, hflags, -, hhasty⟩ := exec_other hkind h
    rw [hflags, hhasty]
    exact ⟨⟨_, hlog⟩, of_signal⟩
  | true =>
    cases a <;> cases hkind
    obtain ⟨offers, r₁, hplay, rfl⟩ := exec_command h
    obtain ⟨-, hlog⟩ := play_transmit hplay
    refine ⟨⟨[_], congrArg (_ :: ·) hlog⟩, fun hhasty => ?_, fun hcancelled => ?_⟩
    · have hbefore : CalmNow (r.before e, []) := start_of_play transmit_calm hplay hhasty
      exact of_signal.1 hbefore
    · have hbefore := cancelled_of_play hplay hcancelled
      exact of_signal.2 hbefore

/-- A run that is clean in the end was clean before. -/
theorem Clean.before {β : Type} {a : Step β} {e : Answer} {r r' : Run} {x : β}
    (hr' : Clean r') (h : Run.exec channel polls a e r = some (x, r')) : Clean r := by
  obtain ⟨⟨new, hlog⟩, hhasty, hcancelled⟩ := exec_log h
  have hmem : ∀ {d}, d ∈ r.log → d ∈ r'.log := fun hd => hlog ▸ List.mem_append_right new hd
  exact {
    calm := hhasty hr'.calm
    ids := fun server auth id hd => hr'.ids server auth id (hmem hd)
    package := fun package segments segment hd => hr'.package package segments segment (hmem hd)
    reported := fun d hd e he hreported => by
      obtain ⟨hmessage, hstop, hdrained⟩ := hr'.reported d (hmem hd) e he hreported
      exact ⟨hmessage, hcancelled hstop, fun hd => hdrained (hmem hd)⟩ }

/-- The states of a clean run. -/
def Steady (r : Run) : Prop := Clean r ∧ Guarded r

/-- What a program ends in, in a clean run. -/
abbrev Holds (channel : UInt8) (polls : Nat) {α : Type} (p : Program Step α) (r : Run)
    (Q : α → Run → Prop) : Prop :=
  p.Upholds (Program.within Steady (Run.exec channel polls)) (fun _ => true) Steady Q r

/-! ### What a part leaves in the record -/

/-- Something that an ending depends on: CancelSession, a reason to stop, or the server's own
failure. -/
def Done.decides (d : Done) : Bool :=
  d.closes || d.tells || d.asks.isSome || d.failure.any (·.reported)

/-- The stop goes by what was done. -/
structure Settles (stop : Stop) (d : Done) : Prop where
  closes : d.closes = false
  tells : d.tells = false
  asked : ∀ reason, d.asks = some reason → stop.reason = some reason ∧ stop.ending = .cancelled
  reported : ∀ e, d.failure = some e → e.reported = true → stop.notifyServer = false

/-- Any stop goes by what decides nothing. -/
theorem settles_of_undecided {d : Done} (h : d.decides = false) (stop : Stop) : Settles stop d := by
  simp only [Done.decides, Bool.or_eq_false_iff] at h
  obtain ⟨⟨⟨hcloses, htells⟩, hasks⟩, hreported⟩ := h
  refine ⟨hcloses, htells, fun reason hreason => ?_, fun e he hown => ?_⟩
  · rw [hreason] at hasks
    cases hasks
  · rw [he] at hreported
    exact absurd (hown.symm.trans hreported) (by decide)

/-- What a part of the procedure adds to the record: nothing that decides, or it stops with what
goes by it. `V` is what is asked of its stops, `P` of everything that it does. -/
def Leaves (V : Stop → Prop) (P : Done → Prop) (r : Run) {α : Type} (result : Except Stop α)
    (r' : Run) : Prop :=
  ∃ new, r'.log = new ++ r.log ∧ (∀ d ∈ new, P d) ∧ match result with
    | .ok _ => ∀ d ∈ new, d.decides = false
    | .error stop => V stop ∧ ∀ d ∈ new, Settles stop d

variable {V : Stop → Prop} {P : Done → Prop} {α β : Type} {r : Run}

/-- A part, and what follows it. -/
theorem Leaves.trans {r' r'' : Run} {a : α} {result : Except Stop β}
    (h : Leaves V P r (.ok a : Except Stop α) r') (h' : Leaves V P r' result r'') :
    Leaves V P r result r'' := by
  obtain ⟨new, hlog, hP, hundecided⟩ := h
  obtain ⟨new', hlog', hP', hresult⟩ := h'
  refine ⟨new' ++ new, by rw [hlog', hlog, List.append_assoc], fun d hd => ?_, ?_⟩
  · exact (List.mem_append.mp hd).elim (hP' d) (hP d)
  · cases result with
    | ok b => exact fun d hd => (List.mem_append.mp hd).elim (hresult d) (hundecided d)
    | error stop =>
      exact ⟨hresult.1, fun d hd => (List.mem_append.mp hd).elim (hresult.2 d)
        fun hd => settles_of_undecided (hundecided d hd) stop⟩

/-- A part that leaves such a record, and then another one. -/
theorem holds_attempt {p : Steps α} {f : α → Steps β}
    (hp : Holds channel polls p.run r (Leaves V P r))
    (hf : ∀ a r', Steady r' → Holds channel polls (f a).run r' (Leaves V P r')) :
    Holds channel polls (p >>= f).run r (Leaves V P r) :=
  .attempt hp (fun _ _ _ h => h) fun a r' hr' hleaves =>
    (hf a r' hr').mono fun _ _ _ h => hleaves.trans h

/-- The same, with what holds of the result in the end. -/
theorem holds_then {p : Steps α} {f : α → Steps β} {Q : β → Run → Prop}
    (hp : Holds channel polls p.run r (Leaves V P r))
    (hf : ∀ a r', Steady r' → Holds channel polls (f a).run r' fun result r'' =>
      Leaves V P r' result r'' ∧ ∀ b, result = .ok b → Q b r'') :
    Holds channel polls (p >>= f).run r fun result r' =>
      Leaves V P r result r' ∧ ∀ b, result = .ok b → Q b r' :=
  .attempt hp (fun _ _ _ h => ⟨h, by simp⟩) fun a r' hr' hleaves =>
    (hf a r' hr').mono fun _ _ _ h => ⟨hleaves.trans h.1, h.2⟩

/-- Nothing was done. -/
theorem leaves_nil {a : α} {r' : Run} (h : r'.log = r.log) :
    Leaves V P r (.ok a : Except Stop α) r' := ⟨[], h, by simp, by simp⟩

/-- One action in front of a program, in a clean run. -/
theorem holds_act {a : Step α} {f : α → Program Step β} {Q : β → Run → Prop} (hr : Steady r)
    (hf : ∀ e x r', Run.exec channel polls a e r = some (x, r') → Steady r' →
      Holds channel polls (f x) r' Q) : Holds channel polls (liftM a >>= f) r Q :=
  .stay hr hf

theorem holds_progress {step : String} {data : Value} (hr : Steady r) :
    Holds channel polls (progress step data).run r (Leaves V P r) := by
  refine holds_act hr fun e _ r' h hr' => .pure hr' (leaves_nil ?_)
  cases h
  rfl

/-- Looking at the clock leaves nothing. -/
theorem holds_left (hr : Steady r) :
    Holds channel polls (ExceptT.lift (ε := Stop) (liftM Step.left)).run r (Leaves V P r) :=
  holds_act hr fun _ _ _ h hr' => .pure hr' (leaves_nil (exec_other rfl h).1)

theorem holds_stopIf {condition : Bool} {stop : Stop} (hr : Steady r)
    (hV : condition = true → V stop) :
    Holds channel polls (stopIf condition stop).run r (Leaves V P r) := by
  cases condition with
  | false => exact .pure hr (leaves_nil rfl)
  | true => exact .pure hr ⟨[], rfl, by simp, hV rfl, by simp⟩

/-- The check for a Cancel: whether there was one, and what shows it. -/
theorem holds_cancelled (hr : Steady r) :
    Holds channel polls cancelled r fun stop r' => ∃ new, r'.log = new ++ r.log ∧
      (∀ d ∈ new, d = .drained stop) ∧ (stop = true → new = [] → r'.flags.cancelled = true) := by
  refine holds_act hr fun e stop r₁ h hr₁ => ?_
  have hlog : r₁.log = r.log := (exec_other rfl h).1
  cases stop with
  | true =>
    have hcancelled : r₁.flags.cancelled = true := by
      simp only [Run.exec, Option.some.injEq, Prod.mk.injEq] at h
      rw [← h.2]
      exact h.1
    exact .pure hr₁ ⟨[], hlog, by simp, fun _ _ => hcancelled⟩
  | false =>
    refine .act hr₁ fun e₂ cancel r₂ _ h₂ => ?_
    obtain ⟨h₂, hr₂⟩ := within_eq_some.mp h₂
    have hlog₂ : r₂.log = .drained cancel :: r₁.log := (exec_other rfl h₂).1
    refine .pure hr₂ ⟨[.drained cancel], by rw [hlog₂, hlog]; rfl, fun d hd => ?_, fun _ hnil => ?_⟩
    · exact List.mem_singleton.mp hd
    · cases hnil

/-- A Cancel goes by the record of it. -/
theorem settles_drained (cancel : Bool) : Settles (.user .cancel) (.drained cancel) where
  closes := rfl
  tells := rfl
  asked := fun reason h => by
    cases cancel <;> cases h
    exact ⟨rfl, rfl⟩
  reported := fun _ h => by cases h

theorem holds_unlessCancelled (hr : Steady r) (hV : V (.user .cancel))
    (hP : ∀ cancel, P (.drained cancel)) :
    Holds channel polls unlessCancelled.run r (Leaves V P r) := by
  refine Upholds.attempt (R := fun result r' => ∃ stop, result = .ok stop ∧ ∃ new,
    r'.log = new ++ r.log ∧ ∀ d ∈ new, d = .drained stop)
    (.bind (holds_cancelled hr) fun stop r₁ hr₁ hdone => ?_) ?_ ?_
  · obtain ⟨new, hlog, hnew, -⟩ := hdone
    exact .pure hr₁ ⟨stop, rfl, new, hlog, hnew⟩
  · rintro e r' - ⟨stop, hok, -⟩
    cases hok
  · rintro stop r' hr' ⟨stop, hok, new, hlog, hnew⟩
    cases hok
    have hP' : ∀ d ∈ new, P d := fun d hd => hnew d hd ▸ hP stop
    cases stop with
    | false => exact .pure hr' ⟨new, hlog, hP', fun d hd => hnew d hd ▸ rfl⟩
    | true => exact .pure hr' ⟨new, hlog, hP', hV, fun d hd => hnew d hd ▸ settles_drained true⟩

/-! ### Calls -/

/-- How a server call shows in the record. -/
structure IsCall (entry : Except Es9pStatus α → Done) : Prop where
  ok : ∀ a, (entry (.ok a)).decides = false
  error : ∀ e, (entry (.error e)).failure = some e ∧ (entry (.error e)).closes = false ∧
    (entry (.error e)).tells = false ∧ (entry (.error e)).asks = none

theorem isCall_initiated : IsCall Done.initiated := ⟨fun _ => rfl, fun _ => ⟨rfl, rfl, rfl, rfl⟩⟩

theorem isCall_authenticated : IsCall Done.authenticated :=
  ⟨fun _ => rfl, fun _ => ⟨rfl, rfl, rfl, rfl⟩⟩

theorem isCall_fetched : IsCall Done.fetched := ⟨fun _ => rfl, fun _ => ⟨rfl, rfl, rfl, rfl⟩⟩

/-- When the server itself reported a failure, it is not told of the end. -/
theorem server_notifyServer {step : String} {e : Es9pStatus} (h : e.reported = true)
    (hmessage : e.message ≠ httpStatusError) : (Stop.server step e).notifyServer = false := by
  simp only [Es9pStatus.reported, Bool.and_eq_true, Option.isNone_iff_eq_none, bne_iff_ne] at h
  obtain ⟨hlocal, hcode⟩ := h
  have hplain : (e.transportError.isSome || e.message == httpStatusError) = false := by
    rw [hlocal, beq_false_of_ne hmessage]
    rfl
  simp only [Stop.server, hplain, Bool.false_eq_true, if_false, if_pos hcode]

theorem holds_call {a : Step (Except Es9pStatus α)} {entry : Except Es9pStatus α → Done}
    (hentry : IsCall entry) {step : String} (hr : Steady r) (hkind : isCommand a = false)
    (hrecorded : ∀ x, recorded a x = [entry x]) (hV : ∀ e, V (.server step e))
    (hP : ∀ x, P (entry x)) :
    Holds channel polls (orStop (.server step) (liftM a)).run r fun result r' =>
      Leaves V P r result r' ∧ ∀ x, result = .ok x → entry (.ok x) ∈ r'.log := by
  refine holds_act hr fun e x r' h hr' => .pure hr' ?_
  have hlog : r'.log = entry x :: r.log := by rw [(exec_other hkind h).1, hrecorded]; rfl
  have hmem : entry x ∈ r'.log := hlog ▸ List.mem_cons_self
  have hP' : ∀ d ∈ [entry x], P d := fun d hd => List.mem_singleton.mp hd ▸ hP x
  cases x with
  | ok v =>
    refine ⟨⟨[entry (.ok v)], hlog, hP', fun d hd => ?_⟩, fun x hx => by cases hx; exact hmem⟩
    rw [List.mem_singleton.mp hd]
    exact hentry.ok v
  | error e =>
    obtain ⟨hfailure, hcloses, htells, hasks⟩ := hentry.error e
    refine ⟨⟨[entry (.error e)], hlog, hP', hV e, fun d hd => ?_⟩, fun _ h => by cases h⟩
    rw [List.mem_singleton.mp hd]
    refine ⟨hcloses, htells, fun reason h => ?_, fun e' he hown => ?_⟩
    · rw [hasks] at h
      cases h
    · rw [hfailure] at he
      cases he
      exact server_notifyServer hown (hr'.1.reported _ hmem e hfailure hown).1

/-- Functions of the card whose commands are all like this. -/
abbrev Sends (T : Bytes → Prop) {α : Type} (p : CardProgram α) : Prop :=
  p.run.Only fun | .command der => T der

/-- A command that is no CancelSession decides nothing. -/
theorem decides_command {step : String} {der : Bytes} {offers : List Offer}
    {result : Except Error Bytes} (h : leadingTag der ≠ some 0xBF41) :
    (Done.command step der offers result).decides = false := by
  have htag : (leadingTag der == some 0xBF41) = false := beq_false_of_ne h
  simp only [Done.decides, Done.closes, htag, Bool.false_and, Done.tells, Done.asks, Done.failure]
  rfl

/-- The commands to the card that a part may give. -/
def commandsOf (T : Bytes → Prop) : {β : Type} → Step β → Prop
  | _, .command der => T der
  | _, _ => False

theorem holds_onCard {T : Bytes → Prop} {p : CardProgram α} (hp : Sends T p)
    (hT : ∀ der, T der → leadingTag der ≠ some 0xBF41 ∧
      ∀ step offers result, P (.command step der offers result)) (hr : Steady r) :
    Holds channel polls (onCard p) r fun _ r' => ∃ new, r'.log = new ++ r.log ∧ ∀ d ∈ new,
      P d ∧ d.decides = false := by
  have honly : (onCard p).Only (commandsOf T) := .hoist (hp.mono fun a h => by cases a; exact h)
  have hkeep : (onCard p).Upholds (Program.within Steady (Run.exec channel polls)) (fun _ => true)
      (fun r' => Steady r' ∧ ∃ new, r'.log = new ++ r.log ∧ ∀ d ∈ new, P d ∧ d.decides = false)
      (fun _ r' => Steady r' ∧ ∃ new, r'.log = new ++ r.log ∧ ∀ d ∈ new, P d ∧
        d.decides = false) r :=
    Upholds.only (fun a e r₁ x r₂ ha _ hI h => ?_) honly ⟨hr, [], rfl, by simp⟩
  · exact (hkeep.weaken fun _ h => h.1).mono fun _ _ _ h => h.2
  · obtain ⟨h, hr₂⟩ := within_eq_some.mp h
    obtain ⟨-, new, hlog, hnew⟩ := hI
    cases a with
    | command der =>
      obtain ⟨offers, r₃, hplay, rfl⟩ := exec_command h
      have hlog₃ : r₃.log = r₁.log := (play_transmit hplay).2
      obtain ⟨htag, hP⟩ := hT der ha
      refine ⟨hr₂, .command r₃.step der offers x :: new, ?_, fun d hd => ?_⟩
      · exact congrArg (_ :: ·) (hlog₃.trans hlog)
      · obtain rfl | hd := List.mem_cons.mp hd
        · exact ⟨hP _ _ _, decides_command htag⟩
        · exact hnew d hd
    | _ => cases ha

/-- A function of the card that may stop the download. -/
theorem holds_card {T : Bytes → Prop} {p : CardProgram α} {stop : Error → Stop} (hp : Sends T p)
    (hT : ∀ der, T der → leadingTag der ≠ some 0xBF41 ∧
      ∀ step offers result, P (.command step der offers result)) (hr : Steady r)
    (hV : ∀ e, V (stop e)) :
    Holds channel polls (orStop stop (onCard p)).run r (Leaves V P r) := by
  refine Upholds.bind (holds_onCard hp hT hr) fun result r' hr' hdone => .pure hr' ?_
  obtain ⟨new, hlog, hnew⟩ := hdone
  cases result with
  | ok a => exact ⟨new, hlog, fun d hd => (hnew d hd).1, fun d hd => (hnew d hd).2⟩
  | error e =>
    exact ⟨new, hlog, fun d hd => (hnew d hd).1, hV e,
      fun d hd => settles_of_undecided (hnew d hd).2 _⟩

/-! ### The commands -/

theorem sends_command {T : Bytes → Prop} {der : Bytes} (h : T der) : Sends T (es10Command der) :=
  .lift h

/-- What does not involve the card, and what follows it if it goes well. -/
theorem sends_tryOk {T : Bytes → Prop} {x : Except Error α} {f : α → CardProgram β}
    (h : ∀ a, x = .ok a → Sends T (f a)) : Sends T (tryOk x >>= f) := by
  cases x with
  | error e => trivial
  | ok a => exact h a rfl

/-- Commands that neither open nor close a session. -/
def Plain (der : Bytes) : Prop := leadingTag der ≠ some 0xBF41 ∧ leadingTag der ≠ some 0xBF38

/-- Commands that do not close a session. -/
def KeepsOpen (der : Bytes) : Prop := leadingTag der ≠ some 0xBF41

theorem sends_getEuiccChallenge : Sends Plain getEuiccChallenge := by
  refine .attempt (.attempt (sends_command ⟨by decide, by decide⟩) fun resp => ?_) fun body => ?_
  · exact sends_tryOk fun _ _ => trivial
  · exact sends_tryOk fun _ _ => trivial

theorem sends_getEuiccInfo1 : Sends Plain getEuiccInfo1 :=
  .attempt (sends_command ⟨by decide, by decide⟩) fun _ => sends_tryOk fun _ _ => trivial

/-- The tag of a request of two bytes, as `leading_tag` reads it. -/
theorem leadingTag_encode {tag : Nat} (children : List Node) (h : tag < 0x10000)
    (hfirst : UInt8.ofNat (tag / 256) &&& 0x1F = 0x1F) :
    leadingTag (Node.cons tag children).encode = some tag := by
  rw [Node.encode]
  exact leadingTag_encodeElement _ h hfirst

/-- `?` that went well. -/
theorem bind_ok {ε : Type} {x : Except ε α} {f : α → Except ε β} {b : β}
    (h : (x >>= f) = .ok b) : ∃ a, x = .ok a ∧ f a = .ok b := by
  cases x with
  | error e => cases h
  | ok a => exact ⟨a, rfl, h⟩

/-- The request of AuthenticateServer, and the id that goes with it. -/
theorem authenticateServerRequest_ok {param : AuthenticateServerParam}
    {matchingId imei : Option String} {request id : Bytes}
    (h : authenticateServerRequest param matchingId imei = .ok (request, id)) :
    leadingTag request = some 0xBF38 ∧ transactionIdOf param = some id := by
  obtain ⟨signed1, hsigned1, h⟩ := okOr_bind_ok h
  obtain ⟨transactionId, htransactionId, h⟩ := okOr_bind_ok h
  obtain ⟨signature1, -, h⟩ := okOr_bind_ok h
  obtain ⟨ciPkid, -, h⟩ := okOr_bind_ok h
  obtain ⟨certificate, -, h⟩ := okOr_bind_ok h
  obtain ⟨device, -, h⟩ := bind_ok h
  cases h
  refine ⟨leadingTag_encode _ (by decide) (by decide), ?_⟩
  simp [transactionIdOf, hsigned1, htransactionId]

theorem prepareDownloadRequest_ok {sha256 : Bytes → Bytes} {param : PrepareDownloadParam}
    {confirmationCode : Option String} {request : Bytes}
    (h : prepareDownloadRequest sha256 param confirmationCode = .ok request) :
    leadingTag request = some 0xBF21 := by
  obtain ⟨signed2, -, h⟩ := okOr_bind_ok h
  obtain ⟨signature2, -, h⟩ := okOr_bind_ok h
  obtain ⟨certificate, -, h⟩ := okOr_bind_ok h
  obtain ⟨transactionId, -, h⟩ := okOr_bind_ok h
  obtain ⟨ccRequired, -, h⟩ := okOr_bind_ok h
  dsimp only at h
  split at h
  · obtain ⟨code, -, h⟩ := okOr_bind_ok h
    cases h
    exact leadingTag_encode _ (by decide) (by decide)
  · cases h
    exact leadingTag_encode _ (by decide) (by decide)

theorem sends_prepareDownload (sha256 : Bytes → Bytes) (param : PrepareDownloadParam)
    (confirmationCode : Option String) :
    Sends KeepsOpen (prepareDownload sha256 param confirmationCode) := by
  refine sends_tryOk fun request hrequest => .attempt (sends_command ?_) fun _ => trivial
  rw [KeepsOpen, prepareDownloadRequest_ok hrequest]
  decide

/-- The segments of a package. -/
theorem sends_loadSegments (segments : List (Except Error Bytes)) (result : LoadBppResult)
    (h : ∀ segment, .ok segment ∈ segments → KeepsOpen segment) :
    Sends KeepsOpen (loadSegments segments result) := by
  induction segments generalizing result with
  | nil => trivial
  | cons segment rest ih =>
    refine sends_tryOk fun der hder => .attempt (sends_command ?_) fun resp => ?_
    · exact h der (hder ▸ List.mem_cons_self)
    · refine sends_tryOk fun loaded _ => ?_
      split
      · exact ih loaded fun der hder => h der (List.mem_cons_of_mem _ hder)
      · trivial

/-- A package whose segments do not. -/
theorem sends_loadBoundProfilePackage {package : String}
    (h : ∀ segments segment, bppSegments (decodeBase64 package) = .ok segments →
      .ok segment ∈ segments → KeepsOpen segment) :
    Sends KeepsOpen (loadBoundProfilePackage package) :=
  sends_tryOk fun segments hsegments =>
    sends_loadSegments segments {} fun segment => h segments segment hsegments

/-! ### Until the session is open -/

/-- The session is open, and nothing was done yet that decides how it ends. -/
structure Opened (ids : SessionIds) (r : Run) : Prop where
  opened : r.opened = true
  id : ∃ server auth, .initiated (.ok (server, auth)) ∈ r.log ∧
    transactionIdOf auth = some ids.card
  undecided : ∀ d ∈ r.log, d.decides = false

/-- The session was never opened, and the server knows of no end. -/
def Unopened (r : Run) : Prop := ∀ d ∈ r.log, d.opens = false ∧ d.tells = false

/-- Before AuthenticateServer. -/
abbrev Early (result : Except Stop α) (r' : Run) : Prop :=
  Leaves (fun _ => True) (fun d => d.opens = false) {} result r'

/-- What is left when the session could not be opened. -/
theorem unopened_of_early {stop : Stop} {r' : Run}
    (h : Early (.error stop : Except Stop α) r') : Unopened r' := by
  obtain ⟨new, hlog, hopens, -, hsettles⟩ := h
  intro d hd
  rw [hlog, List.append_nil] at hd
  exact ⟨hopens d hd, (hsettles d hd).tells⟩

/-- What AuthenticateServer leaves: the session is open, or it was refused. -/
def Authenticated {ε : Type} (server : String) (result : Except ε (Bytes × String)) (r : Run) :
    Prop :=
  match result with
  | .ok (card, _) => Opened ⟨card, server⟩ r
  | .error _ => Unopened r

theorem holds_authenticateServer {auth : AuthenticateServerParam} {matchingId : Option String}
    {server : String} (hr : Steady r) (hearly : Early (.ok () : Except Stop Unit) r)
    (hauth : .initiated (.ok (server, auth)) ∈ r.log) :
    Holds channel polls (onCard (authenticateServer auth matchingId none)) r
      (Authenticated server) := by
  obtain ⟨new, hlog, hopens, hundecided⟩ := hearly
  rw [List.append_nil] at hlog
  have hquiet : ∀ d ∈ r.log, d.opens = false ∧ d.decides = false := fun d hd =>
    ⟨hopens d (hlog ▸ hd), hundecided d (hlog ▸ hd)⟩
  have huntold : Unopened r := fun d hd =>
    ⟨(hquiet d hd).1, (settles_of_undecided (hquiet d hd).2 (.user .cancel)).tells⟩
  unfold authenticateServer
  cases hrequest : authenticateServerRequest auth matchingId none with
  | error e => exact .pure hr huntold
  | ok request =>
    obtain ⟨request, id⟩ := request
    obtain ⟨htag, hid⟩ := authenticateServerRequest_ok hrequest
    rw [tryOk_ok_bind]
    refine Upholds.hoist (.act hr fun e x r' _ h => ?_)
    obtain ⟨h, hr'⟩ := within_eq_some.mp h
    obtain ⟨offers, r₁, hplay, rfl⟩ := exec_command h
    have hlog₁ : r₁.log = r.log := (play_transmit hplay).2
    have hne : request ≠ [] := by
      rintro rfl
      cases htag
    have hoffers : offers.isEmpty = false := by
      simpa using (play_answered hne hplay).1
    cases x with
    | error e =>
      refine .pure hr' fun d hd => ?_
      obtain rfl | hd := List.mem_cons.mp hd
      · exact ⟨rfl, rfl⟩
      · exact huntold d (hlog₁ ▸ hd)
    | ok resp =>
      refine .pure hr' ⟨?_, ⟨server, auth, ?_, hid⟩, fun d hd => ?_⟩
      · have hopens : (Done.command r₁.step request offers (.ok resp)).opens = true := by
          simp [Done.opens, htag, hoffers]
        exact List.any_eq_true.mpr ⟨_, List.mem_cons_self, hopens⟩
      · exact List.mem_cons_of_mem _ (hlog₁ ▸ hauth)
      · obtain rfl | hd := List.mem_cons.mp hd
        · exact decides_command (by rw [htag]; decide)
        · exact (hquiet d (hlog₁ ▸ hd)).2

/-- What the first part of the procedure leaves. -/
def Begun (result : Except Stop (SessionIds × String)) (r : Run) : Prop :=
  match result with
  | .ok (ids, _) => Opened ids r
  | .error _ => Unopened r

/-- A step before AuthenticateServer. -/
theorem holds_early {p : Steps α} {f : α → Steps (SessionIds × String)}
    (hearly : Early (.ok () : Except Stop Unit) r)
    (hp : Holds channel polls p.run r (Leaves (fun _ => True) (fun d => d.opens = false) r))
    (hf : ∀ a r', Steady r' → Early (.ok () : Except Stop Unit) r' → (∀ d ∈ r.log, d ∈ r'.log) →
      Holds channel polls (f a).run r' Begun) :
    Holds channel polls (p >>= f).run r Begun := by
  refine .attempt hp (fun stop r' _ hleaves => unopened_of_early (hearly.trans hleaves))
    fun a r' hr' hleaves => hf a r' hr' (hearly.trans hleaves) fun d hd => ?_
  obtain ⟨new, hlog, -⟩ := hleaves
  exact hlog ▸ List.mem_append_right new hd

theorem holds_authenticate (code : ActivationCode) (confirmationCode : Option String)
    (hr : Steady {}) : Holds channel polls (authenticate code confirmationCode).run {} Begun := by
  have hplain : ∀ der, Plain der → leadingTag der ≠ some 0xBF41 ∧ ∀ step offers result,
      (Done.command step der offers result).opens = false := by
    intro der hder
    refine ⟨hder.1, fun step offers result => ?_⟩
    cases result with
    | error e => rfl
    | ok resp => rw [Done.opens, beq_false_of_ne hder.2, Bool.false_and]
  refine holds_early (leaves_nil rfl) (holds_stopIf hr fun _ => trivial) fun _ r₁ hr₁ h₁ _ => ?_
  refine holds_early h₁ (holds_progress hr₁) fun _ r₂ hr₂ h₂ _ => ?_
  refine holds_early h₂ (holds_card sends_getEuiccChallenge hplain hr₂ fun _ => trivial)
    fun challenge r₃ hr₃ h₃ _ => ?_
  refine holds_early h₃ (holds_card sends_getEuiccInfo1 hplain hr₃ fun _ => trivial)
    fun info1 r₄ hr₄ h₄ _ => ?_
  refine holds_early h₄ (holds_unlessCancelled hr₄ trivial fun _ => rfl) fun _ r₅ hr₅ h₅ _ => ?_
  refine holds_early h₅ (holds_progress hr₅) fun _ r₆ hr₆ h₆ _ => ?_
  -- From here on the id of the session is on record.
  have hcall : Holds channel polls (orStop (.server "es9p_initiate_authentication")
      (liftM (Step.initiateAuthentication code.smdp challenge info1))).run r₆ fun result r' =>
        Leaves (fun _ => True) (fun d => d.opens = false) r₆ result r' ∧
          ∀ x, result = .ok x → .initiated (.ok x) ∈ r'.log :=
    holds_call isCall_initiated hr₆ rfl (fun _ => rfl) (fun _ => trivial) fun x => by
      cases x <;> rfl
  refine .attempt hcall (fun stop r' _ h => unopened_of_early (h₆.trans h.1)) ?_
  rintro ⟨server, auth⟩ r₇ hr₇ ⟨hleaves, hauth⟩
  have h₇ := h₆.trans hleaves
  refine holds_early h₇ (holds_unlessCancelled hr₇ trivial fun _ => rfl)
    fun _ r₈ hr₈ h₈ hgrow₈ => ?_
  refine holds_early h₈ (holds_progress hr₈) fun _ r₉ hr₉ h₉ hgrow₉ => ?_
  have hserver : Holds channel polls
      (onCard (authenticateServer auth (some code.matchingId) none)) r₉ (Authenticated server) :=
    holds_authenticateServer hr₉ h₉ (hgrow₉ _ (hgrow₈ _ (hauth _ rfl)))
  refine .attempt (.bind hserver fun result r' hr' h => .pure hr' (Q := fun result r' =>
    Authenticated server result r') ?_) (fun _ _ _ h => h) fun _ _ hr' h => .pure hr' h
  cases result <;> exact h

/-! ### While the session is open -/

/-- What a part leaves once the session is open: its stops have a reason. -/
abbrev Cancels (r : Run) (result : Except Stop α) (r' : Run) : Prop :=
  Leaves (fun stop => stop.reason.isSome = true) (fun _ => True) r result r'

/-- What does not involve anyone. -/
theorem holds_pure {x : Except Error α} {stop : Error → Stop} (hr : Steady r)
    (hV : ∀ e, (stop e).reason.isSome = true) :
    Holds channel polls (orStop stop (Pure.pure x)).run r (Cancels r) := by
  refine .pure hr ?_
  cases x with
  | ok a => exact leaves_nil rfl
  | error e => exact ⟨[], rfl, by simp, hV e, by simp⟩

theorem server_reason (step : String) (e : Es9pStatus) :
    (Stop.server step e).reason.isSome = true := by
  unfold Stop.server
  dsimp only
  split
  · rfl
  · split <;> rfl

theorem card_reason (step : String) (e : Error) : (Stop.card step e).reason.isSome = true := by
  cases e <;> rfl

/-- A decision to stop goes by the record of it. -/
theorem settles_awaited (a : Awaited) : Settles (.user a.decision) (.awaited a) where
  closes := rfl
  tells := rfl
  asked := fun reason h => by
    have hreason : a.decision.reason = some reason := h
    cases hdecision : a.decision <;> rw [hdecision] at hreason <;> cases hreason <;>
      exact ⟨rfl, rfl⟩
  reported := fun _ h => by cases h

/-- The wait for the decision. -/
theorem holds_decision (hr : Steady r) (a : α) :
    Holds channel polls (do
      let awaited ← ExceptT.lift (liftM Step.await)
      stopIf (awaited.decision != .accept) (.user awaited.decision)
      return a : Steps α).run r (Cancels r) := by
  refine holds_act hr fun e awaited r' h hr' => ?_
  have hlog : r'.log = .awaited awaited :: r.log := (exec_other rfl h).1
  change Holds channel polls (stopIf (awaited.decision != .accept) (.user awaited.decision) >>=
    fun _ => Pure.pure a : Steps α).run r' (Cancels r)
  have hsettles := settles_awaited awaited
  cases hdecision : awaited.decision with
  | accept =>
    refine .pure hr' ⟨[_], hlog, fun _ _ => trivial, fun d hd => ?_⟩
    rw [List.mem_singleton.mp hd]
    simp [Done.decides, Done.closes, Done.tells, Done.asks, hdecision, DownloadCtl.reason,
      Done.failure]
  | _ =>
    rw [hdecision] at hsettles
    exact .pure hr' ⟨[_], hlog, fun _ _ => trivial, rfl,
      fun d hd => List.mem_singleton.mp hd ▸ hsettles⟩

theorem holds_preview (readers : Readers) (code : ActivationCode) (confirmationCode : Option String)
    (ids : SessionIds) (authResponse : String) (hr : Steady r) :
    Holds channel polls (preview readers code confirmationCode ids authResponse).run r
      (Cancels r) := by
  refine holds_attempt (holds_unlessCancelled hr rfl fun _ => trivial) fun _ r₁ hr₁ => ?_
  refine holds_attempt (holds_progress hr₁) fun _ r₂ hr₂ => ?_
  refine holds_attempt ((holds_call isCall_authenticated hr₂ rfl (fun _ => rfl)
    (server_reason _) fun _ => trivial).mono fun _ _ _ h => h.1) fun prepare r₃ hr₃ => ?_
  refine holds_attempt (holds_pure hr₃ fun _ => rfl) fun metadata r₄ hr₄ => ?_
  refine holds_attempt (holds_progress hr₄) fun _ r₅ hr₅ => ?_
  refine holds_attempt (holds_stopIf hr₅ fun _ => rfl) fun _ r₆ hr₆ => ?_
  refine holds_attempt (holds_progress hr₆) fun _ r₇ hr₇ => ?_
  exact holds_decision hr₇ prepare

/-- What fetching leaves, and that the package is on record. -/
theorem holds_fetchPackage (readers : Readers) (code : ActivationCode)
    (confirmationCode : Option String) (ids : SessionIds) (prepare : PrepareDownloadParam)
    (hr : Steady r) :
    Holds channel polls (fetchPackage readers code confirmationCode ids prepare).run r
      fun result r' => Cancels r result r' ∧
        ∀ package, result = .ok package → .fetched (.ok package) ∈ r'.log := by
  refine holds_then (holds_progress hr) fun _ r₁ hr₁ => ?_
  refine holds_then (holds_card (sends_prepareDownload _ _ _)
    (fun der hder => ⟨hder, fun _ _ _ => trivial⟩) hr₁ (card_reason _)) fun prepared r₂ hr₂ => ?_
  refine holds_then (holds_unlessCancelled hr₂ rfl fun _ => trivial) fun _ r₃ hr₃ => ?_
  refine holds_then (holds_progress hr₃) fun _ r₄ hr₄ => ?_
  -- From here on the package is on record.
  refine .attempt (holds_call isCall_fetched hr₄ rfl (fun _ => rfl) (server_reason _)
    fun _ => trivial) (fun _ _ _ h => ⟨h.1, by simp⟩) fun package r₅ hr₅ hcalled => ?_
  obtain ⟨hleaves, hfetched⟩ := hcalled
  have hrest : Holds channel polls (do
      unlessCancelled
      let left ← ExceptT.lift (liftM Step.left)
      stopIf (left < installMin)
        { message := "not enough time left to install", reason := some .timeout }
      return package : Steps String).run r₅ fun result r' => Cancels r₅ result r' ∧
        ∀ b, result = .ok b → b = package := by
    refine holds_then (holds_unlessCancelled hr₅ rfl fun _ => trivial) fun _ r₆ hr₆ => ?_
    refine holds_then (holds_left hr₆) fun left r₇ hr₇ => ?_
    refine holds_then (holds_stopIf hr₇ fun _ => rfl) fun _ r₈ hr₈ => ?_
    exact .pure hr₈ ⟨leaves_nil rfl, fun b hb => by cases hb; rfl⟩
  refine hrest.mono fun result r' _ h => ⟨hleaves.trans h.1, fun b hb => ?_⟩
  obtain ⟨⟨new, hlog, -⟩, hsame⟩ := h
  rw [hsame b hb, hlog]
  exact List.mem_append_right new (hfetched package rfl)

/-- What the install leaves: no CancelSession went out. -/
theorem holds_install (package : String) (hr : Steady r) (hpackage : .fetched
    (.ok package) ∈ r.log) :
    Holds channel polls (install package).run r fun result r' =>
      Cancels r result r' ∧ Installed result r' := by
  refine .and ?_ (ends_install channel polls package r).within
  exact holds_attempt (holds_progress hr) fun _ r₁ hr₁ => holds_card
    (sends_loadBoundProfilePackage fun segments segment => hr.1.package package segments
      segment hpackage)
    (fun der hder => ⟨hder, fun _ _ _ => trivial⟩) hr₁ fun _ => rfl

/-- The session is open, and the download stops with what goes by everything that was done. -/
structure Stopped (ids : SessionIds) (stop : Stop) (r : Run) : Prop where
  opened : r.opened = true
  id : ∃ server auth, .initiated (.ok (server, auth)) ∈ r.log ∧
    transactionIdOf auth = some ids.card
  reason : stop.reason.isSome = true
  settles : ∀ d ∈ r.log, Settles stop d

theorem opened_of_log {r' : Run} {new : List Done} (h : r.opened = true)
    (hlog : r'.log = new ++ r.log) : r'.opened = true := by
  rw [Run.opened, hlog, List.any_append, Bool.or_eq_true]
  exact .inr h

/-- An open session is still open after a part that went well. -/
theorem Opened.ok {ids : SessionIds} {r' : Run} {a : α} (h : Opened ids r)
    (hleaves : Cancels r (.ok a : Except Stop α) r') : Opened ids r' := by
  obtain ⟨new, hlog, -, hundecided⟩ := hleaves
  obtain ⟨server, auth, hauth, hid⟩ := h.id
  refine ⟨opened_of_log h.opened hlog, ⟨server, auth, ?_, hid⟩, fun d hd => ?_⟩
  · exact hlog ▸ List.mem_append_right new hauth
  · rw [hlog] at hd
    exact (List.mem_append.mp hd).elim (hundecided d) (h.undecided d)

/-- And the download stops with what goes by everything, after one that did not. -/
theorem Opened.error {ids : SessionIds} {r' : Run} {stop : Stop} (h : Opened ids r)
    (hleaves : Cancels r (.error stop : Except Stop α) r') : Stopped ids stop r' := by
  obtain ⟨new, hlog, -, hreason, hsettles⟩ := hleaves
  obtain ⟨server, auth, hauth, hid⟩ := h.id
  refine ⟨opened_of_log h.opened hlog, ⟨server, auth, ?_, hid⟩, hreason, fun d hd => ?_⟩
  · exact hlog ▸ List.mem_append_right new hauth
  · rw [hlog] at hd
    exact (List.mem_append.mp hd).elim (hsettles d)
      fun hd => settles_of_undecided (h.undecided d hd) stop

/-! ### The whole run -/

/-- The server was not told of an end. -/
def Untold (r : Run) : Prop := ∀ d ∈ r.log, d.tells = false

/-- Where `steps` ends. -/
def SteppedTo : Except Stop Value × Option SessionIds → Run → Prop
  | (.ok _, _), r => Untold r
  | (.error stop, some ids), r => Stopped ids stop r
  | (.error stop, none), r => Unopened r ∨ stop.reason = none ∧ RefusedByCard r.log ∧ Untold r

/-- What the preview, the package and the install leave. -/
def LoadedOpen (ids : SessionIds) : Except Stop LoadBppResult → Run → Prop
  | .ok loaded, r => Opened ids r ∧ Installed (.ok loaded) r
  | .error stop, r => Stopped ids stop r

theorem Opened.untold {ids : SessionIds} (h : Opened ids r) : Untold r := fun d hd =>
  (settles_of_undecided (h.undecided d hd) (.user .cancel)).tells

theorem holds_steps (readers : Readers) (code : ActivationCode) (confirmationCode : Option String)
    (hr : Steady {}) :
    Holds channel polls (steps readers code confirmationCode) {} SteppedTo := by
  refine Upholds.bind (holds_authenticate code confirmationCode hr) fun opened r₁ hr₁ hbegun => ?_
  cases opened with
  | error stop => exact .pure hr₁ (.inl hbegun)
  | ok opened =>
    obtain ⟨ids, authResponse⟩ := opened
    have hopened₁ : Opened ids r₁ := hbegun
    refine Upholds.bind (R := LoadedOpen ids) ?_ fun loaded r₂ hr₂ hloaded => ?_
    · refine Upholds.attempt (holds_preview readers code confirmationCode ids authResponse hr₁)
        (fun _ _ _ h => hopened₁.error h) fun prepare r₂ hr₂ h₂ => ?_
      have hopened₂ := hopened₁.ok h₂
      refine Upholds.attempt (holds_fetchPackage readers code confirmationCode ids prepare hr₂)
        (fun _ _ _ h => hopened₂.error h.1) fun package r₃ hr₃ h₃ => ?_
      have hopened₃ := hopened₂.ok h₃.1
      refine (holds_install package hr₃ (h₃.2 package rfl)).mono fun loaded r₄ _ h₄ => ?_
      cases loaded with
      | error stop => exact hopened₃.error h₄.1
      | ok loaded => exact ⟨hopened₃.ok h₄.1, h₄.2⟩
    · cases loaded with
      | error stop => exact .pure hr₂ hloaded
      | ok loaded =>
        obtain ⟨hopened₂, resp, hlast, hparse⟩ := hloaded
        have htag := parseLoadBppResponse_tag hparse
        dsimp only
        split
        · exact .pure hr₂ hopened₂.untold
        · rename_i hrefused
          rw [if_neg hrefused] at htag
          obtain ⟨tag, htag, hother⟩ := htag
          exact .pure hr₂ (.inr ⟨rfl, ⟨resp, tag, hlast, htag, hother⟩, hopened₂.untold⟩)

/-- A Cancel that comes late gives its own reason. -/
theorem holds_finalStop {ids : SessionIds} {stop : Stop} (hr : Steady r) (h : Stopped ids stop r) :
    Holds channel polls (finalStop stop) r fun stop' r' => Stopped ids stop' r' := by
  unfold finalStop
  split
  · rename_i hopen
    have hfailed : stop.ending = .failed := eq_of_beq (Bool.and_eq_true_iff.mp hopen).2
    obtain ⟨server, auth, hauth, hid⟩ := h.id
    refine Upholds.bind (holds_cancelled hr) fun stopped r₁ hr₁ hdone => .pure hr₁ ?_
    obtain ⟨new, hlog, hnew, hsignal⟩ := hdone
    have hopened := opened_of_log h.opened hlog
    have hauth₁ := hlog ▸ List.mem_append_right new hauth
    cases stopped with
    | false =>
      refine ⟨hopened, ⟨server, auth, hauth₁, hid⟩, h.reason, fun d hd => ?_⟩
      rw [hlog] at hd
      refine (List.mem_append.mp hd).elim (fun hd => ?_) (h.settles d)
      exact settles_of_undecided (hnew d hd ▸ rfl) stop
    | true =>
      refine ⟨hopened, ⟨server, auth, hauth₁, hid⟩, rfl, fun d hd => ?_⟩
      have hd' := hd
      rw [hlog] at hd'
      refine (List.mem_append.mp hd').elim (fun hd => hnew d hd ▸ settles_drained true)
        fun hold => ?_
      have hsettles := h.settles d hold
      refine ⟨hsettles.closes, hsettles.tells, fun reason hasked => ?_, fun e he hreported => ?_⟩
      · -- A decision to stop would have ended it as cancelled.
        have hcancelled := (hsettles.asked reason hasked).2
        rw [hfailed] at hcancelled
        cases hcancelled
      · obtain ⟨-, hcalm, hdrained⟩ := hr₁.1.reported d hd e he hreported
        cases hlast : new with
        | nil =>
          rw [hsignal rfl hlast] at hcalm
          cases hcalm
        | cons last rest =>
          have hmem : last ∈ new := hlast ▸ List.mem_cons_self
          exact absurd (hlog ▸ List.mem_append_left _ (hnew last hmem ▸ hmem)) hdrained
  · exact .pure hr h

/-- CancelSession went to the card once, every block of it, with the session's id and the reason
that the user, a closed pipe or the clock gave. -/
def ClosedOnce (log : List Done) : Prop :=
  ∃ step id reason offers result,
    log.filter Done.closes = [.command step (cancelSessionRequest id reason) offers result] ∧
    (∀ o ∈ offers, o.answer.isSome = true) ∧
    (∃ server auth, .initiated (.ok (server, auth)) ∈ log ∧ transactionIdOf auth = some id) ∧
    ∀ d ∈ log, ∀ asked, d.asks = some asked → reason = asked

/-- The server was told of the end only if the card's CancelSession succeeded, and it had not
reported a failure itself. -/
def ToldRightly (log : List Done) : Prop :=
  (∃ d ∈ log, d.tells = true) →
    (∃ step der offers resp, .command step der offers (.ok resp) ∈ log ∧
      leadingTag der = some 0xBF41 ∧ (find resp 0xBF41).isSome = true) ∧
    ∀ d ∈ log, ∀ e, d.failure = some e → e.reported = false

theorem toldRightly_of_untold (h : Untold r) : ToldRightly r.log := by
  rintro ⟨d, hd, htells⟩
  rw [h d hd] at htells
  cases htells

theorem leadingTag_cancelSessionRequest (id : Bytes) (reason : CancelSessionReason) :
    leadingTag (cancelSessionRequest id reason) = some 0xBF41 :=
  leadingTag_encode _ (by decide) (by decide)

/-- A length below 256 takes one byte of its long form. -/
theorem lengthBytes_length {n : Nat} (h : n < 256) :
    ((toBe32 n).dropWhile (· == 0)).length ≤ 1 := by
  have hzeros : toBe32 n = [0, 0, 0, UInt8.ofNat n] := by
    have hthird : n / 0x1000000 = 0 := Nat.div_eq_of_lt (by omega)
    have hsecond : n / 0x10000 = 0 := Nat.div_eq_of_lt (by omega)
    have hfirst : n / 0x100 = 0 := Nat.div_eq_of_lt (by omega)
    rw [toBe32, hthird, hsecond, hfirst]
    rfl
  rw [hzeros]
  by_cases hlast : UInt8.ofNat n = 0 <;> simp [hlast]

/-- How long an element is at most, with contents of less than 256 bytes. -/
theorem encodeElement_length (tag : Nat) {value : Bytes} (h : value.length < 256) :
    (encodeElement tag value).length ≤ value.length + if tag / 256 = 0 then 3 else 4 := by
  have hbytes := lengthBytes_length h
  unfold encodeElement
  split <;> split <;> simp_all <;> omega

/-- The request of a CancelSession fits for an id that is not too long. -/
theorem cancelSessionRequest_length {id : Bytes} (h : id.length ≤ longestId)
    (reason : CancelSessionReason) : (cancelSessionRequest id reason).length ≤ 255 := by
  have hid : (encodeElement 0x80 id).length ≤ id.length + 3 :=
    encodeElement_length 0x80 (by unfold longestId at h; omega)
  have hreason : (encodeElement 0x81 (fromU64 reason.code)).length = 3 := by
    cases reason <;> decide
  have hcontents : (encodeElement 0x80 id ++ (encodeElement 0x81 (fromU64 reason.code) ++
    [])).length ≤
      id.length + 6 := by
    rw [List.append_nil, List.length_append, hreason]
    omega
  have hshort : (encodeElement 0x80 id ++ (encodeElement 0x81 (fromU64 reason.code) ++ [])).length <
      256 := by
    unfold longestId at h
    omega
  have hwhole := encodeElement_length 0xBF41 hshort
  simp only [cancelSessionRequest, Node.encode, encodeAll]
  refine hwhole.trans ?_
  rw [if_neg (by decide)]
  unfold longestId at h
  omega

theorem checkCancelSession_ok {id : Bytes} (hne : id ≠ []) (hlength : id.length ≤ longestId)
    (reason : CancelSessionReason) :
    checkCancelSession id reason = .ok (cancelSessionRequest id reason) := by
  have hfits := cancelSessionRequest_length hlength reason
  rw [checkCancelSession, if_neg hne, if_neg (by omega)]

/-- A CancelSession goes out as a whole, and is the only thing that closes the session. -/
theorem exec_cancel {ids : SessionIds} {stop : Stop} {reason : CancelSessionReason} {e : Answer}
    {r' : Run} {x : Except Error Bytes} (hr : Steady r) (hr' : Steady r') (h : Stopped ids stop r)
    (hexec : Run.exec channel polls (.command (cancelSessionRequest ids.card reason)) e r =
      some (x, r')) (hlength : (cancelSessionRequest ids.card reason).length ≤ 255) :
    ∃ step offers, r'.log = .command step (cancelSessionRequest ids.card reason) offers x :: r.log ∧
      (∀ o ∈ offers, o.answer.isSome = true) ∧ r'.log.filter Done.closes =
        [.command step (cancelSessionRequest ids.card reason) offers x] := by
  have htag := leadingTag_cancelSessionRequest ids.card reason
  have hcloses : r.log.filter Done.closes = [] :=
    List.filter_eq_nil_iff.mpr fun d hd => by simp [(h.settles d hd).closes]
  have hopen : r.closing = false :=
    List.any_eq_false.mpr fun d hd => by simp [(h.settles d hd).closes]
  obtain ⟨offers, r₁, hplay, rfl⟩ := exec_command hexec
  have hbefore : CalmNow (r.before e, []) := start_of_play transmit_calm hplay hr'.1.calm
  have hcalm : r₁.hasty = false := hr'.1.calm
  obtain ⟨hne, hpassed⟩ := cancel_passes (hr.2.before hbefore) h.opened hopen htag hlength hcalm
    hplay
  have hlog : r₁.log = r.log := (play_transmit hplay).2
  obtain ⟨o, rest, rfl⟩ := List.exists_cons_of_ne_nil hne
  have hclosing : (Done.command r₁.step (cancelSessionRequest ids.card reason) (o ::
    rest) x).closes =
      true := by
    simp [Done.closes, htag, hpassed o List.mem_cons_self]
  refine ⟨r₁.step, o :: rest, congrArg (_ :: ·) hlog, hpassed, ?_⟩
  change (Done.command _ _ _ _ :: r₁.log).filter Done.closes = _
  rw [List.filter_cons_of_pos hclosing, hlog, hcloses]

/-- What the clean-up's CancelSession leaves in front of what was done before. -/
def CancelledBy (id : Bytes) (reason : CancelSessionReason) (before : List Done)
    (closed : Except Error String) (log : List Done) : Prop :=
  ∃ step offers x, log = .command step (cancelSessionRequest id reason) offers x :: before ∧
    (∀ o ∈ offers, o.answer.isSome = true) ∧
    log.filter Done.closes = [.command step (cancelSessionRequest id reason) offers x] ∧
    (closed.isOk = true → ∃ resp, x = .ok resp ∧ (find resp 0xBF41).isSome = true)

theorem holds_cancelSession {ids : SessionIds} {stop : Stop} {reason : CancelSessionReason}
    (hr : Steady r) (h : Stopped ids stop r) :
    Holds channel polls (onCard (Euicc.cancelSession ids.card reason)) r fun closed r' =>
      CancelledBy ids.card reason r.log closed r'.log := by
  obtain ⟨server, auth, hauth, hid⟩ := h.id
  obtain ⟨hne, hlength⟩ := hr.1.ids server auth ids.card hauth hid
  unfold Euicc.cancelSession
  rw [checkCancelSession_ok hne hlength reason, tryOk_ok_bind]
  refine Upholds.hoist (.act hr fun e x r' _ hexec => ?_)
  obtain ⟨hexec, hr'⟩ := within_eq_some.mp hexec
  obtain ⟨step, offers, hlog, hpassed, honce⟩ :=
    exec_cancel hr hr' h hexec (cancelSessionRequest_length hlength reason)
  cases x with
  | error e => exact .pure hr' ⟨step, offers, _, hlog, hpassed, honce, fun h => by cases h⟩
  | ok resp =>
    -- What is left does not involve the card.
    change Upholds _ _ _ _ (tryOk (okOr (find resp 0xBF41)
      (.malformed "no CancelSessionResponse")) >>=
      fun answer => Pure.pure (encodeBase64 answer.raw) : CardProgram String).run r'
    cases hanswer : find resp 0xBF41 with
    | none => exact .pure hr' ⟨step, offers, _, hlog, hpassed, honce, fun h => by cases h⟩
    | some answer =>
      exact .pure hr' ⟨step, offers, _, hlog, hpassed, honce, fun _ =>
        ⟨resp, rfl, hanswer ▸ rfl⟩⟩

/-- Nothing that is added after the CancelSession closes the session or asks for an end. -/
theorem closedOnce_of_cancelledBy {ids : SessionIds} {stop : Stop} {reason : CancelSessionReason}
    {closed : Except Error String} {log : List Done} (told : List Done) (h : Stopped ids stop r)
    (hreason : stop.reason = some reason) (hlog : CancelledBy ids.card reason r.log closed log)
    (htold : ∀ d ∈ told, d.closes = false ∧ d.asks = none) : ClosedOnce (told ++ log) := by
  obtain ⟨step, offers, x, hlog, hpassed, honce, -⟩ := hlog
  obtain ⟨server, auth, hauth, hid⟩ := h.id
  refine ⟨step, ids.card, reason, offers, x, ?_, hpassed, ⟨server, auth, ?_, hid⟩, ?_⟩
  · have hnone : told.filter Done.closes = [] :=
      List.filter_eq_nil_iff.mpr fun d hd => by simp [(htold d hd).1]
    rw [List.filter_append, hnone, List.nil_append, honce]
  · rw [hlog]
    exact List.mem_append_right told (List.mem_cons_of_mem _ hauth)
  · intro d hd asked hasked
    rw [hlog] at hd
    obtain hd | hd := List.mem_append.mp hd
    · rw [(htold d hd).2] at hasked
      cases hasked
    · obtain rfl | hd := List.mem_cons.mp hd
      · cases hasked
      · have hsame := ((h.settles d hd).asked asked hasked).1
        exact Option.some.inj (hreason.symm.trans hsame)

/-- The clean-up, with what it leaves. -/
theorem holds_cleanUp (code : ActivationCode) {ids : SessionIds} {stop : Stop} (hr : Steady r)
    (h : Stopped ids stop r) :
    Holds channel polls (cleanUp code stop (some ids)) r fun _ r' =>
      ClosedOnce r'.log ∧ ToldRightly r'.log := by
  obtain ⟨reason, hreason⟩ := Option.isSome_iff_exists.mp h.reason
  simp only [cleanUp, hreason]
  refine holds_act hr fun e _ r₁ hexec hr₁ => ?_
  have hlog₁ : r₁.log = r.log := (exec_other rfl hexec).1
  have hopened₁ : r₁.opened = true := by
    rw [Run.opened, hlog₁]
    exact h.opened
  have h₁ : Stopped ids stop r₁ := ⟨hopened₁, hlog₁ ▸ h.id, h.reason, hlog₁ ▸ h.settles⟩
  refine Upholds.bind (holds_cancelSession hr₁ h₁) fun closed r₂ hr₂ hcancelled => ?_
  obtain ⟨step, offers, x, hlog₂, -, -, hanswer⟩ := id hcancelled
  have huntold : Untold r₂ := fun d hd => by
    rw [hlog₂] at hd
    obtain rfl | hd := List.mem_cons.mp hd
    · rfl
    · exact (h₁.settles d hd).tells
  have hquiet : ClosedOnce r₂.log ∧ ToldRightly r₂.log :=
    ⟨closedOnce_of_cancelledBy [] h₁ hreason hcancelled (by simp), toldRightly_of_untold huntold⟩
  cases closed with
  | error e => exact .pure hr₂ hquiet
  | ok b64 =>
    dsimp only
    split
    · rename_i hnotify
      refine holds_act hr₂ fun e₃ _ r₃ hexec₃ hr₃ => ?_
      have hlog₃ : r₃.log = r₂.log := (exec_other rfl hexec₃).1
      refine holds_act hr₃ fun e₄ _ r₄ hexec₄ hr₄ => .pure hr₄ ?_
      have hlog₄ : r₄.log = [.toldServer ids.server b64] ++ r₂.log :=
        (exec_other rfl hexec₄).1.trans (congrArg _ hlog₃)
      rw [hlog₄]
      refine ⟨closedOnce_of_cancelledBy _ h₁ hreason hcancelled fun d hd => ?_, fun _ => ⟨?_, ?_⟩⟩
      · rw [List.mem_singleton.mp hd]
        exact ⟨rfl, rfl⟩
      · obtain ⟨resp, rfl, hfound⟩ := hanswer rfl
        refine ⟨step, _, offers, resp, ?_, leadingTag_cancelSessionRequest ids.card reason, hfound⟩
        exact List.mem_append_right _ (hlog₂ ▸ List.mem_cons_self)
      · intro d hd e hfailure
        rw [hlog₂] at hd
        obtain hd | hd := List.mem_append.mp hd
        · rw [List.mem_singleton.mp hd] at hfailure
          cases hfailure
        · obtain rfl | hd := List.mem_cons.mp hd
          · cases hfailure
          · by_contra hreported
            have hsilent := (h₁.settles d hd).reported e hfailure (by simpa using hreported)
            rw [hnotify] at hsilent
            cases hsilent
    · exact .pure hr₂ hquiet

/-- Where the session was never opened, or the card ended it, there is nothing to clean up. -/
theorem holds_unstarted {stop : Stop} (hr : Steady r)
    (h : Unopened r ∨ stop.reason = none ∧ RefusedByCard r.log ∧ Untold r) :
    Holds channel polls (finalStop stop) r fun _ r' =>
      Unopened r' ∨ RefusedByCard r'.log ∧ Untold r' := by
  obtain hunopened | ⟨hreason, hrefused⟩ := h
  · unfold finalStop
    split
    · refine Upholds.bind (holds_cancelled hr) fun stopped r₁ hr₁ hdone =>
        .pure hr₁ (.inl fun d hd => ?_)
      obtain ⟨new, hlog, hnew, -⟩ := hdone
      rw [hlog] at hd
      exact (List.mem_append.mp hd).elim (fun hd => hnew d hd ▸ ⟨rfl, rfl⟩) (hunopened d)
    · exact .pure hr (.inl hunopened)
  · rw [finalStop_of_final (.inl hreason)]
    exact .pure hr (.inr hrefused)

/-- How a download should leave the card's session and the server: CancelSession went out once if
the card opened its session and did not end it by an install result. -/
def ClosedOut (ended : Except (Ending × String) Value) (r : Run) : Prop :=
  (r.opened = true → ended.isOk = false → ¬ RefusedByCard r.log → ClosedOnce r.log) ∧
    ToldRightly r.log

theorem closedOut_unstarted {ended : Except (Ending × String) Value}
    (h : Unopened r ∨ RefusedByCard r.log ∧ Untold r) : ClosedOut ended r := by
  obtain hunopened | ⟨hrefused, huntold⟩ := h
  · refine ⟨fun hopened => ?_, toldRightly_of_untold fun d hd => (hunopened d hd).2⟩
    obtain ⟨d, hd, hopens⟩ := List.any_eq_true.mp hopened
    rw [(hunopened d hd).1] at hopens
    cases hopens
  · exact ⟨fun _ _ hnot => absurd hrefused hnot, toldRightly_of_untold huntold⟩

theorem holds_download (readers : Readers) (code : ActivationCode)
    (confirmationCode : Option String)
    (hr : Steady {}) :
    Holds channel polls (download readers code confirmationCode) {} ClosedOut := by
  refine Upholds.bind (holds_steps readers code confirmationCode hr) ?_
  rintro ⟨outcome, session⟩ r₁ hr₁ hstepped
  cases outcome with
  | ok data => exact .pure hr₁ ⟨fun _ => by rintro ⟨⟩, toldRightly_of_untold hstepped⟩
  | error stop =>
    cases session with
    | none =>
      exact Upholds.bind (holds_unstarted hr₁ hstepped) fun stop r₂ hr₂ h =>
        .pure hr₂ (closedOut_unstarted h)
    | some ids =>
      refine Upholds.bind (holds_finalStop hr₁ hstepped) fun stop r₂ hr₂ hstopped => ?_
      exact Upholds.bind (holds_cleanUp code hr₂ hstopped) fun _ r₃ hr₃ hclosed =>
        .pure hr₃ ⟨fun _ _ _ => hclosed.1, hclosed.2⟩

/-- The card accepts AuthenticateServer, and the user cancels. -/
def cancelledRun : List Answer :=
  toAuthenticate ++ [{}, { arrives := [.cancel] }, {}, cardSays [0xBF, 0x41, 0x00], {}, {}]

/-- What breaks the condition in no run: no package was fetched, and no call failed. -/
def Done.quiet : Done → Bool
  | .initiated (.ok (_, auth)) =>
    (transactionIdOf auth).all fun id => id ≠ [] ∧ id.length ≤ longestId
  | .initiated (.error _) | .authenticated (.error _) | .fetched _ => false
  | _ => true

section
attribute [local simp] Done.quiet
end

theorem clean_of_quiet {r : Run} (hcalm : r.hasty = false) (h : ∀ d ∈ r.log, d.quiet = true) :
    Clean r where
  calm := hcalm
  ids := fun server auth id hd hid => by
    have hfits := h _ hd
    simpa [Done.quiet, hid] using hfits
  package := fun package _ _ hd => by cases h _ hd
  reported := fun d hd e he => by
    have hquiet := h d hd
    cases d with
    | initiated result | authenticated result | fetched result =>
      cases result with
      | ok _ => cases he
      | error _ => cases hquiet
    | _ => cases he

/-- The card accepts AuthenticateServer, and a stop signal arrives. -/
def stoppedRun : List Answer :=
  toAuthenticate ++ ([{ stop := true }, {}, { card := [(false, .error (.transport ""))] }] :
    List Answer)

end OpenUI.Helper.Download
