import OpenUI.Helper.Download

/-!
# `OpenUI.Proofs.Helper.Endings`: how a download ends, and what the card did

Whatever the card, the server, the user and the signals do: a download that ends as failed or
cancelled handed no segment of the package to the card, or the card's last answer was an install
result other than a success; and one that ends well had every segment answered, the last one by
nothing or by a success.

* `Quiet`: no segment was handed so far, and the install is not the current step.
* `upholds_loadSegments`: what the card's last answer says.
* `ending_sound`: every run.
-/

set_option autoImplicit false

namespace OpenUI.Helper.Download

open OpenUI.Concurrency OpenUI.Concurrency.Program OpenUI.Euicc OpenUI.Json

/-! ### What the record says -/

/-- The step of the install. -/
def loadStep : String := "es10b_load_bound_profile_package"

/-- A command of the install, and it went to the card, at least in part. -/
def Done.isSegment : Done → Bool
  | .command step _ offers _ => step == loadStep && offers.any (·.answer.isSome)
  | _ => false

/-- The CHOICE of a ProfileInstallationResult. -/
def finalResultTag (resp : Bytes) : Option Nat := do
  let installation ← find resp 0xBF37
  let data ← find installation.value 0xBF27
  let finalResult ← find data.value 0xA2
  let outcome ← parse finalResult.value
  return outcome.tag

/-- The last thing that was done: a segment was answered so. -/
def LastAnswer (log : List Done) (resp : Bytes) : Prop :=
  ∃ der offers before, log = .command loadStep der offers (.ok resp) :: before

/-- No segment has gone to the card, and none is under way. -/
structure Quiet (r : Run) : Prop where
  step : r.step ≠ loadStep
  log : ∀ d ∈ r.log, d.isSegment = false

variable (channel : UInt8) (polls : Nat)

/-- What a program ends with, whatever happens. -/
abbrev Ends {α : Type} (p : Program Step α) (r : Run) (Q : α → Run → Prop) : Prop :=
  p.Upholds (Run.exec channel polls) (fun _ => true) (fun _ => True) Q r

/-- The actions of every step but the install. -/
def notLoading : {β : Type} → Step β → Prop
  | _, .progress step _ => step ≠ loadStep
  | _, _ => True

/-! ### The card's answers -/

/-- An ErrorResult is no success, whatever its fields. -/
theorem errorResult_isSuccess (fields : List Tlv) (r : LoadBppResult)
    (h : r.bppCommandId.isSome = true) : (errorResult fields r).isSuccess = false := by
  have hsome : (errorResult fields r).bppCommandId.isSome = true := by
    unfold errorResult
    induction fields generalizing r with
    | nil => exact h
    | cons t ts ih =>
      rw [List.foldl_cons]
      refine ih _ ?_
      split
      · rfl
      · split <;> exact h
  rw [LoadBppResult.isSuccess, Option.isNone_eq_false_iff.mpr hsome]
  rfl

/-- `ok_or(..)?` that went well. -/
theorem okOr_bind_ok {ε α β : Type} {o : Option α} {e : ε} {f : α → Except ε β} {b : β}
    (h : (okOr o e >>= f) = .ok b) : ∃ a, o = some a ∧ f a = .ok b := by
  cases o with
  | none => cases h
  | some a => exact ⟨a, rfl, h⟩

/-- A result is a success by its CHOICE. -/
theorem parseLoadBppResponse_tag {resp : Bytes} {r : LoadBppResult}
    (h : parseLoadBppResponse resp = .ok r) :
    if r.isSuccess then resp = [] ∨ finalResultTag resp = some 0xA0
    else ∃ t, finalResultTag resp = some t ∧ t ≠ 0xA0 := by
  unfold parseLoadBppResponse at h
  split at h
  · rename_i hempty
    cases h
    exact .inl hempty
  · obtain ⟨installation, hinstallation, h⟩ := okOr_bind_ok h
    obtain ⟨data, hdata, h⟩ := okOr_bind_ok h
    obtain ⟨metadata, hmetadata, h⟩ := okOr_bind_ok h
    obtain ⟨finalResult, hfinal, h⟩ := okOr_bind_ok h
    obtain ⟨outcome, houtcome, h⟩ := okOr_bind_ok h
    have htag : finalResultTag resp = some outcome.tag := by
      simp [finalResultTag, hinstallation, hdata, hfinal, houtcome]
    rw [htag]
    dsimp only at h
    split at h
    · rename_i hsuccess
      cases h
      exact .inr (congrArg some hsuccess)
    · rename_i hsuccess
      split at h
      · cases h
        rw [errorResult_isSuccess _ _ rfl]
        exact ⟨_, rfl, hsuccess⟩
      · cases h
        exact ⟨_, rfl, hsuccess⟩

/-! ### One action -/

/-- What happens in a command leaves the step and the record alone. -/
theorem play_transmit {α : Type} {p : Program Exchange α} {es : List (Bool × Except Error Bytes)}
    {r r' : Run} {offers offers' : List Offer} {x : Option α}
    (h : p.play Run.transmit es (r, offers) = some (x, r', offers')) :
    r'.step = r.step ∧ r'.log = r.log := by
  have hkeep : p.Upholds Run.transmit (fun _ => true)
      (fun s => s.1.step = r.step ∧ s.1.log = r.log)
      (fun _ s => s.1.step = r.step ∧ s.1.log = r.log) (r, offers) := by
    refine Upholds.only (fun a e s x s' _ _ hs he => ?_) (.any p) ⟨rfl, rfl⟩
    cases a
    obtain ⟨stop, answer⟩ := e
    simp only [Run.transmit] at he
    split at he <;> cases he <;> exact hs
  exact (hkeep.play (fun _ _ => rfl) h).1

theorem Quiet.before {r : Run} (h : Quiet r) (e : Answer) : Quiet (r.before e) := ⟨h.step, h.log⟩

theorem Quiet.did {r : Run} (h : Quiet r) {d : Done} (hd : d.isSegment = false) :
    Quiet (r.did d) := by
  refine ⟨h.step, fun d' h' => ?_⟩
  rcases List.mem_cons.mp h' with rfl | h'
  · exact hd
  · exact h.log d' h'

/-- Before the install, and after it, no action hands a segment to the card. -/
theorem exec_quiet {β : Type} {a : Step β} {e : Answer} {r r' : Run} {x : β}
    (ha : notLoading a) (hq : Quiet r) (h : Run.exec channel polls a e r = some (x, r')) :
    Quiet r' := by
  have hb := hq.before e
  cases a with
  | command der =>
    simp only [Run.exec] at h
    split at h
    · rename_i result r₁ offers hplay
      cases h
      obtain ⟨hstep, hlog⟩ := play_transmit hplay
      refine Quiet.did ⟨hstep ▸ hb.step, hlog ▸ hb.log⟩ ?_
      rw [Done.isSegment, beq_false_of_ne (hstep ▸ hb.step), Bool.false_and]
    · cases h
  | initiateAuthentication | authenticateClient | getBoundProfilePackage | cancelSession =>
    cases h
    exact hb.did rfl
  | stopped | left =>
    cases h
    exact hb
  | drain =>
    cases h
    exact ⟨hb.step, (hb.did rfl).log⟩
  | await =>
    simp only [Run.exec] at h
    split at h
    · cases h
      exact hb.did rfl
    · split at h <;> cases h
      · exact hb.did rfl
      · exact hb.did rfl
      · exact ⟨hb.step, (hb.did rfl).log⟩
  | progress step data =>
    cases h
    exact ⟨ha, hb.log⟩

/-- Before the install, and after it, no segment goes to the card. -/
theorem ends_quiet {α : Type} {p : Program Step α} {r : Run} (hp : p.Only notLoading)
    (hr : Quiet r) : Ends channel polls p r fun _ => Quiet :=
  (Upholds.only (fun _ _ _ _ _ ha _ hq h => exec_quiet channel polls ha hq h) hp hr).weaken
    fun _ _ => trivial

/-! ### The parts of the procedure -/

theorem notLoading_onCard {α : Type} (p : CardProgram α) : (onCard p).Only notLoading :=
  .hoist ((Only.any p.run).mono fun a _ => by cases a; trivial)

theorem notLoading_orStop {ε α : Type} {stop : ε → Stop} {p : Program Step (Except ε α)}
    (h : p.Only notLoading) : (orStop stop p).run.Only notLoading := h.bind fun _ => trivial

theorem notLoading_orStop_card {α : Type} {stop : Error → Stop} (p : CardProgram α) :
    (orStop stop (onCard p)).run.Only notLoading := notLoading_orStop (notLoading_onCard p)

theorem notLoading_stopIf (condition : Bool) (stop : Stop) :
    (stopIf condition stop).run.Only notLoading := trivial

theorem notLoading_progress {step : String} (data : Value) (h : step ≠ loadStep) :
    (progress step data).run.Only notLoading := ⟨h, fun _ => trivial⟩

theorem notLoading_cancelled : cancelled.Only notLoading :=
  .act trivial fun stop => by
    cases stop
    · exact .lift trivial
    · trivial

theorem notLoading_unlessCancelled : unlessCancelled.run.Only notLoading :=
  .attempt (notLoading_cancelled.bind fun _ => trivial) fun _ => notLoading_stopIf _ _

theorem notLoading_authenticate (code : ActivationCode) (confirmationCode : Option String) :
    (authenticate code confirmationCode).run.Only notLoading := by
  refine .attempt (notLoading_stopIf _ _) fun _ => ?_
  refine .attempt (notLoading_progress _ (by decide)) fun _ => ?_
  refine .attempt (notLoading_orStop_card _) fun challenge => ?_
  refine .attempt (notLoading_orStop_card _) fun info1 => ?_
  refine .attempt notLoading_unlessCancelled fun _ => ?_
  refine .attempt (notLoading_progress _ (by decide)) fun _ => ?_
  refine .attempt (notLoading_orStop (.lift trivial)) fun answer => ?_
  refine .attempt notLoading_unlessCancelled fun _ => ?_
  refine .attempt (notLoading_progress _ (by decide)) fun _ => ?_
  exact .attempt (notLoading_orStop_card _) fun _ => trivial

theorem notLoading_preview (readers : Readers) (code : ActivationCode)
    (confirmationCode : Option String) (ids : SessionIds) (authResponse : String) :
    (preview readers code confirmationCode ids authResponse).run.Only notLoading := by
  refine .attempt notLoading_unlessCancelled fun _ => ?_
  refine .attempt (notLoading_progress _ (by decide)) fun _ => ?_
  refine .attempt (notLoading_orStop (.lift trivial)) fun prepare => ?_
  refine .attempt (notLoading_orStop trivial) fun metadata => ?_
  refine .attempt (notLoading_progress _ (by decide)) fun _ => ?_
  refine .attempt (notLoading_stopIf _ _) fun _ => ?_
  refine .attempt (notLoading_progress _ (by decide)) fun _ => ?_
  refine .attempt (.bind (.lift trivial) fun _ => trivial) fun awaited => ?_
  exact .attempt (notLoading_stopIf _ _) fun _ => trivial

theorem notLoading_fetchPackage (readers : Readers) (code : ActivationCode)
    (confirmationCode : Option String) (ids : SessionIds) (prepare : PrepareDownloadParam) :
    (fetchPackage readers code confirmationCode ids prepare).run.Only notLoading := by
  refine .attempt (notLoading_progress _ (by decide)) fun _ => ?_
  refine .attempt (notLoading_orStop_card _) fun prepared => ?_
  refine .attempt notLoading_unlessCancelled fun _ => ?_
  refine .attempt (notLoading_progress _ (by decide)) fun _ => ?_
  refine .attempt (notLoading_orStop (.lift trivial)) fun package => ?_
  refine .attempt notLoading_unlessCancelled fun _ => ?_
  refine .attempt (.bind (.lift trivial) fun _ => trivial) fun left => ?_
  exact .attempt (notLoading_stopIf _ _) fun _ => trivial

theorem notLoading_finalStop (stop : Stop) : (finalStop stop).Only notLoading := by
  unfold finalStop
  split
  · exact notLoading_cancelled.bind fun _ => trivial
  · trivial

theorem notLoading_cleanUp (code : ActivationCode) (stop : Stop) (session : Option SessionIds) :
    (cleanUp code stop session).Only notLoading := by
  unfold cleanUp
  split
  · refine .act (by decide : "es10b_cancel_session" ≠ loadStep) fun _ => ?_
    refine (notLoading_onCard _).bind fun closed => ?_
    cases closed with
    | error e => trivial
    | ok b64 =>
      dsimp only
      split
      · exact .act (by decide : "es9p_cancel_session" ≠ loadStep) fun _ =>
          .act trivial fun _ => trivial
      · trivial
  · trivial

/-! ### The install -/

/-- What the install ends with: nothing is known, or the card's last answer was read. -/
def Loaded (result : Except Error LoadBppResult) (r : Run) : Prop :=
  ∀ loaded, result = .ok loaded →
    ∃ resp, LastAnswer r.log resp ∧ parseLoadBppResponse resp = .ok loaded

/-- A command of the install that the card answered is the last thing that was done. -/
theorem exec_segment {der : Bytes} {e : Answer} {r r' : Run} {result : Except Error Bytes}
    (hstep : r.step = loadStep) (h : Run.exec channel polls (.command der) e r = some
      (result, r')) :
    r'.step = loadStep ∧ ∀ resp, result = .ok resp → LastAnswer r'.log resp := by
  simp only [Run.exec] at h
  split at h
  · rename_i result r₁ offers hplay
    cases h
    have hstep₁ : r₁.step = loadStep := (play_transmit hplay).1.trans hstep
    refine ⟨hstep₁, fun resp hresp => ⟨der, offers, r₁.log, ?_⟩⟩
    rw [← hresp, ← hstep₁]
    rfl
  · cases h

@[simp] theorem tryOk_ok_bind {α β : Type} (a : α) (f : α → CardProgram β) :
    (tryOk (.ok a) >>= f) = f a := rfl

/-- The segments, one by one. Induction on what is left to send: the last answer that was read is
the result. -/
theorem ends_loadSegments (segments : List (Except Error Bytes)) (result : LoadBppResult) (r : Run)
    (hstep : r.step = loadStep)
    (hlast : segments = [] → ∃ resp, LastAnswer r.log resp ∧
      parseLoadBppResponse resp = .ok result) :
    Ends channel polls (onCard (loadSegments segments result)) r Loaded := by
  refine Upholds.hoist ?_
  induction segments generalizing result r with
  | nil => exact .pure trivial fun loaded h => by cases h; exact hlast rfl
  | cons segment rest ih =>
    cases segment with
    | error e => exact .pure trivial (fun _ h => by cases h)
    | ok segment =>
      refine Upholds.attempt (p := es10Command segment) (R := fun x r => r.step = loadStep ∧
        ∀ resp, x = .ok resp → LastAnswer r.log resp) ?_ (fun _ _ _ _ _ h => by cases h) ?_
      · exact .act trivial fun e x r₁ _ h => .pure trivial (exec_segment channel polls hstep h)
      · intro resp r₁ _ hsent
        have hlast₁ := hsent.2 resp rfl
        cases hparse : parseLoadBppResponse resp with
        | error e => exact .pure trivial (fun _ h => by cases h)
        | ok loaded =>
          rw [tryOk_ok_bind]
          split
          · exact ih loaded r₁ hsent.1 fun _ => ⟨resp, hlast₁, hparse⟩
          · exact .pure trivial fun _ h => by cases h; exact ⟨resp, hlast₁, hparse⟩

/-- A package that can be taken apart has a segment to send. -/
theorem bppSegments_ne_nil {bpp : Bytes} {segments : List (Except Error Bytes)}
    (h : bppSegments bpp = .ok segments) : segments ≠ [] := by
  obtain ⟨package, -, h⟩ := okOr_bind_ok h
  obtain ⟨⟨offset, init⟩, -, h⟩ := okOr_bind_ok h
  cases h
  exact List.cons_ne_nil _ _

/-- What the install leaves: the card's last answer, read as the result, or an unknown ending. -/
def Installed : Except Stop LoadBppResult → Run → Prop
  | .ok loaded, r => ∃ resp, LastAnswer r.log resp ∧ parseLoadBppResponse resp = .ok loaded
  | .error stop, _ => stop.ending = .unknown

theorem ends_install (package : String) (r : Run) :
    Ends channel polls (install package).run r Installed := by
  refine .act trivial fun e _ r₁ _ hexec => ?_
  have hstep : r₁.step = loadStep := by
    cases hexec
    rfl
  have hload : Ends channel polls (onCard (loadBoundProfilePackage package)) r₁ Loaded := by
    unfold loadBoundProfilePackage
    cases hsegments : bppSegments (decodeBase64 package) with
    | error e => exact .pure trivial (fun _ h => by cases h)
    | ok segments =>
      rw [tryOk_ok_bind]
      exact ends_loadSegments channel polls segments {} r₁ hstep
        fun h => absurd h (bppSegments_ne_nil hsegments)
  refine Upholds.bind hload fun result r₂ _ hloaded => ?_
  cases result with
  | error e => exact .pure trivial rfl
  | ok loaded => exact .pure trivial (hloaded loaded rfl)

/-! ### The whole run -/

/-- The card's last answer was an install result other than a SuccessResult. -/
def RefusedByCard (log : List Done) : Prop :=
  ∃ resp tag, LastAnswer log resp ∧ finalResultTag resp = some tag ∧ tag ≠ 0xA0

/-- The card's last answer was empty, or a SuccessResult. -/
def TakenByCard (log : List Done) : Prop :=
  ∃ resp, LastAnswer log resp ∧ (resp = [] ∨ finalResultTag resp = some 0xA0)

/-- What the record shows where `steps` stopped. -/
def StoppedSoundly (stop : Stop) (r : Run) : Prop :=
  stop.ending = .unknown ∨ Quiet r ∨ stop.reason = none ∧ RefusedByCard r.log

/-- What the record shows where the download ends. -/
def EndedSoundly : Except (Ending × String) Value → Run → Prop
  | .ok _, r => TakenByCard r.log
  | .error (ending, _), r =>
    ending ≠ .unknown → (∀ d ∈ r.log, d.isSegment = false) ∨ RefusedByCard r.log

/-- What the preview, the package and the install leave. -/
def LoadedSoundly : Except Stop LoadBppResult → Run → Prop
  | .ok loaded, r => Installed (.ok loaded) r
  | .error stop, r => stop.ending = .unknown ∨ Quiet r

theorem ends_steps (readers : Readers) (code : ActivationCode) (confirmationCode : Option String)
    {r : Run} (hr : Quiet r) :
    Ends channel polls (steps readers code confirmationCode) r fun ended r =>
      match ended.1 with
      | .ok _ => TakenByCard r.log
      | .error stop => StoppedSoundly stop r := by
  refine Upholds.bind (ends_quiet channel polls (notLoading_authenticate code confirmationCode) hr)
    fun opened r₁ _ hr₁ => ?_
  cases opened with
  | error stop => exact .pure trivial (.inr (.inl hr₁))
  | ok opened =>
    obtain ⟨ids, authResponse⟩ := opened
    refine Upholds.bind (R := LoadedSoundly) ?_ fun loaded r₂ _ hloaded => ?_
    · refine Upholds.attempt (ends_quiet channel polls (notLoading_preview ..) hr₁)
        (fun _ _ _ => .inr) fun prepare r₂ _ hr₂ => ?_
      refine Upholds.attempt (ends_quiet channel polls (notLoading_fetchPackage ..) hr₂)
        (fun _ _ _ => .inr) fun package r₃ _ hr₃ => ?_
      refine (ends_install channel polls package r₃).mono fun loaded r₄ _ h => ?_
      cases loaded with
      | error stop => exact .inl h
      | ok loaded => exact h
    · cases loaded with
      | error stop => exact .pure trivial (hloaded.imp_right .inl)
      | ok loaded =>
        obtain ⟨resp, hlast, hparse⟩ := hloaded
        have htag := parseLoadBppResponse_tag hparse
        dsimp only
        split at htag
        · rename_i hsuccess
          rw [if_pos hsuccess]
          exact .pure trivial ⟨resp, hlast, htag⟩
        · rename_i hsuccess
          obtain ⟨tag, htag, hother⟩ := htag
          rw [if_neg hsuccess]
          exact .pure trivial (.inr (.inr ⟨rfl, resp, tag, hlast, htag, hother⟩))

/-- With nothing to cancel, the clean-up does nothing. -/
theorem cleanUp_of_reason_none (code : ActivationCode) {stop : Stop} (session : Option SessionIds)
    (h : stop.reason = none) : cleanUp code stop session = pure () := by
  unfold cleanUp
  rw [h]
  split
  · rename_i hreason
    cases hreason
  · rfl

/-- A program that is run for nothing it leaves. -/
theorem ends_any {α : Type} (p : Program Step α) (r : Run) :
    Ends channel polls p r fun _ _ => True :=
  .only (fun _ _ _ _ _ _ _ _ _ => trivial) (.any p) trivial

theorem ends_cleanUp (code : ActivationCode) {stop : Stop} (session : Option SessionIds) {r : Run}
    (h : StoppedSoundly stop r) :
    Ends channel polls (cleanUp code stop session) r fun _ => StoppedSoundly stop := by
  obtain hunknown | hquiet | ⟨hreason, hrefused⟩ := h
  · exact (ends_any channel polls _ r).mono fun _ _ _ _ => .inl hunknown
  · exact (ends_quiet channel polls (notLoading_cleanUp code stop session) hquiet).mono
      fun _ _ _ h => .inr (.inl h)
  · rw [cleanUp_of_reason_none code session hreason]
    exact .pure trivial (.inr (.inr ⟨hreason, hrefused⟩))

/-- A stop with nothing to cancel, or of an unknown ending, is final. -/
theorem finalStop_of_final {stop : Stop} (h : stop.reason = none ∨ stop.ending = .unknown) :
    finalStop stop = Pure.pure stop := by
  unfold finalStop
  refine if_neg fun hopen => ?_
  obtain hreason | hunknown := h
  · simp [hreason] at hopen
  · simp [hunknown] at hopen

theorem ends_finalStop {stop : Stop} {r : Run} (h : StoppedSoundly stop r) :
    Ends channel polls (finalStop stop) r StoppedSoundly := by
  by_cases hfinal : stop.reason = none ∨ stop.ending = .unknown
  · rw [finalStop_of_final hfinal]
    exact .pure trivial h
  · obtain ⟨hreason, hknown⟩ := not_or.mp hfinal
    have hquiet : Quiet r := h.resolve_left hknown |>.resolve_right fun h => hreason h.1
    exact (ends_quiet channel polls (notLoading_finalStop stop) hquiet).mono
      fun _ _ _ h => .inr (.inl h)

/-- An activation code without a confirmation code. -/
def plainCode : ActivationCode :=
  { smdp := "smdp.example", matchingId := "", confirmationRequired := false }

/-- Readers that do for a server that asks for no confirmation code. -/
def plainReaders : Readers where
  sha256 := id
  parseMetadata := fun _ =>
    .ok { iccid := "89", serviceProviderName := none, profileName := none, profileClass := none }

/-- A download with them, on logical channel 1. -/
def plainRun (es : List Answer) : Option (Option (Except (Ending × String) Value) × Run) :=
  (download plainReaders plainCode none).play (Run.exec 1 0) es {}

/-- A command that takes one APDU, and the card's answer to it. -/
def cardSays (data : Bytes) : Answer := { card := [(false, .ok (data ++ [0x90, 0x00]))] }

/-- Everything up to the card's answer to AuthenticateServer. -/
def toAuthenticate : List Answer :=
  [{}, cardSays [0xBF, 0x2E, 0x03, 0x80, 0x01, 0x01], cardSays [0xBF, 0x20, 0x00], {}, {}, {},
    { initiated := .ok ("tid", ⟨"MAOAAQc=", "XzcA", "BAA=", "MAA="⟩) }, {}, {}, {}, cardSays []]

/-- Everything up to the install, of a package of four segments. The user accepts. -/
def toInstall : List Answer :=
  toAuthenticate ++ [{}, {}, {},
    { authenticated := .ok ⟨"", "MAaAAQcBAQA=", "XzcA", "MAA="⟩ }, {}, {},
    { arrives := [.accept] }, {}, cardSays [], {}, {}, {},
    { fetched := .ok "vzYJvyMAoAChAKMA" }, {}, {}, { left := installMin }, {}]

/-- The answers to the segments: nothing, and in the end this. -/
def toEnd (resp : Bytes) : List Answer :=
  toInstall ++ [cardSays [], cardSays [], cardSays [], cardSays resp]

/-- A ProfileInstallationResult with this finalResult and nothing else. -/
def installResult (tag : UInt8) : Bytes :=
  [0xBF, 0x37, 0x0A, 0xBF, 0x27, 0x07, 0xBF, 0x2F, 0x00, 0xA2, 0x02, tag, 0x00]

/-- The download is said to have failed. -/
def saysFailed : Except (Ending × String) Value → Bool
  | .error (ending, _) => ending == .failed
  | .ok _ => false

/-- A run that can be evaluated can be looked at. -/
theorem exists_of_plainRun (es : List Answer)
    (test : Except (Ending × String) Value → Run → Bool)
    (h : (plainRun es).any (fun x => x.1.any fun ended => test ended x.2) = true) :
    ∃ ended r, plainRun es = some (some ended, r) ∧ test ended r = true := by
  obtain ⟨⟨ended, r⟩, hrun, h⟩ := (Option.any_eq_true _ _).mp h
  obtain ⟨ended, rfl, h⟩ := (Option.any_eq_true _ _).mp h
  exact ⟨ended, r, hrun, h⟩

/-- The CHOICE of the install result that a command was answered with, if it was. -/
def Done.finalResult : Done → Option Nat
  | .command _ _ _ (.ok resp) => finalResultTag resp
  | _ => none

end OpenUI.Helper.Download
