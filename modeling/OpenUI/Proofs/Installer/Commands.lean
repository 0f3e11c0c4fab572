import OpenUI.Concurrency.Fallible
import OpenUI.Concurrency.History
import OpenUI.Concurrency.Mutex
import OpenUI.Installer.Commands

/-!
# `OpenUI.Proofs.Installer.Commands`: installs run only what was checked

Only the operation that set `running` writes the checked identity and the checked release, and only
it writes a check. It writes the check first, so between its writes the three do not belong
together; but whoever reads the check has set `running` itself. A detection that begins or ends
meanwhile can only clear the check.

* `Sound`: the invariant that ties the state, the notes and the threads together.
* `installs_checked`: in every run, a device-changing run follows a dry run that succeeded with the
  same request after the detection it names, and holds to its identity and release.
-/

set_option autoImplicit false

namespace OpenUI.Installer.Commands

open OpenUI.Concurrency
open OpenUI.Concurrency.Discipline (wpExcept_ask wpExcept_bind)

-- The equations are stated here once, before the proofs that rewrite with them.
section
attribute [local simp] Ctx.after exec noteOf
end

/-! ### What the notes say -/

/-- A detection with this id was saved. -/
def detectedIn (id : String) (log : List Note) : Bool := log.any (· == .detected id)

/-- A dry run of this request, the dry-run flag aside, succeeded after the detection it names, and
verified this identity and this release. -/
def checkedIn (request : InstallRequest) (identity : Identity) (release : String) : List Note → Bool
  | [] => false
  | .checked r i t :: earlier =>
    r.checkedRequest == request.checkedRequest && i == identity && t == release &&
      detectedIn request.detectionId earlier || checkedIn request identity release earlier
  | _ :: earlier => checkedIn request identity release earlier

section
attribute [local simp] checkedIn
end

/-- A device-changing run was checked before, and holds to what the check has verified. -/
def Note.Checked (n : Note) (earlier : List Note) : Prop :=
  match n with
  | .started request identity release =>
    ∃ i t, identity = some i ∧ release = some t ∧ checkedIn request i t earlier = true
  | .changed request identity release => checkedIn request identity release earlier = true
  | _ => True

theorem detectedIn_append {id : String} {log : List Note} (new : List Note)
    (h : detectedIn id log = true) : detectedIn id (new ++ log) = true := by
  simp only [detectedIn, List.any_append, Bool.or_eq_true] at h ⊢
  exact .inr h

theorem checkedIn_append {request : InstallRequest} {identity : Identity} {release : String}
    {log : List Note} (new : List Note) (h : checkedIn request identity release log = true) :
    checkedIn request identity release (new ++ log) = true := by
  induction new with
  | nil => exact h
  | cons n new ih =>
    cases n with
    | checked r i t =>
      show (_ || checkedIn request identity release (new ++ log)) = true
      rw [ih, Bool.or_true]
    | _ => exact ih

/-- An installation is its own check. -/
theorem checkedRequest_of_install {request : InstallRequest} (h : request.dryRun = false) :
    request.checkedRequest = request := by
  cases request
  cases h
  rfl

/-! ### The order of the actions -/

/-- Which actions a thread may perform where it stands. -/
def Ctx.allows (c : Ctx) {β : Type} : Call β → Prop
  | .swapRunning => c = {}
  | .finish => c.runs = true ∧ (c.saved = .nothing ∨ c.saved = .cleared)
  | .checked => c.runs = true ∧ c.saved = .nothing
  | .checkedIdentity => c.runs = true ∧ c.saved = .nothing
  | .checkedRelease => c.runs = true ∧ c.saved = .nothing
  | .setChecked none => c.saved = .nothing
  | .setChecked (some r) => c.runs = true ∧ c.saved = .nothing ∧ ∃ i t, c.result = some (r, i, t)
  | .setCheckedIdentity value =>
    c.runs = true ∧ (c.saved = .cleared ∨ ∃ r i t, c.saved = .request r i t ∧ value = some i)
  | .setCheckedRelease value =>
    c.runs = true ∧ (c.saved = .cleared ∨ ∃ r i t, c.saved = .identity r i t ∧ value = some t)
  | .starts request identity release => request.dryRun = false →
    c.plan = some request ∧ c.identity = identity ∧ c.release = release ∧
      identity.isSome = true ∧ release.isSome = true
  | .changes request identity release =>
    c.plan = some request ∧ c.identity = some identity ∧ c.release = some release
  | .arrives request _ =>
    c.runs = true ∧ c.saved = .nothing ∧ c.seen = some request.detectionId
  | _ => True

/-- What a thread may rely on: a check comes with an identity and a release. -/
def Ctx.learns (c : Ctx) {β : Type} : Call β → β → Prop
  | .checkedIdentity, identity => c.plan.isSome = true → identity.isSome = true
  | .checkedRelease, release => c.plan.isSome = true → release.isSome = true
  | _, _ => True

def regime : installer.Regime where
  ok c a := c.allows a
  facts c a r := c.learns a r
  pre _ c := c = {}
  fin _ := True

/-- The operation may end. -/
def Ctx.Over (c : Ctx) : Prop := c.runs = true ∧ (c.saved = .nothing ∨ c.saved = .cleared)

/-- The operation has saved nothing yet. -/
structure Ctx.Fresh (c : Ctx) : Prop where
  runs : c.runs = true
  saved : c.saved = .nothing

theorem Ctx.Fresh.over {c : Ctx} (h : c.Fresh) : c.Over := ⟨h.runs, .inl h.saved⟩

section Keeps

variable {α : Type} {Q : Ctx → α → Prop} {E : Ctx → InstallerError → Prop} {c : Ctx}

/-- The rest of a command keeps the rules. -/
abbrev Keeps (p : Command α) (Q : Ctx → α → Prop) (E : Ctx → InstallerError → Prop) (c : Ctx) :
    Prop :=
  regime.discipline.wpExcept p Q E c

/-- A question moves nothing. -/
theorem keeps_ask {q : Question (Except InstallerError α)} (hQ : ∀ a, Q c a) (hE : ∀ e, E c e) :
    Keeps (ask q) Q E c := by
  refine (wpExcept_ask _).mpr ⟨trivial, fun r _ _ => ?_⟩
  cases r with
  | ok a => exact hQ a
  | error e => exact hE e

variable {β : Type}

theorem keeps_ask_bind {q : Question (Except InstallerError β)} {f : β → Command α}
    (hf : ∀ b, Keeps (f b) Q E c) (hE : ∀ e, E c e) : Keeps (ask q >>= f) Q E c :=
  (wpExcept_bind _ _).mpr (keeps_ask hf hE)

theorem keeps_okOr_bind {value : Option β} {e : InstallerError} {f : β → Command α}
    (hf : ∀ b, value = some b → Keeps (f b) Q E c) (hE : E c e) :
      Keeps (okOr value e >>= f) Q E c := by
  rw [Keeps, wpExcept_bind]
  cases value with
  | some b => exact hf b rfl
  | none => exact hE

theorem keeps_fromResult {result : Except InstallerError α} (hQ : ∀ a, result = .ok a → Q c a)
    (hE : ∀ e, E c e) : Keeps (fromResult result) Q E c := by
  cases result with
  | ok a => exact hQ a rfl
  | error e => exact hE e

theorem keeps_fromResult_bind {result : Except InstallerError β} {f : β → Command α}
    (hf : ∀ b, result = .ok b → Keeps (f b) Q E c) (hE : ∀ e, E c e) :
    Keeps (fromResult result >>= f) Q E c := by
  rw [Keeps, wpExcept_bind]
  cases result with
  | ok b => exact hf b rfl
  | error e => exact hE e

/-- A detection that is loaded leaves its id behind. -/
theorem keeps_loadDetection_bind {f : Option DetectionSnapshot → Command α}
    (hf : ∀ found, Keeps (f found) Q E { c with seen := found.map DetectionSnapshot.id }) :
    Keeps (loadDetection >>= f) Q E c :=
  ⟨trivial, fun _ _ _ => ⟨trivial, fun found _ _ => ⟨trivial, fun _ _ _ => hf found⟩⟩⟩

/-- A worker thread's result is looked at whatever it is. -/
theorem keeps_resultOf_bind {worker : Command β} {f : Except InstallerError β → Command α}
    {R : Ctx → β → Prop} {F : Ctx → InstallerError → Prop} (hworker : Keeps worker R F c)
    (hf : ∀ c' result, Discipline.Ended R F c' result → Keeps (f result) Q E c') :
    Keeps (resultOf worker >>= f) Q E c := by
  rw [Keeps, wpExcept_bind]
  show regime.discipline.wp (worker.run >>= fun result => pure (Except.ok result)) _ c
  rw [Discipline.wp_bind]
  exact regime.discipline.wp_mono hworker fun c' result hresult => hf c' result hresult

theorem keeps_storeDetection_bind {value : Option DetectionSnapshot} {f : Unit → Command α}
    (hf : Keeps (f ()) Q E c) : Keeps (storeDetection value >>= f) Q E c :=
  ⟨trivial, fun _ _ _ => ⟨trivial, fun _ _ _ => ⟨trivial, fun _ _ _ => hf⟩⟩⟩

end Keeps

/-! ### `perform_install` -/

/-- `perform_install` returned: a dry run knows the modem. -/
def Returned (request : InstallRequest) (c : Ctx) (c' : Ctx) (outcome : InstallOutcome) : Prop :=
  c' = c ∧ (request.dryRun = true → outcome.verifiedIdentity.isSome = true)

/-- `perform_install` failed. -/
def Failed (c : Ctx) (c' : Ctx) (_ : InstallerError) : Prop := c' = c

/-- The installation holds to the identity and the release of its check. -/
def Ctx.Holds (c : Ctx) (request : InstallRequest) (identity : Option Identity)
    (release : Option String) : Prop :=
  request.dryRun = false → c.plan = some request ∧ c.identity = identity ∧ c.release = release

theorem eq_of_requireSame {expected actual : Identity} {u : Unit}
    (h : expected.requireSame actual = .ok u) : expected = actual := by
  unfold Identity.requireSame at h
  by_contra hne
  rw [if_pos hne] at h
  cases h

section Perform

variable {request : InstallRequest} {operation : Operation} {tag : String} {channel : Channel}
  {c : Ctx}

theorem keeps_undo {id : String} {actual : Identity} {e : InstallerError} :
    Keeps (undo id actual e) (Returned request c) (Failed c) c := by
  refine ⟨trivial, fun result _ _ => ?_⟩
  cases result with
  | ok a => exact rfl
  | error recovery => exact rfl

/-- The modem is changed with the identity and to the release that the installation holds to. -/
theorem keeps_install {actual : Identity} (hdry : request.dryRun = false)
    (hc : c.Holds request (some actual) (some tag)) :
    Keeps (install request operation tag channel actual) (Returned request c) (Failed c) c := by
  refine keeps_ask_bind (fun again => ?_) (fun _ => rfl)
  refine keeps_fromResult_bind (fun _ _ => ?_) (fun _ => rfl)
  refine keeps_ask_bind (fun _ => ?_) (fun _ => rfl)
  refine ⟨hc hdry, fun _ _ _ => ?_⟩
  refine keeps_ask_bind (fun id => ?_) (fun _ => rfl)
  refine ⟨trivial, fun result _ _ => ?_⟩
  cases result with
  | error e => exact keeps_undo
  | ok a =>
    refine keeps_ask_bind (fun keyPath => ?_) (fun _ => rfl)
    refine ⟨rfl, fun h => ?_⟩
    rw [hdry] at h
    cases h

theorem keeps_readScript_bind {f : Unit → Command InstallOutcome} {Q : Ctx → InstallOutcome → Prop}
    (hf : Keeps (f ()) Q (Failed c) c) : Keeps (readScript request >>= f) Q (Failed c) c := by
  unfold readScript
  split
  · exact keeps_ask_bind (fun _ => hf) (fun _ => rfl)
  · exact hf

theorem keeps_deploy {expected : Option Identity} (hc : c.Holds request expected (some tag)) :
    Keeps (deploy request operation tag channel expected) (Returned request c) (Failed c) c := by
  refine keeps_ask_bind (fun actual => ?_) (fun _ => rfl)
  refine keeps_okOr_bind (fun identity hidentity => ?_) rfl
  refine keeps_fromResult_bind (fun _ hsame => ?_) (fun _ => rfl)
  refine keeps_readScript_bind ?_
  refine keeps_ask_bind (fun _ => ?_) (fun _ => rfl)
  refine keeps_ask_bind (fun _ => ?_) (fun _ => rfl)
  split
  · exact ⟨rfl, fun _ => rfl⟩
  · rename_i hdry
    rw [hidentity, eq_of_requireSame hsame] at hc
    exact keeps_install (by simpa using hdry) hc

theorem keeps_unlock {adbPath : Option String} {expected : Option Identity}
    (hc : c.Holds request expected (some tag)) :
    Keeps (unlock request operation tag adbPath expected) (Returned request c) (Failed c) c := by
  refine keeps_ask_bind (fun unlocked => ?_) (fun _ => rfl)
  split
  · exact ⟨rfl, fun _ => rfl⟩
  · rename_i hdry
    refine keeps_okOr_bind (fun identity hidentity => ?_) rfl
    refine keeps_fromResult_bind (fun _ hsame => ?_) (fun _ => rfl)
    refine keeps_ask_bind (fun _ => ?_) (fun _ => rfl)
    rw [hidentity, eq_of_requireSame hsame] at hc
    refine ⟨hc (by simpa using hdry), fun _ _ _ => ?_⟩
    refine keeps_ask_bind (fun _ => ?_) (fun _ => rfl)
    refine keeps_okOr_bind (fun adb _ => ?_) rfl
    refine keeps_ask_bind (fun serial => ?_) (fun _ => rfl)
    exact keeps_deploy hc

theorem keeps_maintain {snapshot : DetectionSnapshot} {mode : InstallMode}
    (hc : c.Holds request snapshot.identity (some tag)) :
    Keeps (maintain request snapshot mode operation tag) (Returned request c) (Failed c) c := by
  cases mode with
  | unlock => exact keeps_unlock hc
  | adb =>
    refine keeps_okOr_bind (fun adb _ => ?_) rfl
    refine keeps_okOr_bind (fun serial _ => ?_) rfl
    exact keeps_deploy hc
  | ssh =>
    refine keeps_ask_bind (fun channel => ?_) (fun _ => rfl)
    exact keeps_deploy hc

/-- The release is found before anything else happens; nothing is known of it yet. -/
theorem keeps_findRelease_bind {pinnedRelease : Option String}
    {f : String × Option String → Command InstallOutcome} {Q : Ctx → InstallOutcome → Prop}
    (hf : ∀ found, Keeps (f found) Q (Failed c) c) :
    Keeps (findRelease request pinnedRelease >>= f) Q (Failed c) c := by
  rw [Keeps, wpExcept_bind]
  unfold findRelease
  split
  · exact keeps_ask_bind (fun tag => hf _) (fun _ => rfl)
  · refine ⟨trivial, fun latest _ _ => ?_⟩
    cases latest with
    | ok tag => exact ⟨trivial, fun cached _ _ => hf _⟩
    | error e =>
      refine ⟨trivial, fun cached _ _ => ?_⟩
      cases cached with
      | some path => exact keeps_ask_bind (fun tag => hf _) (fun _ => rfl)
      | none => exact rfl

theorem keeps_fetchRelease_bind {offline : Option String} {f : Unit → Command InstallOutcome}
    {Q : Ctx → InstallOutcome → Prop} (hf : Keeps (f ()) Q (Failed c) c) :
    Keeps (fetchRelease tag offline >>= f) Q (Failed c) c := by
  rw [Keeps, wpExcept_bind]
  cases offline with
  | some path => exact keeps_ask (fun _ => hf) (fun _ => rfl)
  | none => exact keeps_ask_bind (fun _ => keeps_ask (fun _ => hf) (fun _ => rfl)) (fun _ => rfl)

/-- Once the release is the pinned one, the installation holds to it. -/
theorem keeps_performInstall {snapshot : DetectionSnapshot} {pinnedRelease : Option String}
    (hc : c.Holds request snapshot.identity pinnedRelease)
    (hpinned : request.dryRun = false → pinnedRelease.isSome = true) :
    Keeps (performInstall request snapshot pinnedRelease) (Returned request c) (Failed c) c := by
  refine keeps_okOr_bind (fun mode _ => ?_) rfl
  refine keeps_okOr_bind (fun operation _ => ?_) rfl
  refine keeps_ask_bind (fun _ => ?_) (fun _ => rfl)
  refine keeps_findRelease_bind fun found => ?_
  show Keeps (if pinnedRelease.any (· ≠ found.1) then throw _ else _) _ _ _
  split
  · exact rfl
  · rename_i hsame
    refine keeps_fetchRelease_bind ?_
    refine keeps_ask_bind (fun _ => ?_) (fun _ => rfl)
    refine keeps_maintain fun hdry => ?_
    obtain ⟨hplan, hidentity, hrelease⟩ := hc hdry
    obtain ⟨release, hr⟩ := Option.isSome_iff_exists.mp (hpinned hdry)
    have htag : release = found.1 := by simpa [hr] using hsame
    exact ⟨hplan, hidentity, by rw [hrelease, hr, htag]⟩

end Perform

/-! ### The commands -/

section Commands

variable {c : Ctx}

/-- The postcondition of an operation, whatever its result. -/
abbrev Closes {α : Type} (command : Command α) (c : Ctx) : Prop :=
  Keeps command (fun c' _ => c'.Over) (fun c' _ => c'.Over) c

/-- A command that does not run an operation leaves no trace in its record. -/
abbrev Ends {α : Type} (command : Command α) (c : Ctx) : Prop :=
  Keeps command (fun _ _ => True) (fun _ _ => True) c

theorem keeps_requireNormalMode_bind {α : Type} {f : Unit → Command α} (hf : Ends (f ()) c) :
    Ends (requireNormalMode >>= f) c := by
  rw [Ends, Keeps, wpExcept_bind]
  refine ⟨trivial, fun diagnostic _ _ => ?_⟩
  cases diagnostic with
  | true => trivial
  | false => exact hf

/-- The running operation: it has saved nothing, and ends before its guard is dropped. -/
theorem keeps_guarded {α : Type} {command : Command α}
    (h : ∀ c : Ctx, c = { runs := true } → Closes command c) :
    Ends (start >>= fun _ => guarded command) {} := by
  rw [Ends, Keeps, wpExcept_bind]
  refine ⟨rfl, fun busy _ _ => ?_⟩
  cases busy with
  | true => trivial
  | false =>
    show regime.discipline.wp (command.run >>= _) _ _
    rw [Discipline.wp_bind]
    refine regime.discipline.wp_mono (h _ rfl) fun c' result hover => ?_
    cases result with
    | ok a => exact ⟨hover, fun _ _ _ => trivial⟩
    | error e => exact ⟨hover, fun _ _ _ => trivial⟩

theorem keeps_detectDevice (request : DetectionRequest) : Ends (detectDevice request) {} := by
  refine keeps_requireNormalMode_bind ⟨trivial, fun running _ _ => ?_⟩
  cases running with
  | true => trivial
  | false =>
    refine ⟨trivial, fun previous _ _ => ⟨rfl, fun _ _ _ => ?_⟩⟩
    refine keeps_ask_bind (fun snapshot => ?_) (fun _ => trivial)
    refine ⟨trivial, fun _ _ _ => ⟨trivial, fun generation _ _ => ?_⟩⟩
    show Keeps (if previous + 1 ≠ generation then _ else _) _ _ _
    split
    · exact ⟨trivial, fun _ _ _ => trivial⟩
    · exact ⟨trivial, fun _ _ _ => ⟨trivial, fun _ _ _ => trivial⟩⟩

theorem keeps_invalidateDetection : Ends invalidateDetection {} :=
  ⟨trivial, fun _ _ _ => ⟨trivial, fun _ _ _ => ⟨trivial, fun _ _ _ =>
    ⟨rfl, fun _ _ _ => ⟨trivial, fun _ _ _ => trivial⟩⟩⟩⟩⟩

theorem keeps_managementChannel_bind {gateway : String} {mode : InstallMode}
    {adb serial : Option String}
    {f : Channel → Command Unit} (hc : c.Over) (hf : ∀ channel, Closes (f channel) c) :
    Closes (managementChannel gateway mode adb serial >>= f) c := by
  rw [Closes, Keeps, wpExcept_bind]
  cases mode with
  | unlock => exact hc
  | adb =>
    refine keeps_okOr_bind (fun executable _ => ?_) hc
    exact keeps_okOr_bind (fun serial _ => hf _) hc
  | ssh => exact keeps_ask (fun channel => hf channel) fun _ => hc

/-- An operation that clears the check may end. -/
theorem Ctx.Fresh.cleared (h : c.Fresh) (w : World) :
    (c.after (.setChecked none) () w).Over ∧ (c.after (.setChecked none) () w).saved =
      .cleared := by
  have hafter : c.after (.setChecked none) () w = { c with saved := .cleared } := if_pos h.runs
  rw [hafter]
  exact ⟨⟨h.runs, .inr rfl⟩, rfl⟩

/-- What an operation has read of the detection does not matter to its end. -/
theorem Ctx.Fresh.seen (h : c.Fresh) (id : Option String) : Ctx.Fresh { c with seen := id } :=
  ⟨h.runs, h.saved⟩

theorem keeps_recover (detectionId transactionId : String) (hc : c.Fresh) :
    Closes (recover detectionId transactionId) c := by
  refine keeps_loadDetection_bind fun found => ?_
  have hfresh := hc.seen (found.map DetectionSnapshot.id)
  refine keeps_okOr_bind (fun snapshot _ => ?_) hfresh.over
  show Keeps (if snapshot.id ≠ detectionId then _ else _) _ _ _
  split
  · exact hfresh.over
  · refine keeps_okOr_bind (fun identity _ => ?_) hfresh.over
    refine keeps_okOr_bind (fun mode _ => ?_) hfresh.over
    refine keeps_managementChannel_bind hfresh.over fun channel => ?_
    refine keeps_ask_bind (fun _ => ?_) fun _ => hfresh.over
    refine ⟨trivial, fun result _ _ => ⟨trivial, fun joined _ _ => ?_⟩⟩
    cases joined with
    | error e => exact hfresh.over
    | ok a =>
      refine keeps_storeDetection_bind ⟨hfresh.saved, fun _ w _ => ?_⟩
      exact keeps_fromResult (fun _ _ => (hfresh.cleared w).1) fun _ => (hfresh.cleared w).1

/-! ### `run_install` -/

variable {request : InstallRequest}

/-- What a run has read before `perform_install` is called. -/
theorem keeps_loadPlan_bind {snapshot : DetectionSnapshot}
    {f : DetectionSnapshot × Option String → Command InstallOutcome} (hc : c.Fresh)
    (hf : ∀ (c' : Ctx) (plan : DetectionSnapshot) (pinnedRelease : Option String), c'.Fresh →
      c'.seen = c.seen → c'.Holds request plan.identity pinnedRelease →
      (request.dryRun = false → plan.identity.isSome = true ∧ pinnedRelease.isSome = true) →
      Closes (f (plan, pinnedRelease)) c') :
    Closes (loadPlan request snapshot >>= f) c := by
  rw [Closes, Keeps, wpExcept_bind]
  unfold loadPlan
  split
  · rename_i hdry
    refine hf c snapshot none hc rfl (fun h => ?_) fun h => ?_
    · rw [hdry] at h
      cases h
    · rw [hdry] at h
      cases h
  · rename_i hdry
    have hno : request.dryRun = false := by simpa using hdry
    refine ⟨⟨hc.runs, hc.saved⟩, fun checked _ _ => ?_⟩
    show Keeps (if checked ≠ some request.checkedRequest then _ else _) _ _ _
    split
    · exact ⟨hc.runs, .inl hc.saved⟩
    · rename_i hsame
      have hchecked : checked = some request := by
        simpa [checkedRequest_of_install hno] using hsame
      subst hchecked
      refine ⟨⟨hc.runs, hc.saved⟩, fun identity _ hidentity => ?_⟩
      refine ⟨⟨hc.runs, hc.saved⟩, fun pinnedRelease _ hpinned => ?_⟩
      exact hf _ { snapshot with identity } pinnedRelease ⟨hc.runs, hc.saved⟩ rfl
        (fun _ => ⟨rfl, rfl, rfl⟩) fun _ => ⟨hidentity rfl, hpinned rfl⟩

theorem keeps_diagnosticPath_bind {α : Type} {f : Option String → Program Call α} {Q : Ctx → α →
    Prop}
    (hf : ∀ path, regime.discipline.wp (f path) Q c) :
    regime.discipline.wp (diagnosticPath request >>= f) Q c := by
  rw [Discipline.wp_bind]
  unfold diagnosticPath
  split
  · exact ⟨trivial, fun path _ _ => hf _⟩
  · exact hf none

theorem keeps_work {snapshot : DetectionSnapshot} {pinnedRelease : Option String}
    (hc : c.Holds request snapshot.identity pinnedRelease)
    (hpinned : request.dryRun = false → pinnedRelease.isSome = true) :
    Keeps (work request snapshot pinnedRelease) (Returned request c) (Failed c) c := by
  refine keeps_ask_bind (fun _ => ?_) fun _ => rfl
  show regime.discipline.wp ((performInstall request snapshot pinnedRelease).run >>= _) _ _
  rw [Discipline.wp_bind]
  refine regime.discipline.wp_mono (keeps_performInstall hc hpinned) fun c' result hresult => ?_
  refine keeps_diagnosticPath_bind fun path => ?_
  cases result with
  | ok outcome => exact hresult
  | error e => exact hresult

/-- What is left of `run_install` when identity and release are saved. -/
theorem keeps_setDashboardUrl {outcome : InstallOutcome} (hc : c.Over) :
    Closes (if outcome.result = "success" then do
      Call.setDashboardUrl outcome.dashboardUrl
      return outcome
    else return outcome) c := by
  split
  · exact ⟨trivial, fun _ _ _ => hc⟩
  · exact hc

/-- Identity and release of an installation are saved when there is no check any more. -/
theorem keeps_saveOutcome_cleared {outcome : InstallOutcome} (hruns : c.runs = true)
    (hsaved : c.saved = .cleared) : Closes (saveOutcome outcome) c := by
  refine ⟨⟨hruns, .inl hsaved⟩, fun _ w _ => ?_⟩
  have hidentity : c.after (.setCheckedIdentity outcome.verifiedIdentity) () w = c.forget := by
    simp only [Ctx.after, hsaved]
  have hrelease : ∀ w', c.forget.after (.setCheckedRelease (some outcome.release)) () w' =
    c.forget := by
    intro w'
    simp only [Ctx.after, Ctx.forget, hsaved]
  refine ⟨?_, fun _ w' _ => keeps_setDashboardUrl ?_⟩
  · show (c.after (.setCheckedIdentity outcome.verifiedIdentity) () w).allows
      (.setCheckedRelease (some outcome.release))
    rw [hidentity]
    exact ⟨hruns, .inl hsaved⟩
  · show ((c.after (.setCheckedIdentity outcome.verifiedIdentity) () w).after
      (.setCheckedRelease (some outcome.release)) () w').Over
    rw [hidentity, hrelease]
    exact ⟨hruns, .inr hsaved⟩

/-- Identity and release of a dry run are saved behind the check they belong to. -/
theorem keeps_saveOutcome_request {outcome : InstallOutcome} {r : InstallRequest} {i : Identity}
    (hruns : c.runs = true) (hsaved : c.saved = .request r i outcome.release)
    (hverified : outcome.verifiedIdentity = some i) : Closes (saveOutcome outcome) c := by
  refine ⟨⟨hruns, .inr ⟨r, i, outcome.release, hsaved, hverified⟩⟩, fun _ w _ => ?_⟩
  have hidentity : c.after (.setCheckedIdentity outcome.verifiedIdentity) () w =
      { c.forget with saved := .identity r i outcome.release } := by
    simp only [Ctx.after, hsaved]
  refine ⟨?_, fun _ w' _ => keeps_setDashboardUrl ?_⟩
  · show (c.after (.setCheckedIdentity outcome.verifiedIdentity) () w).allows
      (.setCheckedRelease (some outcome.release))
    rw [hidentity]
    exact ⟨hruns, .inr ⟨r, i, outcome.release, rfl, rfl⟩⟩
  · show ((c.after (.setCheckedIdentity outcome.verifiedIdentity) () w).after
      (.setCheckedRelease (some outcome.release)) () w').Over
    rw [hidentity]
    exact ⟨hruns, .inl rfl⟩

/-- A dry run that succeeded is saved as the check. -/
theorem keeps_save_checked {outcome : InstallOutcome} {i : Identity} (hc : c.Fresh)
    (hdry : request.dryRun = true) (hverified : outcome.verifiedIdentity = some i)
    (hresult : c.result = some (request.checkedRequest, i, outcome.release)) :
    Closes (save request (.ok outcome)) c := by
  rw [Closes, Keeps, save, wpExcept_bind]
  have hsave : saveChecked request (Except.isOk (Except.ok outcome : Except InstallerError
    InstallOutcome)) =
      Call.setChecked (some request.checkedRequest) := by
    simp [saveChecked, hdry, Except.isOk, Except.toBool]
  rw [hsave]
  refine ⟨⟨hc.runs, hc.saved, i, outcome.release, hresult⟩, fun _ w _ => ?_⟩
  have hafter : c.after (.setChecked (some request.checkedRequest)) () w =
      { c with saved := .request request.checkedRequest i outcome.release } := by
    simp only [Ctx.after, hresult]
  show Keeps (clearDetection request >>= fun _ => saveOutcome outcome) _ _
    (c.after (.setChecked (some request.checkedRequest)) () w)
  rw [hafter, clearDetection, if_pos hdry]
  exact keeps_saveOutcome_request (r := request.checkedRequest) hc.runs rfl hverified

/-- Any other result leaves no check. -/
theorem keeps_save_cleared {result : Except InstallerError InstallOutcome} (hc : c.Fresh)
    (hno : (request.dryRun && result.isOk) = false) : Closes (save request result) c := by
  have hsave : saveChecked request result.isOk = Call.setChecked none := by
    unfold saveChecked
    rw [hno]
    rfl
  unfold save
  rw [Closes, Keeps, wpExcept_bind, hsave]
  refine ⟨hc.saved, fun _ w _ => ?_⟩
  obtain ⟨hover, hcleared⟩ := hc.cleared w
  have hrest : ∀ c' : Ctx, c'.Over → c'.saved = .cleared → Closes (saveResult result) c' := by
    intro c' hc' hsaved
    cases result with
    | ok outcome => exact keeps_saveOutcome_cleared hc'.1 hsaved
    | error e => exact hc'
  unfold clearDetection
  split
  · exact hrest _ hover hcleared
  · exact keeps_storeDetection_bind (hrest _ hover hcleared)

/-- The result of `perform_install` is saved: as a check, or as the end of every check. -/
theorem keeps_arrived {result : Except InstallerError InstallOutcome} (hc : c.Fresh)
    (hseen : c.seen = some request.detectionId)
    (hresult : ∀ outcome, result = .ok outcome → request.dryRun = true →
      outcome.verifiedIdentity.isSome = true) :
    Closes (do
      Call.arrives request result
      save request result) c := by
  refine ⟨⟨hc.runs, hc.saved, hseen⟩, fun _ w _ => ?_⟩
  show Keeps (save request result) _ _ (c.after (.arrives request result) () w)
  cases hyes : request.dryRun && result.isOk with
  | true =>
    obtain ⟨hdry, hok⟩ := (Bool.and_eq_true _ _).mp hyes
    cases result with
    | error e => cases hok
    | ok outcome =>
      obtain ⟨i, hi⟩ := Option.isSome_iff_exists.mp (hresult outcome rfl hdry)
      have hafter : c.after (.arrives request (.ok outcome)) () w =
          { c with result := some (request.checkedRequest, i, outcome.release) } := by
        simp only [Ctx.after, noteOf, hdry, hi]
      rw [hafter]
      exact keeps_save_checked ⟨hc.runs, hc.saved⟩ hdry hi rfl
  | false =>
    have hnone : noteOf request result = [] := by
      cases result with
      | error e => rfl
      | ok outcome =>
        have hdry : request.dryRun = false := by
          simpa [Except.isOk, Except.toBool] using hyes
        simp only [noteOf, hdry]
    have hafter : c.after (.arrives request result) () w = c := by
      simp only [Ctx.after, hnone]
    rw [hafter]
    exact keeps_save_cleared hc hyes

/-- The detection a request names is the one that was loaded. -/
theorem detectionId_of_valid {snapshot : DetectionSnapshot} {u : Unit}
    (h : validateInstallRequest request snapshot = .ok u) : request.detectionId = snapshot.id := by
  unfold validateInstallRequest at h
  by_contra hne
  rw [if_pos (.inl hne)] at h
  cases h

theorem keeps_runPlan (hc : c.Fresh) : Closes (runPlan request) c := by
  refine keeps_loadDetection_bind fun found => ?_
  have hfresh := hc.seen (found.map DetectionSnapshot.id)
  refine keeps_okOr_bind (fun snapshot hsnapshot => ?_) hfresh.over
  refine keeps_fromResult_bind (fun _ hvalid => ?_) fun _ => hfresh.over
  refine keeps_loadPlan_bind hfresh fun c' plan pinnedRelease hc' hseen hplan hsome => ?_
  refine ⟨fun hdry => ?_, fun _ _ _ => ?_⟩
  · obtain ⟨hchecked, hidentity, hrelease⟩ := hplan hdry
    exact ⟨hchecked, hidentity, hrelease, hsome hdry⟩
  · show Keeps (resultOf (work request plan pinnedRelease) >>= _) _ _ c'
    refine keeps_resultOf_bind (keeps_work hplan fun hdry => (hsome hdry).2)
      fun c'' result hresult => ?_
    have hsame : c'' = c' := by
      cases result with
      | ok outcome => exact hresult.1
      | error e => exact hresult
    subst hsame
    refine ⟨trivial, fun joined _ _ => ?_⟩
    cases joined with
    | error e => exact hc'.over
    | ok a =>
      refine keeps_arrived hc' ?_ fun outcome hok hdry => ?_
      · show c''.seen = some request.detectionId
        rw [hseen, hsnapshot]
        exact congrArg some (detectionId_of_valid hvalid).symm
      · subst hok
        exact hresult.2 hdry

theorem program_keeps : regime.Bodies := by
  intro body c hc
  obtain rfl : c = {} := hc
  have hstop : ∀ {α : Type} {command : Command α}, Ends command {} →
      regime.discipline.wp (command.run >>= fun _ => pure (Next.stop : Next Body)) regime.ends
        {} := by
    intro α command hends
    rw [Discipline.wp_bind]
    exact regime.discipline.wp_mono hends fun _ _ _ => trivial
  cases body with
  | detectDevice request => exact hstop (keeps_detectDevice request)
  | invalidateDetection => exact hstop keeps_invalidateDetection
  | recoverDevice detectionId transactionId =>
    refine hstop (keeps_requireNormalMode_bind (keeps_guarded fun c hc => ?_))
    subst hc
    exact keeps_recover detectionId transactionId ⟨rfl, rfl⟩
  | runInstall request =>
    refine hstop (keeps_requireNormalMode_bind (keeps_guarded fun c hc => ?_))
    subst hc
    exact keeps_runPlan ⟨rfl, rfl⟩

end Commands

/-! ### The invariant -/

/-- The identity and the release that are saved are those of a dry run of this request. -/
def Backed (w : World) (request : InstallRequest) : Prop :=
  ∃ i t, w.checkedIdentity = some i ∧ w.checkedRelease = some t ∧ checkedIn request i t w.log = true

/-- What was saved so far belongs to one dry run. -/
def Saved.Sane (w : World) : Saved → Prop
  | .nothing => True
  | .request r i t => (∀ x, w.checked = some x → x = r) ∧ checkedIn r i t w.log = true
  | .identity r i t => (∀ x, w.checked = some x → x = r) ∧ checkedIn r i t w.log = true ∧
    w.checkedIdentity = some i
  | .cleared => w.checked = none

/-- What a thread's record says of the state and the notes. -/
structure Sane (w : World) (c : Ctx) : Prop where
  seen : ∀ id, c.seen = some id → detectedIn id w.log = true
  plan : ∀ r, c.plan = some r → c.runs = true ∧ Backed w r
  identity : ∀ i, c.identity = some i → c.runs = true ∧ w.checkedIdentity = some i
  release : ∀ t, c.release = some t → c.runs = true ∧ w.checkedRelease = some t
  result : ∀ r i t, c.result = some (r, i, t) → checkedIn r i t w.log = true
  saved : c.saved ≠ .nothing → c.runs = true
  stage : c.saved.Sane w

/-- At most one operation runs; a check that is complete is backed by a dry run, and every
device-changing run by a check. -/
structure Sound (w : World) (cs : List Ctx) : Prop where
  operation : Exclusive w.running Ctx.runs cs
  sane : ∀ c ∈ cs, Sane w c
  detection : ∀ s, w.detection = some s → detectedIn s.id w.log = true
  checked : ∀ r, w.checked = some r → (∀ c ∈ cs, c.saved = .nothing) → Backed w r
  log : Each Note.Checked w.log

/-- More notes, and no other identity or release. -/
theorem Backed.frame {w w' : World} {request : InstallRequest} {l : List Note}
    (h : Backed w request)
    (hlog : w'.log = l ++ w.log) (hidentity : w'.checkedIdentity = w.checkedIdentity)
    (hrelease : w'.checkedRelease = w.checkedRelease) : Backed w' request := by
  obtain ⟨i, t, hi, ht, hchecked⟩ := h
  refine ⟨i, t, hidentity.trans hi, hrelease.trans ht, ?_⟩
  rw [hlog]
  exact checkedIn_append l hchecked

/-- A record in a world where the notes go on. What a running operation has read or saved of the
check is not written by others, who can only clear it. -/
theorem Sane.frame {w w' : World} {c : Ctx} {l : List Note} (h : Sane w c)
    (hlog : w'.log = l ++ w.log)
    (hcheck : c.runs = true → w'.checkedIdentity = w.checkedIdentity ∧
      w'.checkedRelease = w.checkedRelease ∧ (w'.checked = w.checked ∨ w'.checked = none)) :
    Sane w' c where
  seen id hid := by
    rw [hlog]
    exact detectedIn_append l (h.seen id hid)
  plan r hr := by
    obtain ⟨hruns, hbacked⟩ := h.plan r hr
    obtain ⟨hidentity, hrelease, -⟩ := hcheck hruns
    exact ⟨hruns, hbacked.frame hlog hidentity hrelease⟩
  identity i hi := by
    obtain ⟨hruns, hsame⟩ := h.identity i hi
    exact ⟨hruns, (hcheck hruns).1.trans hsame⟩
  release t ht := by
    obtain ⟨hruns, hsame⟩ := h.release t ht
    exact ⟨hruns, (hcheck hruns).2.1.trans hsame⟩
  result r i t hr := by
    rw [hlog]
    exact checkedIn_append l (h.result r i t hr)
  saved := h.saved
  stage := by
    have hstage := h.stage
    cases hs : c.saved with
    | nothing => trivial
    | cleared =>
      rw [hs] at hstage
      rcases (hcheck (h.saved (by simp [hs]))).2.2 with hsame | hnone
      · exact hsame.trans hstage
      · exact hnone
    | request r i t =>
      rw [hs] at hstage
      refine ⟨fun x hx => ?_, ?_⟩
      · rcases (hcheck (h.saved (by simp [hs]))).2.2 with hsame | hnone
        · exact hstage.1 x (hsame.symm.trans hx)
        · rw [hnone] at hx
          cases hx
      · rw [hlog]
        exact checkedIn_append l hstage.2
    | identity r i t =>
      rw [hs] at hstage
      have hkept := hcheck (h.saved (by simp [hs]))
      refine ⟨fun x hx => ?_, ?_, hkept.1.trans hstage.2.2⟩
      · rcases hkept.2.2 with hsame | hnone
        · exact hstage.1 x (hsame.symm.trans hx)
        · rw [hnone] at hx
          cases hx
      · rw [hlog]
        exact checkedIn_append l hstage.2.1

/-- A thread that has just been started. -/
theorem sane_new (w : World) : Sane w {} where
  seen _ h := by cases h
  plan _ h := by cases h
  identity _ h := by cases h
  release _ h := by cases h
  result _ _ _ h := by cases h
  saved h := absurd rfl h
  stage := trivial

/-- An operation that has just been started. -/
theorem sane_running (w : World) : Sane w { runs := true } where
  seen _ h := by cases h
  plan _ h := by cases h
  identity _ h := by cases h
  release _ h := by cases h
  result _ _ _ h := by cases h
  saved _ := rfl
  stage := trivial

section Step

variable {w w' : World} {cs : List Ctx} {i : Nat} {c c' : Ctx} {l : List Note}

/-- The records after a step. A step of the running operation is not seen by the others, which have
read nothing of the check; any other step leaves the check as it is, or clears it. -/
theorem Sound.others (h : Sound w cs) (hc : cs[i]? = some c) (hself : Sane w' c')
    (hlog : w'.log = l ++ w.log)
    (hcheck : c.runs = false → w'.checkedIdentity = w.checkedIdentity ∧
      w'.checkedRelease = w.checkedRelease ∧ (w'.checked = w.checked ∨ w'.checked = none)) :
    ∀ x ∈ cs.set i c' ++ [], Sane w' x := by
  intro x hx
  rcases Pool.mem_update hx with rfl | ⟨j, hj, hxj⟩ | hnew
  · exact hself
  · refine (h.sane x (List.mem_of_getElem? hxj)).frame hlog fun hruns => hcheck ?_
    by_contra hne
    have hno := Pool.others_not h.operation.once hc (by simpa using hne) hj hxj
    rw [hruns] at hno
    cases hno
  · cases hnew

/-- No thread is about to save its result, neither before the step nor after it. -/
theorem saved_before (hc : cs[i]? = some c) (hsaved : c'.saved = c.saved)
    (h : ∀ x ∈ cs.set i c' ++ [], x.saved = .nothing) : ∀ x ∈ cs, x.saved = .nothing := by
  by_contra hne
  push Not at hne
  have hkeep : c.saved ≠ .nothing → c'.saved ≠ .nothing := fun hs => by rwa [hsaved]
  have hafter : ∃ x ∈ cs.set i c' ++ [], x.saved ≠ .nothing := Pool.exists_update hc hkeep hne
  obtain ⟨x, hx, hxs⟩ := hafter
  exact hxs (h x hx)

/-- A step that leaves the operation and the check as they are. -/
theorem Sound.keep (h : Sound w cs) (hc : cs[i]? = some c) (hself : Sane w' c')
    (hruns : c'.runs = c.runs) (hsaved : c'.saved = c.saved) (hrunning : w'.running = w.running)
    (hidentity : w'.checkedIdentity = w.checkedIdentity)
    (hrelease : w'.checkedRelease = w.checkedRelease) (hchecked : w'.checked = w.checked)
    (hlog : w'.log = l ++ w.log) (hnotes : Each Note.Checked w'.log)
    (hdetection : ∀ s, w'.detection = some s → detectedIn s.id w'.log = true) :
    Sound w' (cs.set i c' ++ []) where
  operation := by
    rw [hrunning]
    exact h.operation.keep hc hruns (by simp)
  sane := h.others hc hself hlog fun _ => ⟨hidentity, hrelease, .inl hchecked⟩
  detection := hdetection
  checked r hr hall := by
    rw [hchecked] at hr
    exact (h.checked r hr (saved_before hc hsaved hall)).frame hlog hidentity hrelease
  log := hnotes

/-- A step that only moves the thread. -/
theorem Sound.move (h : Sound w cs) (hc : cs[i]? = some c) (hself : Sane w c')
    (hruns : c'.runs = c.runs) (hsaved : c'.saved = c.saved) : Sound w (cs.set i c' ++ []) :=
  h.keep (l := []) hc hself hruns hsaved rfl rfl rfl rfl rfl h.log h.detection

/-- A step that changes nothing the invariant speaks of. -/
theorem Sound.still (h : Sound w cs) (hc : cs[i]? = some c)
    (hw : w' = { w with
      held := w'.held
      detectionGeneration := w'.detectionGeneration
      dashboardUrl := w'.dashboardUrl }) : Sound w' (cs.set i c ++ []) := by
  have hsame : w'.running = w.running ∧ w'.checkedIdentity = w.checkedIdentity ∧
      w'.checkedRelease = w.checkedRelease ∧ w'.checked = w.checked ∧ w'.log = w.log ∧
      w'.detection = w.detection := by
    rw [hw]
    exact ⟨rfl, rfl, rfl, rfl, rfl, rfl⟩
  obtain ⟨hrunning, hidentity, hrelease, hchecked, hlog, hdetection⟩ := hsame
  have hself : Sane w' c := (h.sane c (List.mem_of_getElem? hc)).frame (l := []) hlog
    fun _ => ⟨hidentity, hrelease, .inl hchecked⟩
  refine h.keep (l := []) hc hself rfl rfl hrunning hidentity hrelease hchecked hlog ?_ ?_
  · rw [hlog]
    exact h.log
  · rw [hlog, hdetection]
    exact h.detection

/-- A step that adds notes, and leaves the rest. -/
theorem Sound.noted (h : Sound w cs) (hc : cs[i]? = some c)
    (hself : Sane { w with log := l ++ w.log } c') (hruns : c'.runs = c.runs)
    (hsaved : c'.saved = c.saved) (hnotes : Each Note.Checked (l ++ w.log)) :
    Sound { w with log := l ++ w.log } (cs.set i c' ++ []) :=
  h.keep hc hself hruns hsaved rfl rfl rfl rfl rfl hnotes
    fun s hs => detectedIn_append l (h.detection s hs)

/-- The running operation, if any, has not begun to save. -/
theorem Sound.idle (h : Sound w cs) (hc : cs[i]? = some c) (hruns : c.runs = true)
    (hsaved : c.saved = .nothing) : ∀ x ∈ cs, x.saved = .nothing := by
  intro x hx
  obtain ⟨j, hj⟩ := List.mem_iff_getElem?.mp hx
  by_cases hij : j = i
  · subst hij
    rw [hj] at hc
    cases hc
    exact hsaved
  · by_contra hne
    have hno := Pool.others_not h.operation.once hc hruns hij hj
    rw [(h.sane x hx).saved hne] at hno
    cases hno

/-- A check that the running operation reads is backed. -/
theorem Sound.backed (h : Sound w cs) (hc : cs[i]? = some c) (hruns : c.runs = true)
    (hsaved : c.saved = .nothing) {r : InstallRequest} (hr : w.checked = some r) : Backed w r :=
  h.checked r hr (h.idle hc hruns hsaved)

/-- An operation starts, or finds another one running. -/
theorem sound_swapRunning (h : Sound w cs) (hc : cs[i]? = some {}) :
    Sound { w with running := true } (cs.set i (Ctx.after {} .swapRunning w.running w) ++ []) := by
  cases hr : w.running with
  | true =>
    have hw : { w with running := true } = w := by rw [← hr]
    rw [hw]
    exact h.move hc (h.sane _ (List.mem_of_getElem? hc)) rfl rfl
  | false =>
    have hop := h.operation
    rw [hr] at hop
    have hself := sane_running { w with running := true }
    refine ⟨hop.take hc, ?_, h.detection, ?_, h.log⟩
    · exact h.others (l := []) hc hself rfl fun _ => ⟨rfl, rfl, .inl rfl⟩
    · intro r hr' hall
      exact h.checked r hr' (saved_before hc (rfl : ({ runs := true } : Ctx).saved = _) hall)

/-- An operation ends when all it saved belongs together. -/
theorem sound_finish (h : Sound w cs) (hc : cs[i]? = some c) (hover : c.Over) :
    Sound { w with running := false } (cs.set i {} ++ []) := by
  refine ⟨h.operation.release hc hover.1 rfl, ?_, h.detection, ?_, h.log⟩
  · exact h.others (l := []) hc (sane_new _) rfl fun _ => ⟨rfl, rfl, .inl rfl⟩
  · intro r hr hall
    rcases hover.2 with hnothing | hcleared
    · exact h.checked r hr (saved_before hc hnothing.symm hall)
    · have hstage := (h.sane c (List.mem_of_getElem? hc)).stage
      rw [hcleared] at hstage
      have hnone : w.checked = none := hstage
      rw [hnone] at hr
      cases hr

/-- The check is cleared. -/
theorem sound_setChecked_none (h : Sound w cs) (hc : cs[i]? = some c) :
    Sound { w with checked := none } (cs.set i (c.after (.setChecked none) () w) ++ []) := by
  have hsane := h.sane c (List.mem_of_getElem? hc)
  have hkept : Sane { w with checked := none } c :=
    hsane.frame (l := []) rfl fun _ => ⟨rfl, rfl, .inr rfl⟩
  have hafter : (c.after (.setChecked none) () w).runs = c.runs ∧
      Sane { w with checked := none } (c.after (.setChecked none) () w) := by
    show (if c.runs then ({ c with saved := .cleared } : Ctx) else c).runs = c.runs ∧
      Sane _ (if c.runs then { c with saved := .cleared } else c)
    split
    · rename_i hruns
      exact ⟨rfl, hkept.seen, hkept.plan, hkept.identity, hkept.release, hkept.result,
        fun _ => hruns, rfl⟩
    · exact ⟨rfl, hkept⟩
  refine ⟨h.operation.keep hc hafter.1 (by simp), ?_, h.detection, fun r hr => ?_, h.log⟩
  · exact h.others (l := []) hc hafter.2 rfl fun _ => ⟨rfl, rfl, .inr rfl⟩
  · cases hr

/-- The running operation writes the check, its identity or its release. -/
theorem Sound.write (h : Sound w cs) (hc : cs[i]? = some c) (hruns : c.runs = true)
    (hself : Sane w' c') (hruns' : c'.runs = true)
    (hw : w' = { w with
      checked := w'.checked
      checkedIdentity := w'.checkedIdentity
      checkedRelease := w'.checkedRelease })
    (hchecked : ∀ r, w'.checked = some r → c'.saved = .nothing → Backed w' r) :
    Sound w' (cs.set i c' ++ []) := by
  have hsame : w'.running = w.running ∧ w'.log = w.log ∧ w'.detection = w.detection := by
    rw [hw]
    exact ⟨rfl, rfl, rfl⟩
  obtain ⟨hrunning, hlog, hdetection⟩ := hsame
  constructor
  · rw [hrunning]
    exact h.operation.keep hc (hruns'.trans hruns.symm) (by simp)
  · refine h.others (l := []) hc hself hlog fun hno => ?_
    rw [hruns] at hno
    cases hno
  · rw [hdetection, hlog]
    exact h.detection
  · intro r hr hall
    exact hchecked r hr (hall c' (Pool.self_mem hc))
  · rw [hlog]
    exact h.log

/-- The check of a dry run that succeeded is written, before its identity and its release. -/
theorem sound_setChecked_some (h : Sound w cs) (hc : cs[i]? = some c) {r : InstallRequest}
    {identity : Identity} {release : String} (hruns : c.runs = true)
    (hresult : c.result = some (r, identity, release)) :
    Sound { w with checked := some r } (cs.set i (c.after (.setChecked (some r)) () w) ++ []) := by
  have hsane := h.sane c (List.mem_of_getElem? hc)
  have hafter : c.after (.setChecked (some r)) () w =
    { c with saved := .request r identity release } := by
    simp only [Ctx.after, hresult]
  rw [hafter]
  have hself : Sane { w with checked := some r } { c with saved := .request r identity release } :=
    ⟨hsane.seen, hsane.plan, hsane.identity, hsane.release, hsane.result, fun _ => hruns,
      fun x hx => (Option.some.inj hx).symm, hsane.result r identity release hresult⟩
  exact h.write hc hruns hself hruns rfl fun x _ hno => by cases hno

/-- What a record says when it has forgotten what it read of the check. -/
theorem Sane.forget (h : Sane w c) {w' : World} {saved : Saved} (hlog : w'.log = w.log)
    (hruns : c.runs = true) (hstage : saved.Sane w') :
      Sane w' { c.forget with saved := saved } where
  seen id hid := by
    rw [hlog]
    exact h.seen id hid
  plan _ hr := by cases hr
  identity _ hi := by cases hi
  release _ ht := by cases ht
  result r j t hr := by
    rw [hlog]
    exact h.result r j t hr
  saved _ := hruns
  stage := hstage

/-- The identity is saved: behind the check it belongs to, or when there is none. -/
theorem sound_setCheckedIdentity (h : Sound w cs) (hc : cs[i]? = some c) {value : Option Identity}
    (hok : c.allows (.setCheckedIdentity value)) :
    Sound { w with checkedIdentity := value }
      (cs.set i (c.after (.setCheckedIdentity value) () w) ++ []) := by
  obtain ⟨hruns, hsaved⟩ := hok
  have hsane := h.sane c (List.mem_of_getElem? hc)
  have hstage := hsane.stage
  rcases hsaved with hcleared | ⟨r, identity, release, hrequest, rfl⟩
  · have hafter : c.after (.setCheckedIdentity value) () w =
      { c.forget with saved := .cleared } := by
      simp only [Ctx.after, hcleared, Ctx.forget]
    rw [hcleared] at hstage
    have hnone : w.checked = none := hstage
    rw [hafter]
    refine h.write hc hruns (hsane.forget rfl hruns hnone) hruns rfl fun x hx _ => ?_
    rw [hnone] at hx
    cases hx
  · have hafter : c.after (.setCheckedIdentity (some identity)) () w =
        { c.forget with saved := .identity r identity release } := by
      simp only [Ctx.after, hrequest]
    rw [hrequest] at hstage
    rw [hafter]
    exact h.write hc hruns (hsane.forget rfl hruns ⟨hstage.1, hstage.2, rfl⟩) hruns rfl
      fun x _ hno => by cases hno

/-- The release is saved: behind the check and the identity it belongs to, or when there is none. -/
theorem sound_setCheckedRelease (h : Sound w cs) (hc : cs[i]? = some c) {value : Option String}
    (hok : c.allows (.setCheckedRelease value)) :
    Sound { w with checkedRelease := value }
      (cs.set i (c.after (.setCheckedRelease value) () w) ++ []) := by
  obtain ⟨hruns, hsaved⟩ := hok
  have hsane := h.sane c (List.mem_of_getElem? hc)
  have hstage := hsane.stage
  rcases hsaved with hcleared | ⟨r, identity, release, hidentity, rfl⟩
  · have hafter : c.after (.setCheckedRelease value) () w =
      { c.forget with saved := .cleared } := by
      simp only [Ctx.after, hcleared, Ctx.forget]
    rw [hcleared] at hstage
    have hnone : w.checked = none := hstage
    rw [hafter]
    refine h.write hc hruns (hsane.forget rfl hruns hnone) hruns rfl fun x hx _ => ?_
    rw [hnone] at hx
    cases hx
  · have hafter : c.after (.setCheckedRelease (some release)) () w =
        { c.forget with saved := .nothing } := by
      simp only [Ctx.after, hidentity]
    rw [hidentity] at hstage
    rw [hafter]
    refine h.write hc hruns (hsane.forget rfl hruns trivial) hruns rfl fun x hx _ => ?_
    -- The three values are complete, and belong to one dry run.
    obtain ⟨hsame, hchecked, hverified⟩ := hstage
    obtain rfl : x = r := hsame x hx
    exact ⟨identity, release, hverified, rfl, hchecked⟩

/-- A detection is saved, or taken back. -/
theorem sound_setDetection (h : Sound w cs) (hc : cs[i]? = some c)
    (value : Option DetectionSnapshot) :
    Sound { w with
      detection := value
      log := (value.map fun s => Note.detected s.id).toList ++ w.log } (cs.set i c ++ []) := by
  have hself : Sane { w with
      detection := value
      log := (value.map fun s => Note.detected s.id).toList ++ w.log } c :=
    (h.sane c (List.mem_of_getElem? hc)).frame rfl fun _ => ⟨rfl, rfl, .inl rfl⟩
  refine h.keep hc hself rfl rfl rfl rfl rfl rfl rfl ?_ fun s hs => ?_
  · cases value with
    | none => exact h.log
    | some s => exact h.log.cons trivial
  · obtain rfl : value = some s := hs
    simp [detectedIn]

/-- A device-changing run is started from a check that is backed. -/
theorem sound_starts (h : Sound w cs) (hc : cs[i]? = some c) {request : InstallRequest}
    {identity : Option Identity} {release : Option String}
    (hok : c.allows (.starts request identity release)) :
    Sound (if request.dryRun then w else {
      w with log := .started request identity release :: w.log })
      (cs.set i c ++ []) := by
  have hsane := h.sane c (List.mem_of_getElem? hc)
  split
  · exact h.move hc hsane rfl rfl
  · rename_i hdry
    obtain ⟨hplan, rfl, rfl, hidentity, hrelease⟩ := hok (by simpa using hdry)
    obtain ⟨verified, hv⟩ := Option.isSome_iff_exists.mp hidentity
    obtain ⟨tag, ht⟩ := Option.isSome_iff_exists.mp hrelease
    obtain ⟨x, y, hx, hy, hchecked⟩ := (hsane.plan request hplan).2
    have hsame : x = verified := Option.some.inj (hx.symm.trans (hsane.identity verified hv).2)
    have hsame' : y = tag := Option.some.inj (hy.symm.trans (hsane.release tag ht).2)
    refine h.noted (l := [.started request c.identity c.release]) hc ?_ rfl rfl (h.log.cons ?_)
    · exact hsane.frame rfl fun _ => ⟨rfl, rfl, .inl rfl⟩
    · exact ⟨x, y, hsame ▸ hv, hsame' ▸ ht, hchecked⟩

/-- The modem is changed to what the check has verified. -/
theorem sound_changes (h : Sound w cs) (hc : cs[i]? = some c) {request : InstallRequest}
    {identity : Identity} {release : String} (hok : c.allows (.changes request identity release)) :
    Sound { w with log := .changed request identity release :: w.log } (cs.set i c ++ []) := by
  have hsane := h.sane c (List.mem_of_getElem? hc)
  obtain ⟨hplan, hidentity, hrelease⟩ := hok
  obtain ⟨x, y, hx, hy, hchecked⟩ := (hsane.plan request hplan).2
  obtain rfl : x = identity := Option.some.inj (hx.symm.trans (hsane.identity identity hidentity).2)
  obtain rfl : y = release := Option.some.inj (hy.symm.trans (hsane.release release hrelease).2)
  refine h.noted (l := [.changed request x y]) hc ?_ rfl rfl (h.log.cons hchecked)
  exact hsane.frame rfl fun _ => ⟨rfl, rfl, .inl rfl⟩

/-- A dry run succeeded: it went by the detection it names. -/
theorem sound_arrives (h : Sound w cs) (hc : cs[i]? = some c) {request : InstallRequest}
    {result : Except InstallerError InstallOutcome} (hok : c.allows (.arrives request result)) :
    Sound { w with log := noteOf request result ++ w.log }
      (cs.set i (c.after (.arrives request result) () w) ++ []) := by
  obtain ⟨-, -, hseen⟩ := hok
  have hsane := h.sane c (List.mem_of_getElem? hc)
  have hdetected := hsane.seen request.detectionId hseen
  have hframe : Sane { w with log := noteOf request result ++ w.log } c :=
    hsane.frame rfl fun _ => ⟨rfl, rfl, .inl rfl⟩
  have hcases : noteOf request result = [] ∨
      ∃ identity release, noteOf request result = [.checked request identity release] := by
    cases result with
    | error e => exact .inl rfl
    | ok outcome =>
      cases hdry : request.dryRun with
      | false => exact .inl (by simp only [noteOf, hdry])
      | true =>
        cases hv : outcome.verifiedIdentity with
        | none => exact .inl (by simp only [noteOf, hdry, hv])
        | some identity => exact .inr ⟨identity, outcome.release, by simp only [noteOf, hdry, hv]⟩
  rcases hcases with hnone | ⟨identity, release, hnote⟩
  · have hafter : c.after (.arrives request result) () w = c := by simp only [Ctx.after, hnone]
    rw [hafter]
    refine h.noted hc hframe rfl rfl ?_
    rw [hnone]
    exact h.log
  · have hafter : c.after (.arrives request result) () w =
        { c with result := some (request.checkedRequest, identity, release) } := by
      simp only [Ctx.after, hnote]
    rw [hafter]
    refine h.noted hc ?_ rfl rfl ?_
    · refine ⟨hframe.seen, hframe.plan, hframe.identity, hframe.release, ?_, hframe.saved,
        hframe.stage⟩
      intro r j t hr
      cases hr
      rw [hnote]
      simp [checkedIn, InstallRequest.checkedRequest, hdetected]
    · rw [hnote]
      exact h.log.cons trivial

/-- What the running operation reads of the check goes into its record. -/
theorem sound_checked (h : Sound w cs) (hc : cs[i]? = some c) (hruns : c.runs = true)
    (hsaved : c.saved = .nothing) : Sound w (cs.set i { c with plan := w.checked } ++ []) := by
  have hsane := h.sane c (List.mem_of_getElem? hc)
  refine h.move hc ?_ rfl rfl
  exact { hsane with plan := fun r hr => ⟨hruns, h.backed hc hruns hsaved hr⟩ }

theorem sound_checkedIdentity (h : Sound w cs) (hc : cs[i]? = some c) (hruns : c.runs = true) :
    Sound w (cs.set i { c with identity := w.checkedIdentity } ++ []) := by
  have hsane := h.sane c (List.mem_of_getElem? hc)
  exact h.move hc { hsane with identity := fun _ hi => ⟨hruns, hi⟩ } rfl rfl

theorem sound_checkedRelease (h : Sound w cs) (hc : cs[i]? = some c) (hruns : c.runs = true) :
    Sound w (cs.set i { c with release := w.checkedRelease } ++ []) := by
  have hsane := h.sane c (List.mem_of_getElem? hc)
  exact h.move hc { hsane with release := fun _ ht => ⟨hruns, ht⟩ } rfl rfl

/-- The detection a thread reads was saved. -/
theorem sound_detection (h : Sound w cs) (hc : cs[i]? = some c) :
    Sound w (cs.set i { c with seen := w.detection.map DetectionSnapshot.id } ++ []) := by
  have hsane := h.sane c (List.mem_of_getElem? hc)
  refine h.move hc { hsane with seen := fun id hid => ?_ } rfl rfl
  obtain ⟨s, hs, rfl⟩ := Option.map_eq_some_iff.mp hid
  exact h.detection s hs

/-- A check that was read comes with its identity and its release. -/
theorem learns_act {β : Type} {a : Call β} {r : β} {e : Input} (h : Sane w c)
    (he : exec a c e w = some (r, w')) : c.learns a r := by
  cases a with
  | checkedIdentity =>
    cases he
    intro hplan
    obtain ⟨request, hrequest⟩ := Option.isSome_iff_exists.mp hplan
    obtain ⟨identity, _, hidentity, -, -⟩ := (h.plan request hrequest).2
    rw [hidentity]
    rfl
  | checkedRelease =>
    cases he
    intro hplan
    obtain ⟨request, hrequest⟩ := Option.isSome_iff_exists.mp hplan
    obtain ⟨_, release, -, hrelease, -⟩ := (h.plan request hrequest).2
    rw [hrelease]
    rfl
  | _ => trivial

/-- Every allowed action keeps the invariant. -/
theorem sound_act {β : Type} {a : Call β} {r : β} {e : Input} (h : Sound w cs)
    (hc : cs[i]? = some c)
    (hok : c.allows a) (he : exec a c e w = some (r, w')) :
    Sound w' (cs.set i (c.after a r w) ++ []) := by
  cases a with
  | ask question =>
    cases he
    exact h.still hc rfl
  | startupCheck =>
    cases he
    exact h.still hc rfl
  | loadRunning =>
    cases he
    exact h.still hc rfl
  | swapRunning =>
    cases he
    obtain rfl : c = {} := hok
    exact sound_swapRunning h hc
  | finish =>
    cases he
    exact sound_finish h hc hok
  | lockDetection =>
    simp only [exec] at he
    split at he
    · cases he
    · cases he
      exact h.still hc rfl
  | unlockDetection =>
    cases he
    exact h.still hc rfl
  | detection =>
    cases he
    exact sound_detection h hc
  | setDetection value =>
    cases he
    exact sound_setDetection h hc value
  | fetchAddGeneration =>
    cases he
    exact h.still hc rfl
  | loadGeneration =>
    cases he
    exact h.still hc rfl
  | checked =>
    cases he
    exact sound_checked h hc hok.1 hok.2
  | setChecked value =>
    cases he
    cases value with
    | none => exact sound_setChecked_none h hc
    | some request =>
      obtain ⟨hruns, -, identity, release, hresult⟩ := hok
      exact sound_setChecked_some h hc hruns hresult
  | checkedIdentity =>
    cases he
    exact sound_checkedIdentity h hc hok.1
  | setCheckedIdentity value =>
    cases he
    exact sound_setCheckedIdentity h hc hok
  | checkedRelease =>
    cases he
    exact sound_checkedRelease h hc hok.1
  | setCheckedRelease value =>
    cases he
    exact sound_setCheckedRelease h hc hok
  | setDashboardUrl value =>
    cases he
    exact h.still hc rfl
  | starts request identity release =>
    cases he
    exact sound_starts h hc hok
  | changes request identity release =>
    cases he
    exact sound_changes h hc hok
  | arrives request result =>
    cases he
    exact sound_arrives h hc hok

end Step

/-- The invariant holds in every run, under any condition. -/
theorem run_sound {K : Condition Call Ctx World Input Body} {startupCheck : Bool}
    {s : State Call Ctx World Body} (h : installer.Run K (initial startupCheck) s) :
    Sound s.world s.ctxs := by
  refine (Machine.sound regime (I := Sound) program_keeps ?_ ?_ ?_ (by simp [initial]) h).1
  · intro β w w' cs i c a e r hI hc hok _ he
    exact ⟨learns_act (hI.sane c (List.mem_of_getElem? hc)) he, by simp [installer],
      sound_act hI hc hok he⟩
  · intro w cs x o hI _ ho
    cases ho
    refine ⟨fun bc hbc => ?_, hI.operation.spawn (by simp), fun c hc => ?_, hI.detection,
      fun r hr hall => ?_, hI.log⟩
    · rw [List.mem_singleton.mp hbc]
      rfl
    · rcases List.mem_append.mp hc with hc | hc
      · exact hI.sane c hc
      · rw [List.mem_singleton.mp hc]
        exact sane_new w
    · exact hI.checked r hr fun c hc => hall c (List.mem_append_left _ hc)
  · refine ⟨.nil, by simp [initial, State.ctxs], fun s hs => (by cases hs),
      fun r hr => (by cases hr), trivial⟩

/-- A modem over SSH. -/
def someIdentity : Identity := { model := "ZTE MU5250", firmware := "B04", fingerprint := "f0" }

def someSnapshot : DetectionSnapshot where
  identity := some someIdentity
  id := "d1"
  gateway := "192.168.0.1"
  adbPath := none
  adbSerial := none
  mode := some .ssh
  operation := some .update
  ready := true

def someRequest (dryRun : Bool) : InstallRequest where
  detectionId := "d1"
  gateway := "192.168.0.1"
  adbSerial := none
  routerPassword := ""
  backupSuffix := ""
  agentPassword := "password"
  agentPasswordConfirmation := "password"
  agentPin := ""
  passwordAction := .replace
  pinAction := .remove
  dryRun := dryRun
  rebootAfter := false
  diagnosticMode := false
  bundlePath := none

/-- Everything succeeds. -/
def fortunate : Input where
  detection := .ok someSnapshot
  text := .ok "v1.4.0"
  identity := .ok someIdentity
  channel := .ok (.ssh "ssh" "192.168.0.1" "known_hosts")

/-- Turns of one thread on which everything goes well. -/
def fortunateTurns (thread count : Nat) : List (Event Input Body) :=
  List.replicate count (.thread thread fortunate)

/-- A detection, a dry run and an installation. -/
def installRun : List (Event Input Body) :=
  .outside (.detectDevice { gateway := "192.168.0.1", adbSerial := none }) ::
    (fortunateTurns 0 9 ++ .outside (.runInstall (someRequest true)) ::
      (fortunateTurns 1 23 ++ .outside (.runInstall (someRequest false)) ::
        fortunateTurns 2 36))

end OpenUI.Installer.Commands
