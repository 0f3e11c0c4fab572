import OpenUI.Proofs.Agent.Esim.Discipline

/-!
# `OpenUI.Proofs.Agent.Esim.Threads`: every thread of the manager keeps the rules

One theorem for each function that is a thread body or a handler, in the order of
`Manager.lean`: from the context the body starts with, every action on every path is allowed,
and the thread ends, or goes on with a body, in a context that body needs. Each proof follows
the function's own branches and uses the rules of the functions it calls.

* `keeps_main`, `keeps_switchAnswered`, `keeps_verifyLoop`, `keeps_settleLoop`, …: one body each.
* `handles_switch`, `handles_download`, `handles_nickname`, …: one handler each.
* `threadBody_keeps`: all threads.
-/

set_option autoImplicit false

namespace OpenUI.Agent.Esim

open OpenUI.Json OpenUI.Text OpenUI.Concurrency

variable {P : Platform} {t : Timing}

/-! ### Start and recovery -/

/-- The main thread once it has recovered: it holds nothing and acts for no operation. -/
def Ctx.Recovered (c : Ctx) : Prop :=
  c.Idle ∧ c.phase = .free ∧ c.worker = false ∧ c.booting = true ∧ c.owes = false

theorem wp_recoverJournal {journal : Option Value} {Q : Ctx → Unit → Prop}
    (hj : ∀ j op, journal = some j → Operation.recovered j = some op → op.kind ≠ .nickname)
    (hq : ∀ c, c.Recovered → Q c ()) :
    (rules P t).wp (recoverJournal journal) Q { booting := true, journal := journal } := by
  have hidle : Ctx.Idle {} := ⟨rfl, rfl, rfl, rfl, rfl, rfl⟩
  unfold recoverJournal
  split
  · exact hq _ ⟨hidle, rfl, rfl, rfl, rfl⟩
  · rename_i j
    split
    · exact wp_clearJournal (.inr ⟨rfl, rfl, rfl⟩) fun j' => hq _ ⟨hidle, rfl, rfl, rfl, rfl⟩
    · rename_i op hop
      refine wp_step ⟨rfl, rfl, rfl, j, rfl, hop⟩ fun _ w _ => ?_
      have hs : ∀ kind, kind = op.kind → Ctx.Settles kind false
          (Ctx.after { booting := true, journal := some j } (.putOperation op) () w).child :=
        fun kind hk => ⟨⟨⟨op.id, by rw [hk]; rfl⟩, rfl, rfl, rfl, rfl, rfl⟩, rfl, rfl⟩
      split
      · rename_i hk
        exact ⟨⟨rfl, ⟨hidle, hs _ hk.symm⟩, rfl⟩, fun _ _ _ => hq _ ⟨hidle, rfl, rfl, rfl, rfl⟩⟩
      · rename_i hk
        have hswitch : op.kind.isSwitch = true := by
          have hn := hj j op rfl hop
          revert hk hn
          cases op.kind <;> simp [Kind.isSwitch]
        exact ⟨⟨rfl, ⟨hidle, hs _ rfl, hswitch⟩, rfl⟩, fun _ _ _ =>
          hq _ ⟨hidle, rfl, rfl, rfl, rfl⟩⟩

theorem keeps_main : (rules P t).wp main (regime P t).ends .boot := by
  rw [main, Discipline.wp_bind]
  refine wp_saveState rfl ?_
  rw [Discipline.wp_bind, recover]
  refine wp_step ⟨rfl, rfl⟩ fun journal w hj => wp_step trivial fun pending w' _ => ?_
  have hrest : (rules P t).wp (recoverJournal journal) (fun c _ => (rules P t).wp
      (liftM Act.serve >>= fun _ => pure .stop) (regime P t).ends c)
      { booting := true, journal := journal } :=
    wp_recoverJournal hj fun c hc =>
      wp_step ⟨hc.2.2.2.1, hc.2.1⟩ fun _ _ _ => ⟨hc.1, hc.2.1, hc.2.2.1, rfl, hc.2.2.2.2⟩
  rw [Discipline.wp_bind]
  cases pending with
  | false => exact wp_onlyIf (fun h => by cases h) fun _ => hrest
  | true => exact wp_onlyIf (fun _ => wp_startReceiptWorker rfl rfl hrest) fun h => by cases h

/-! ### Reads -/

theorem wp_ignore_readCard {c : Ctx} {Q : Ctx → Unit → Prop}
    (hi : c.Idle) (hp : c.phase ≠ .running) (hm : c.client = true ∨ c.op.isSome = true)
    (hq : ∀ ok, Q (c.afterRead ok) ()) : (rules P t).wp (ignore readCard) Q c :=
  wp_ignore (wp_readCard hi hp hm fun r => hq r.isOk)

/-- What is left of a client that has done its work. -/
theorem idle_newClient : Ctx.newClient.Idle := ⟨rfl, rfl, rfl, rfl, rfl, rfl⟩

theorem fin_newClient : threadFin .newClient := ⟨idle_newClient, rfl, rfl, rfl, rfl⟩

theorem keeps_detect : (rules P t).wp detect (regime P t).ends .newClient := by
  rw [detect]
  refine wp_step trivial fun key _ _ => wp_step trivial fun skip _ _ => ?_
  rw [Discipline.wp_bind]
  have hend : ∀ c : Ctx, threadFin c →
      (rules P t).wp (liftM (Act.detectDone key) >>= fun _ => pure .stop) (regime P t).ends c :=
    fun c hc => wp_step trivial fun _ _ _ => hc
  refine wp_onlyIf (fun _ => ?_) fun _ => hend _ fin_newClient
  refine wp_ignore_readCard idle_newClient (fun h => by cases h) (.inl rfl) fun ok => ?_
  exact hend _ ⟨idle_newClient, rfl, rfl, rfl, rfl⟩

/-- A handler of the server: it ends with nothing left to do. -/
def Handles (P : Platform) (t : Timing) (p : Prog Answer) : Prop :=
  (rules P t).wp p (fun c _ => threadFin c) .newClient

theorem wp_answerView_fin {c : Ctx} {code : Nat} (h : threadFin c) :
    (rules P t).wp (answerView code) (fun c _ => threadFin c) c := wp_answerView fun _ => h

theorem handles_summary : Handles P t summary := by
  unfold Handles
  rw [summary]
  refine wp_step trivial fun due _ _ => ?_
  rw [Discipline.wp_bind]
  refine wp_onlyIf (fun _ => ⟨rfl, fun _ _ _ => ?_⟩) fun _ => wp_answerView_fin fin_newClient
  exact wp_answerView_fin fin_newClient

theorem handles_refresh : Handles P t refresh := by
  unfold Handles
  rw [refresh]
  refine wp_step trivial fun busy _ _ => ?_
  rw [Discipline.wp_bind]
  refine wp_onlyIf (fun _ => ?_) fun _ => wp_answerView_fin fin_newClient
  exact wp_ignore_readCard idle_newClient (fun h => by cases h) (.inl rfl) fun ok =>
    wp_answerView_fin ⟨idle_newClient, rfl, rfl, rfl, rfl⟩

theorem handles_profiles : Handles P t profiles := by
  unfold Handles
  rw [profiles]
  refine wp_step trivial fun due _ _ => ?_
  rw [Discipline.wp_bind]
  refine wp_onlyIf (fun _ => ?_) fun _ => wp_answerView_fin fin_newClient
  rw [readIfFree]
  refine wp_step rfl fun free w _ => wp_onlyIf (fun hf => ?_) fun hf => ?_
  · subst hf
    refine wp_ignore (wp_readLocked idle_newClient rfl (fun h => by cases h) (.inl rfl) fun r => ?_)
    exact wp_answerView_fin ⟨idle_newClient, rfl, rfl, rfl, rfl⟩
  · subst hf
    exact wp_answerView_fin fin_newClient

/-! ### Changes: enable, disable, delete -/

/-- The context after an admission. -/
def Ctx.admittedWith (a : Admitted) : Ctx :=
  { Ctx.newClient with op := some (a.op.id, a.op.kind), admitted := some a.op, phase := .claimed }

theorem wp_admitRequest {kind : Kind} {body : Value} {Q : Ctx → Except Answer Admitted → Prop}
    (hk : kind ≠ .download) (hok : ∀ a, a.op.kind = kind → Q (.admittedWith a) (.ok a))
    (herr : ∀ answer, Q .newClient (.error answer)) :
    (rules P t).wp (admitRequest kind body) Q .newClient := by
  unfold admitRequest
  split
  · exact herr _
  · rename_i id hid
    have hvalid : validOperationId id = true := (Option.filter_eq_some_iff.mp hid).2
    split
    · exact herr _
    · split
      · exact herr _
      · refine wp_step ⟨rfl, hvalid, hk⟩ fun result _ hkind => ?_
        cases result with
        | ok a => exact hok a (hkind a rfl)
        | error refusal =>
          show (rules P t).wp (refuse refusal >>= fun _ => _) Q _
          rw [Discipline.wp_bind]
          exact wp_refuse herr

theorem handles_switch {kind : Kind} {body : Option Value} (hk : kind.isSwitch = true) :
    Handles P t (switch kind body) := by
  have hdown : kind ≠ .download := by rintro rfl; cases hk
  unfold Handles switch
  split
  · exact fin_newClient
  · rename_i body
    rw [Discipline.wp_bind]
    refine wp_admitRequest hdown (fun a ha => ?_) fun answer => fin_newClient
    refine wp_step ⟨rfl, rfl, ha ▸ hk⟩ fun written _ _ => ?_
    cases written with
    | error e => exact wp_step rfl fun _ _ _ => ⟨idle_newClient, rfl, rfl, rfl, rfl⟩
    | ok u =>
      have hreq : (switchRequest kind a).isSwitch = true := by
        unfold switchRequest
        split <;> rfl
      have hcarries : Ctx.Carries kind .claimed
          ((Ctx.admittedWith a).after (.writeJournal a.op) (.ok ()) ‹_›).child :=
        ⟨⟨a.op.id, by rw [← ha]; rfl⟩, rfl, rfl, rfl, rfl, rfl⟩
      refine wp_step ⟨rfl, ⟨idle_newClient, hcarries, rfl, hk, hreq⟩, rfl⟩ fun _ _ _ => ?_
      exact wp_answerView_fin ⟨idle_newClient, rfl, rfl, rfl, rfl⟩

/-- The context after the answer to the operation's own write. -/
def Ctx.settled (c : Ctx) (o : HelperOutcome) : Ctx :=
  { c with phase := .settling, fate := o.fate, owes := true }

/-- The helper run of a write: the thread claimed the slot and gets the answer. -/
theorem wp_helperLocked_write {c : Ctx} {request : Request} {Q : Ctx → HelperOutcome → Prop}
    (hi : c.Idle) (hp : c.phase = .claimed) (hw : request.isWrite = true)
    (hm : ({ c with card := true } : Ctx).mayAsk request) (hq : ∀ o, Q (c.settled o) o) :
    (rules P t).wp (helperLocked request) Q c := by
  rw [helperLocked]
  refine wp_step hi.1 fun _ w _ => ?_
  rw [Discipline.wp_bind]
  refine wp_helper rfl hm (fun _ _ => ?_) fun o w' => wp_step ?_ fun _ w'' _ => ?_
  · cases request <;> simp_all [Request.isWrite, hi.2.1]
  · cases request <;> simp_all [Ctx.answered, Request.isWrite, hi.2.1]
  · have hc := hi.1
    have := hq o
    cases request <;> simp_all [Ctx.answered, Request.isWrite, Ctx.settled]

theorem settles_settled {c : Ctx} {kind : Kind} {accepted : Bool} {o : HelperOutcome}
    (hc : c.Carries kind .claimed) (hr : c.renamed = false)
    (hf : if accepted then o.fate = .applied else o.fate.isOpen = true) :
    (c.settled o).Settles kind accepted :=
  ⟨⟨hc.op, rfl, hc.recorded, hc.worker, hc.booting, hc.client⟩, hf, hr⟩

/-- A verdict other than success, and the end of the thread. -/
theorem wp_finish_stop {c : Ctx} {state : OpState} {message : Option String}
    (hi : c.Idle) (hc : ∃ kind, c.Carries kind .settling) (hres : state.resolved = true)
    (hv : c.mayPublish state) (hs : state ≠ .succeeded) :
    (rules P t).wp (finish state message >>= fun _ => pure .stop) (regime P t).ends c := by
  obtain ⟨kind, hc⟩ := hc
  rw [Discipline.wp_bind]
  refine wp_finish hc.phase hc.recorded hres hv fun j => ⟨hi, rfl, hc.worker, hc.booting, ?_⟩
  simp [Ctx.finished, Ctx.stillOwes, hs]

/-- A text and no verdict. -/
theorem wp_setOp {α : Type} {c : Ctx} {state : OpState} {message : Option String} {f : Unit →
    Prog α}
    {Q : Ctx → α → Prop} (hp : c.phase = .settling) (hs : state.resolved = false)
    (hq : (rules P t).wp (f ()) Q c) : (rules P t).wp (setOp state message >>= f) Q c := by
  refine wp_step ⟨hp, fun h => ?_⟩ fun _ w _ => ?_
  · rw [hs] at h; cases h
  · simpa [hs] using hq

theorem keeps_switchAnswered {c : Ctx} {kind : Kind} {o : HelperOutcome} (hi : c.Idle)
    (hc : c.Carries kind .claimed) (hr : c.renamed = false) (hk : kind.isSwitch = true) :
    (rules P t).wp (switchAnswered kind o) (regime P t).ends (c.settled o) := by
  have hcs : ∃ kind, (c.settled o).Carries kind .settling :=
    ⟨kind, hc.op, rfl, hc.recorded, hc.worker, hc.booting, hc.client⟩
  have hverify : ∀ (accepted : Bool) {state : OpState} {message : Option String}
      {p : Prog (Next Body)}, state.resolved = false →
      (if accepted then o.fate = .applied else o.fate.isOpen = true) →
      (p = pure (.goto (.verify kind accepted)) ∨
        p = (ask .invalidateNetwork >>= fun _ => pure (.goto (.verify kind accepted)))) →
      (rules P t).wp (setOp state message >>= fun _ => p) (regime P t).ends (c.settled o) := by
    rintro accepted state message p hs hf (rfl | rfl)
    · exact wp_setOp rfl hs ⟨hi, settles_settled hc hr hf, hk⟩
    · exact wp_setOp rfl hs ⟨trivial, fun _ _ _ => ⟨hi, settles_settled hc hr hf, hk⟩⟩
  have hstop : ∀ {state : OpState} {message : Option String}, o.fate.isOpen = false →
      state = .busy ∨ state = .refused ∨ state = .failed →
      (rules P t).wp (finish state message >>= fun _ => pure .stop) (regime P t).ends
        (c.settled o) := by
    rintro state message hf (rfl | rfl | rfl)
    · exact wp_finish_stop hi hcs rfl (.inl hf) (by simp)
    · exact wp_finish_stop hi hcs rfl (.inl hf) (by simp)
    · exact wp_finish_stop hi hcs rfl (.inl hf) (by simp)
  unfold switchAnswered
  split
  · split
    · exact hverify true rfl rfl (.inl rfl)
    · exact hverify true rfl rfl (.inr rfl)
  · rename_i k message detail
    have hopen : k ≠ "outcome_unknown" → (HelperOutcome.failed k message detail).fate.isOpen =
      false := by
      intro h
      simp [HelperOutcome.fate, h, Fate.isOpen]
    split
    · rename_i h
      exact hstop (hopen (by rw [h.1]; decide)) (.inl rfl)
    · split
      · rename_i h
        exact hstop (hopen (by rw [h]; decide)) (.inr (.inl rfl))
      · split
        · rename_i h
          rw [Discipline.wp_bind]
          refine wp_finish rfl hc.recorded rfl (.inl (hopen ?_)) fun j => ?_
          · rcases h with h | h <;> rw [h] <;> decide
          · rw [Discipline.wp_bind]
            refine wp_ignore_readCard hi (fun h => by cases h) (.inr ?_) fun ok => ?_
            · obtain ⟨id, hop⟩ := hc.op
              simp [Ctx.finished, Ctx.settled, hop]
            · exact ⟨hi, rfl, hc.worker, hc.booting, by simp [Ctx.finished, Ctx.afterRead,
                Ctx.stillOwes]⟩
        · split
          · rename_i h
            exact hverify false rfl (by simp [HelperOutcome.fate, h, Fate.isOpen])
              (.inr rfl)
          · rename_i h
            split
            · exact hstop (hopen h) (.inr (.inr rfl))
            · exact hstop (hopen h) (.inr (.inr rfl))
  · exact hverify false rfl rfl (.inr rfl)
  · exact hverify false rfl rfl (.inr rfl)
  · exact wp_step trivial fun _ _ _ => hstop rfl (.inr (.inr rfl))

theorem keeps_runSwitch {c : Ctx} {kind : Kind} {request : Request}
    (h : threadPre (.runSwitch kind request) c) :
    (rules P t).wp (runSwitch kind request) (regime P t).ends c := by
  obtain ⟨hi, hc, hr, hk, hreq⟩ := h
  rw [runSwitch, Discipline.wp_bind]
  refine wp_helperLocked_write hi hc.phase ?_ ?_ fun o => keeps_switchAnswered hi hc hr hk
  · cases request <;> simp_all [Request.isSwitch, Request.isWrite]
  · cases request with
    | switch _ _ _ _ => exact ⟨hc.phase, hc.recorded, kind, hk, hc.op⟩
    | delete _ _ => exact ⟨hc.phase, hc.recorded, kind, hk, hc.op⟩
    | _ => cases hreq

/-! ### Reading a change back -/

theorem keeps_verify {c : Ctx} {kind : Kind} {accepted : Bool}
    (h : threadPre (.verify kind accepted) c) :
    (rules P t).wp (verify t kind accepted) (regime P t).ends c :=
  wp_step trivial fun _ _ _ => wp_step trivial fun _ _ _ => h

/-- A settling thread gives up only as Unknown. -/
theorem keeps_verifyWait {c : Ctx} {kind : Kind} {accepted : Bool} {start : Nat}
    (h : threadPre (.verifyLoop kind accepted start) c) :
    (rules P t).wp (verifyWait t kind accepted start) (regime P t).ends c := by
  rw [verifyWait]
  refine wp_step trivial fun now _ _ => ?_
  split
  · exact wp_finish_stop h.1 ⟨kind, h.2.1.carries⟩ rfl trivial (by simp)
  · exact wp_step trivial fun _ _ _ => h

/-- The evidence `examine` leaves when the change shows on the card. -/
theorem evidence_applied {kind : Kind} {state : Option String} (hk : kind.isSwitch = true)
    (h : switchDone kind state = true) : Evidence.ofTarget kind state = .applied := by
  cases kind <;> cases state <;> simp_all [switchDone, Evidence.ofTarget, Kind.isSwitch]

/-- The evidence `examine` leaves when the profile is there and the change does not show. -/
theorem evidence_notApplied {kind : Kind} {state : String} (hk : kind.isSwitch = true)
    (h : switchDone kind (some state) = false) :
    Evidence.ofTarget kind (some state) = .notApplied := by
  cases kind <;> simp_all [switchDone, Evidence.ofTarget, Kind.isSwitch]

theorem Ctx.Settles.afterRead {c : Ctx} {kind : Kind} {accepted ok : Bool}
    (h : c.Settles kind accepted) : (c.afterRead ok).Settles kind accepted :=
  ⟨⟨h.1.op, h.1.phase, h.1.recorded, h.1.worker, h.1.booting, h.1.client⟩, h.fate, h.renamed⟩

/-- The receipts `examine` found are queued, and the thread ends. -/
theorem keeps_queueFound {c : Ctx} {kind : Kind} {found : Found} {j : Option Value} (hi : c.Idle)
    (hc : c.Carries kind .settling) (hk : kind.isSwitch = true) (hf : c.receipts = some found) :
    (rules P t).wp (queueReceipts found.seqs >>= fun _ => pure .stop) (regime P t).ends
      (c.finished .succeeded j) := by
  obtain ⟨id, hop⟩ := hc.op
  rw [Discipline.wp_bind]
  refine wp_queueReceipts hi hc.worker ⟨found, hf, rfl⟩ ⟨hi, rfl, hc.worker, hc.booting, ?_⟩
  show (if found.seqs = [] then c.stillOwes .succeeded else false) = false
  split
  · rename_i h
    cases kind <;> simp_all [Ctx.stillOwes, Kind.isSwitch]
  · rfl

theorem keeps_verifyLoop {c : Ctx} {kind : Kind} {accepted : Bool} {start : Nat}
    (h : threadPre (.verifyLoop kind accepted start) c) :
    (rules P t).wp (verifyLoop t kind accepted start) (regime P t).ends c := by
  obtain ⟨hi, hs, hk⟩ := h
  obtain ⟨id, hop⟩ := hs.carries.op
  have hphase := hs.carries.phase
  rw [verifyLoop, Discipline.wp_bind]
  refine wp_readCard hi (by simp [hphase]) (.inr (by rw [hop]; rfl)) fun read => ?_
  have hpre : threadPre (.verifyLoop kind accepted start) (c.afterRead read.isOk) :=
    ⟨hi, hs.afterRead, hk⟩
  cases read with
  | error e =>
    obtain ⟨k, m⟩ := e
    show (rules P t).wp (onlyIf _ _ >>= fun _ => _) _ _
    rw [Discipline.wp_bind]
    refine wp_onlyIf (fun _ => ⟨⟨hphase, fun h => ?_⟩, fun _ w _ => ?_⟩) fun _ =>
      keeps_verifyWait hpre
    · cases accepted <;> cases h
    · have hres : (if accepted then OpState.reloading else .verifying).resolved = false := by
        cases accepted <;> rfl
      simpa [hres] using keeps_verifyWait hpre
  | ok u =>
    refine wp_step ⟨hphase, ?_, kind, hk, hs.carries.op⟩ fun r w _ => ?_
    · simp [Ctx.afterRead, hphase]
    · obtain ⟨targetState, receiptsNew⟩ := r
      set c' := (c.afterRead (Except.ok u : Except (String × String) Unit).isOk).after .examine
        (targetState, receiptsNew) w with hc'
      have hev : c'.evidence = .ofTarget kind targetState := by
        simp [hc', Ctx.afterRead, hop]
      have hcar : c'.Carries kind .settling :=
        ⟨hs.carries.op, hphase, hs.carries.recorded, hs.carries.worker, hs.carries.booting,
          hs.carries.client⟩
      have hpre' : threadPre (.verifyLoop kind accepted start) c' :=
        ⟨hi, ⟨hcar, hs.fate, hs.renamed⟩, hk⟩
      dsimp only
      split
      · rename_i hdone
        rw [Discipline.wp_bind]
        refine wp_finish hphase hcar.recorded rfl (.inl (hev.trans (evidence_applied hk hdone)))
          fun j => ?_
        rw [Discipline.wp_bind]
        have hqueue := @keeps_queueFound P t c' kind _ j hi hcar hk rfl
        exact wp_onlyIf (fun _ => ⟨trivial, fun _ _ _ => hqueue⟩) fun _ => hqueue
      · rename_i hdone
        split
        · rename_i s
          split
          · rename_i hacc
            refine wp_finish_stop hi ⟨kind, hcar⟩ rfl (.inr (.inl ?_)) (by simp)
            rw [hev]
            exact evidence_notApplied hk (by simpa using hdone)
          · exact keeps_verifyWait hpre'
        · exact wp_finish_stop hi ⟨kind, hcar⟩ rfl trivial (by simp)

/-! ### Downloads -/

/-- The checks of `download` pass only under a valid operation id. -/
theorem checkDownload_valid {body : Value} {id code : String} {confirmation : Option String}
    (h : checkDownload body = .ok (id, code, confirmation)) : validOperationId id = true := by
  unfold checkDownload at h
  split at h
  · cases h
  · rename_i id' hid
    have hvalid : validOperationId id' = true := (Option.filter_eq_some_iff.mp hid).2
    split at h
    · cases h
    · split at h
      · cases h
      · split at h
        · split at h
          · cases h
          · cases h; exact hvalid
        · split at h
          · cases h
          · cases h; exact hvalid

theorem handles_download {body : Option Value} : Handles P t (download body) := by
  unfold Handles download
  split
  · exact fin_newClient
  · rename_i body
    split
    · exact fin_newClient
    · rename_i id code confirmation hcheck
      have hvalid : validOperationId id = true := checkDownload_valid hcheck
      refine wp_step ⟨rfl, hvalid⟩ fun claim _ _ => ?_
      cases claim with
      | error refusal => exact wp_refuse fun _ => fin_newClient
      | ok r =>
        obtain ⟨eid, controls⟩ := r
        refine wp_step trivial fun up _ _ => ?_
        have hdrop : ∀ {c : Ctx} {answer : Answer}, c.Idle → c.phase = .claimed →
            c.worker = false → c.booting = false → c.owes = false →
            (rules P t).wp (liftM Act.dropOperation >>= fun _ => pure answer)
              (fun c _ => threadFin c) c :=
          fun hi hp hw hb ho => wp_step hp fun _ _ _ => ⟨hi, rfl, hw, hb, ho⟩
        split
        · exact hdrop idle_newClient rfl rfl rfl rfl
        · refine wp_step ⟨rfl, id, rfl⟩ fun journaled _ hne => ?_
          cases journaled with
          | none => exact absurd rfl hne
          | some written =>
            cases written with
            | error e => exact hdrop idle_newClient rfl rfl rfl rfl
            | ok u =>
              refine wp_step ⟨rfl, ⟨idle_newClient, ?_, rfl, rfl, rfl⟩, rfl⟩ fun _ _ _ => ?_
              · exact ⟨⟨id, rfl⟩, rfl, rfl, rfl, rfl, rfl⟩
              · exact wp_answerView_fin ⟨idle_newClient, rfl, rfl, rfl, rfl⟩

theorem keeps_runDownload {c : Ctx} {request : Request} {controls : Nat}
    (h : threadPre (.runDownload request controls) c) :
    (rules P t).wp (runDownload request controls) (regime P t).ends c := by
  obtain ⟨hi, hc, hr, hch, hreq⟩ := h
  cases request with
  | download code eid confirmation =>
    rw [runDownload]
    refine wp_step hi.1 fun _ _ _ => ?_
    refine wp_step ⟨rfl, hc.phase, hc.recorded, hc.op⟩ fun _ w _ => ?_
    have hp : c.phase = .claimed := hc.phase
    refine ⟨⟨?_, ?_⟩, ?_, ⟨?_, ?_, ?_, ?_, ?_, ?_⟩, ?_, ?_⟩ <;> simp [hp]
    · exact hi.2
    · exact hc.op
    · exact hc.recorded
    · exact hc.worker
    · exact hc.booting
    · exact hc.client
    · exact hch
    · exact hr
  | _ => cases hreq

theorem Ctx.Downloads.settled {c : Ctx} {controls : Nat} (h : c.Downloads controls)
    {accepted : Bool} {o : HelperOutcome}
    (hf : if accepted then o.fate = .applied else o.fate.isOpen = true) :
    (({ c with card := false } : Ctx).settled o).Settles .download accepted :=
  ⟨⟨h.carries.op, rfl, h.carries.recorded, h.carries.worker, h.carries.booting, h.carries.client⟩,
    hf,
    h.renamed⟩

theorem keeps_downloadAnswered {c : Ctx} {controls : Nat} {o : HelperOutcome}
    (h : c.Downloads controls) :
    (rules P t).wp (downloadAnswered o) (regime P t).ends
      (({ c with card := false } : Ctx).settled o) := by
  have hi : (({ c with card := false } : Ctx).settled o).Idle := h.idle
  have hcs : ∃ kind, (({ c with card := false } : Ctx).settled o).Carries kind .settling :=
    ⟨.download, h.carries.op, rfl, h.carries.recorded, h.carries.worker, h.carries.booting,
      h.carries.client⟩
  unfold downloadAnswered
  split
  · exact wp_step ⟨rfl, h.carries.op⟩ fun _ _ _ => ⟨hi, h.settled rfl⟩
  · rename_i k message detail
    have hopen : k ≠ "outcome_unknown" →
        (HelperOutcome.failed k message detail).fate.isOpen = false := by
      intro hk
      simp [HelperOutcome.fate, hk, Fate.isOpen]
    rw [Discipline.wp_bind]
    have hbase : ∀ {Q : Ctx → Unit → Prop}, Q (({ c with card := false } : Ctx).settled
          (.failed k message detail)) () →
        (rules P t).wp (takeBaseline detail) Q (({ c with card := false } : Ctx).settled
          (.failed k message detail)) := by
      intro Q hQ
      unfold takeBaseline
      split
      · exact ⟨⟨rfl, h.carries.op⟩, fun _ _ _ => hQ⟩
      · exact hQ
    refine hbase ?_
    split
    · rename_i hk
      exact wp_finish_stop hi hcs rfl (hopen (by rw [hk]; decide)) (by simp)
    · split
      · rename_i hk
        rw [Discipline.wp_bind]
        refine wp_finish rfl h.carries.recorded rfl (.inl (hopen (by rw [hk]; decide))) fun j => ?_
        rw [Discipline.wp_bind]
        exact wp_queueNewReceiptsAfterRead hi h.carries.worker fun found =>
          ⟨hi, rfl, h.carries.worker, h.carries.booting, rfl⟩
      · split
        · rename_i hk
          exact ⟨hi, h.settled (by simp [HelperOutcome.fate, hk, Fate.isOpen])⟩
        · rename_i hk
          split
          · exact wp_finish_stop hi hcs rfl (.inl (hopen hk)) (by simp)
          · exact wp_finish_stop hi hcs rfl (.inl (hopen hk)) (by simp)
  · exact ⟨hi, h.settled rfl⟩
  · exact ⟨hi, h.settled rfl⟩
  · exact wp_step trivial fun _ _ _ => wp_finish_stop hi hcs rfl (.inl rfl) (by simp)

/-- A thread during its download goes on with the next turn of the loop. -/
theorem keeps_downloadGoto {c : Ctx} {controls : Nat} {timedOut : Bool}
    (h : c.Downloads controls) :
    (rules P t).wp (pure (.goto (.downloadLoop controls timedOut))) (regime P t).ends c := h

theorem keeps_downloadEvent {c : Ctx} {controls : Nat} {timedOut : Bool} {event : RunEvent}
    {w : World} (h : c.Downloads controls) :
    (rules P t).wp (downloadEvent controls timedOut event) (regime P t).ends
      (c.after .runEvent event w) := by
  cases event with
  | wait => exact keeps_downloadGoto h
  | progress step data =>
    show (rules P t).wp (onProgress step data >>= fun _ => _) _ _
    rw [Discipline.wp_bind, onProgress]
    refine wp_step trivial fun eid _ _ => ?_
    exact ⟨⟨h.card, h.idle.2.1, h.carries.phase, h.carries.op⟩, fun _ _ _ => h⟩
  | done outcome =>
    have hs : c.after .runEvent (.done outcome) w = c.settled outcome := by
      simp [Ctx.answered, Ctx.settled, h.carries.phase]
    rw [hs]
    exact wp_step ⟨h.card, h.idle.2.1⟩ fun _ _ _ => keeps_downloadAnswered h

theorem keeps_downloadLoop {c : Ctx} {controls : Nat} {timedOut : Bool}
    (h : threadPre (.downloadLoop controls timedOut) c) :
    (rules P t).wp (downloadLoop controls timedOut) (regime P t).ends c := by
  have hd : c.Downloads controls := h
  rw [downloadLoop]
  refine wp_step hd fun control _ _ => ?_
  cases control with
  | some control => exact wp_step ⟨controls, hd⟩ fun _ _ _ => hd
  | none =>
    refine wp_step trivial fun expired _ _ => ?_
    have hnext : (rules P t).wp (liftM Act.runEvent >>= downloadEvent controls
      (timedOut || expired))
        (regime P t).ends c :=
      wp_step ⟨hd.card, hd.idle.2.1, hd.carries.phase, hd.carries.op⟩ fun event w _ =>
        keeps_downloadEvent hd
    rw [Discipline.wp_bind]
    exact wp_onlyIf (fun _ => ⟨⟨controls, hd⟩, fun _ _ _ => hnext⟩) fun _ => hnext

theorem keeps_settleDownload {c : Ctx} {reported : Bool}
    (h : threadPre (.settleDownload reported) c) :
    (rules P t).wp (settleDownload reported) (regime P t).ends c :=
  wp_step trivial fun _ _ _ => h

theorem keeps_settleWait {c : Ctx} {reported : Bool} {start : Nat}
    (h : threadPre (.settleLoop reported start) c) :
    (rules P t).wp (settleWait t reported start) (regime P t).ends c := by
  rw [settleWait]
  refine wp_step trivial fun now _ _ => ?_
  split
  · exact wp_finish_stop h.1 ⟨.download, h.2.carries⟩ rfl trivial (by simp)
  · exact wp_step trivial fun _ _ _ => h

theorem wp_writeRequested {c : Ctx} {iccid eid : String} {nickname : Option String}
    {Q : Ctx → String → Prop} (hi : c.Idle) (hp : c.phase = .settling)
    (hop : c.actsOn .download) (he : c.evidence = .applied) (hr : c.renamed = false)
    (hq : ∀ renamed fresh readOk note,
      Q { c with renamed := renamed, fresh := fresh, readOk := readOk } note) :
    (rules P t).wp (writeRequested iccid eid nickname) Q c := by
  obtain ⟨hcard, hread⟩ := hi
  obtain ⟨id, hid⟩ := hop
  unfold writeRequested
  split
  · rename_i name _
    rw [writeNickname, Discipline.wp_bind, helperLocked]
    refine wp_step hcard fun _ _ _ => ?_
    rw [Discipline.wp_bind]
    refine wp_helper rfl (.inr ⟨hp, ⟨id, hid⟩, he, hr⟩) (by simp [hp]) fun o w => ?_
    have hctx : ((({ c with card := true } : Ctx).after
        (.startHelper (.nickname iccid eid name)) () w).answered o) =
        { c with card := true, renamed := true } := by
      simp [hp, Ctx.answered]
    rw [show (c.after .lockCard () _) = { c with card := true } from rfl, hctx]
    refine wp_step ⟨rfl, hread.1⟩ fun _ _ _ => ?_
    show (rules P t).wp (ignore readCard >>= fun _ => _) _ { c with card := false, renamed := true }
    rw [Discipline.wp_bind]
    refine wp_ignore_readCard ⟨rfl, hread⟩ (by simp [hp]) (.inr (by simp [hid])) fun ok => ?_
    simpa [Ctx.afterRead, hcard] using hq true false _ _
  · exact hq c.renamed c.fresh c.readOk ""

theorem keeps_settleFound {c : Ctx} {handle iccid eid : String} {reported : Bool} (hi : c.Idle)
    (hs : c.Settles .download reported) (he : c.evidence = .applied) :
    (rules P t).wp (settleFound handle iccid eid) (regime P t).ends c := by
  have hc := hs.carries
  rw [settleFound]
  refine wp_step ⟨hc.phase, he, hc.op⟩ fun nickname _ _ => ?_
  rw [Discipline.wp_bind]
  refine wp_writeRequested hi hc.phase hc.op he hs.renamed fun renamed fresh readOk note => ?_
  rw [Discipline.wp_bind]
  refine wp_finish hc.phase hc.recorded rfl (.inl he) fun j => ?_
  rw [Discipline.wp_bind]
  exact wp_queueNewReceiptsAfterRead hi hc.worker fun found => ⟨hi, rfl, hc.worker, hc.booting, rfl⟩

theorem keeps_settleLoop {c : Ctx} {reported : Bool} {start : Nat}
    (h : threadPre (.settleLoop reported start) c) :
    (rules P t).wp (settleLoop t reported start) (regime P t).ends c := by
  obtain ⟨hi, hs⟩ := h
  obtain ⟨id, hop⟩ := hs.carries.op
  have hphase := hs.carries.phase
  rw [settleLoop, Discipline.wp_bind]
  refine wp_readCard hi (by simp [hphase]) (.inr (by rw [hop]; rfl)) fun read => ?_
  have hpre : threadPre (.settleLoop reported start) (c.afterRead read.isOk) := ⟨hi, hs.afterRead⟩
  cases read with
  | error e => exact keeps_settleWait hpre
  | ok u =>
    refine wp_step ⟨hphase, ?_, hs.carries.op⟩ fun found w hne => ?_
    · simp [Ctx.afterRead, hphase]
    · have hsettles : ((c.afterRead (Except.ok u : Except (String × String) Unit).isOk).after
          .findInstalled found w).Settles .download reported :=
        ⟨⟨hs.carries.op, hphase, hs.carries.recorded, hs.carries.worker, hs.carries.booting,
          hs.carries.client⟩, hs.fate, hs.renamed⟩
      cases found with
      | none => exact absurd rfl hne
      | some installed =>
        cases installed with
        | some profile => exact keeps_settleFound hi hsettles rfl
        | none =>
          dsimp only
          split
          · exact wp_finish_stop hi ⟨.download, hsettles.carries⟩ rfl (.inr (.inl rfl)) (by simp)
          · exact keeps_settleWait ⟨hi, hsettles⟩

/-! ### The other handlers -/

theorem handles_downloadConfirm {body : Option Value} : Handles P t (downloadConfirm body) := by
  unfold Handles downloadConfirm
  split
  · exact fin_newClient
  · split
    · exact fin_newClient
    · dsimp only
      split
      · exact fin_newClient
      · refine wp_step trivial fun result _ _ => ?_
        cases result with
        | error e => exact fin_newClient
        | ok u => exact wp_answerView_fin fin_newClient

theorem handles_downloadCancel {body : Option Value} : Handles P t (downloadCancel body) := by
  unfold Handles downloadCancel
  split
  · exact fin_newClient
  · refine wp_step trivial fun result _ _ => ?_
    cases result with
    | error e => exact fin_newClient
    | ok u => exact wp_answerView_fin fin_newClient

theorem handles_receiptsSend : Handles P t receiptsSend := by
  unfold Handles
  rw [receiptsSend]
  refine wp_step trivial fun seqs w _ => ?_
  cases seqs with
  | none => exact ⟨idle_newClient, rfl, rfl, rfl, rfl⟩
  | some seqs =>
    dsimp only
    split
    · exact wp_answerView_fin ⟨idle_newClient, rfl, rfl, rfl, rfl⟩
    · rw [Discipline.wp_bind]
      refine wp_queueReceipts idle_newClient rfl ⟨_, rfl, rfl⟩ (wp_answerView_fin ?_)
      exact ⟨idle_newClient, rfl, rfl, rfl, by simp [Ctx.newClient]⟩

theorem handles_lock {body : Option Value} : Handles P t (lock body) := by
  unfold Handles lock
  split
  · exact fin_newClient
  · split
    · refine wp_step trivial fun known _ _ => ?_
      cases known with
      | false => exact fin_newClient
      | true =>
        show (rules P t).wp (saveState >>= fun _ => answerView 200) _ _
        rw [Discipline.wp_bind]
        exact wp_saveState rfl (wp_answerView_fin ⟨idle_newClient, rfl, rfl, rfl, rfl⟩)
    · exact fin_newClient

/-- A rename's verdict has its grounds in the helper's answer. -/
theorem mayPublish_nicknameVerdict {c : Ctx} {o : HelperOutcome} (hop : c.actsOn .nickname)
    (hf : c.fate = o.fate) : c.mayPublish (nicknameVerdict o).1 := by
  cases o with
  | ok data => exact .inr ⟨hop, hf⟩
  | failed kind message detail =>
    unfold nicknameVerdict
    dsimp only
    split
    · trivial
    · rename_i h
      have hopen : c.fate.isOpen = false := by simp [hf, HelperOutcome.fate, h, Fate.isOpen]
      split
      · exact .inl hopen
      · exact .inl hopen
  | missing m => exact .inl (by rw [hf]; rfl)
  | killed => trivial
  | garbled m => exact .inr (.inr ⟨hop, hf⟩)

theorem nicknameVerdict_resolved (o : HelperOutcome) : (nicknameVerdict o).1.resolved = true := by
  cases o with
  | failed kind message detail =>
    unfold nicknameVerdict
    dsimp only
    split
    · rfl
    · split <;> rfl
  | _ => rfl

theorem keeps_nicknameAnswered {a : Admitted} {o : HelperOutcome} {state : OpState}
    {message : Option String} (ha : a.op.kind = .nickname)
    (hv : ((Ctx.admittedWith a).settled o).mayPublish state) (hres : state.resolved = true) :
    (rules P t).wp (nicknameAnswered state message) (fun c _ => threadFin c)
      ((Ctx.admittedWith a).settled o) := by
  refine wp_step ⟨rfl, fun _ => hv⟩ fun _ w _ => ?_
  rw [Discipline.wp_bind]
  have hctx : ((Ctx.admittedWith a).settled o).after (.setOp state message) () w =
      { (Ctx.admittedWith a).settled o with phase := .free, owes := false } := by
    simp [hres, Ctx.publish, Ctx.stillOwes, Ctx.settled, Ctx.admittedWith, Ctx.newClient, ha]
  rw [hctx]
  refine wp_ignore_readCard idle_newClient (by simp) (.inl rfl) fun ok => ?_
  exact wp_step trivial fun view _ _ => ⟨idle_newClient, rfl, rfl, rfl, rfl⟩

theorem handles_nickname {body : Option Value} : Handles P t (nickname body) := by
  unfold Handles nickname
  split
  · exact fin_newClient
  · split
    · exact fin_newClient
    · split
      · exact fin_newClient
      · rw [Discipline.wp_bind]
        refine wp_admitRequest (by simp) (fun a ha => ?_) fun answer => fin_newClient
        have hop : (Ctx.admittedWith a).actsOn .nickname := ⟨a.op.id, by rw [← ha]; rfl⟩
        rw [Discipline.wp_bind]
        refine wp_helperLocked_write idle_newClient rfl rfl (.inl ⟨rfl, hop⟩) fun o => ?_
        exact keeps_nicknameAnswered ha (mayPublish_nicknameVerdict hop rfl)
          (nicknameVerdict_resolved o)

/-! ### The receipt worker -/

theorem keeps_deliver {c : Ctx} {eid : String} {seqs : List Nat} {round : Nat}
    (h : ({ c with round := none } : Ctx).IsWorker) (hr : c.round = some (seqs, some eid)) :
    (rules P t).wp (deliver eid seqs round) (regime P t).ends c := by
  obtain ⟨hcard, hread, hdirty, hsaving, hpushed, hclaimed⟩ := h.idle
  have hphase : c.phase = .free := h.phase
  have hop : c.op = none := h.op
  rw [deliver, Discipline.wp_bind, helperLocked]
  refine wp_step hcard fun _ _ _ => ?_
  rw [Discipline.wp_bind]
  refine wp_helper rfl ⟨h.worker, hr⟩ (by simp [hphase]) fun o w => ?_
  have hctx : (({ c with card := true } : Ctx).after (.startHelper (.notify eid seqs))
    () w).answered o
      = { c with card := true } := by
    simp [Ctx.answered, hphase]
  rw [show c.after .lockCard () _ = { c with card := true } from rfl, hctx]
  refine wp_step ⟨rfl, hread⟩ fun _ _ _ => ?_
  refine wp_step ⟨h.worker, ?_⟩ fun _ _ _ => ?_
  · simp [hr]
  · rw [Discipline.wp_bind]
    refine wp_saveState hsaving (wp_step trivial fun pending _ _ => ?_)
    have hagain : (rules P t).wp (do
        onlyIf pending (ask (.sleep (receiptDelays.getD (min round 5) 0)))
        pure (.goto .receiptWorker)) (regime P t).ends
        { c with round := none, dirty := false, saving := none, pushed := false } := by
      have hw : ({ c with round := none, dirty := false, saving := none, pushed := false } :
          Ctx).IsWorker :=
        ⟨⟨hcard, hread, rfl, rfl, rfl, hclaimed⟩, h.worker, h.op, h.phase, h.booting,
          h.client, h.owes⟩
      rw [Discipline.wp_bind]
      exact wp_onlyIf (fun _ => ⟨trivial, fun _ _ _ => hw⟩) fun _ => hw
    have hp : c.pushed = false := hpushed
    have hc : c.card = false := hcard
    cases pending <;> simpa [hp, hc] using hagain

theorem keeps_receiptWorker {c : Ctx} (h : threadPre .receiptWorker c) :
    (rules P t).wp (receiptWorker t) (regime P t).ends c := by
  have hw : c.IsWorker := h
  have hagain : ∀ {r : Option (List Nat × Option String)},
      (rules P t).wp (pure (.goto .receiptWorker)) (regime P t).ends { c with round := r } :=
    ⟨hw.idle, hw.worker, hw.op, hw.phase, hw.booting, hw.client, hw.owes⟩
  rw [receiptWorker]
  refine wp_step hw fun round _ _ => ?_
  rcases round with - | ⟨seqs, - | eid, n⟩
  · exact ⟨hw.idle, hw.phase, rfl, hw.booting, hw.owes⟩
  · exact wp_step trivial fun _ _ _ => hagain
  · refine wp_step trivial fun up _ _ => ?_
    split
    · exact wp_step trivial fun _ _ _ => hagain
    · rw [Discipline.wp_bind]
      have hround : (rules P t).wp (deliver eid seqs n) (regime P t).ends
          { c with round := some (seqs, some eid) } :=
        keeps_deliver ⟨hw.idle, hw.worker, hw.op, hw.phase, hw.booting, hw.client, hw.owes⟩ rfl
      exact wp_onlyIf (fun _ => ⟨trivial, fun _ _ _ => hround⟩) fun _ => hround

/-! ### All threads -/

theorem keeps_http {request : HttpRequest} {c : Ctx} (h : threadPre (.http request) c) :
    (rules P t).wp (threadBody t (.http request)) (regime P t).ends c := by
  have hc : c = .newClient := h
  have hend : ∀ {p : Prog Answer}, Handles P t p → (rules P t).wp (do
      let answer ← p
      Act.reply answer
      pure .stop) (regime P t).ends .newClient := by
    intro p hp
    rw [Discipline.wp_bind]
    exact Discipline.wp_mono _ hp fun c answer hfin => wp_step trivial fun _ _ _ => hfin
  rw [hc]
  cases request with
  | profiles => exact hend handles_profiles
  | refresh => exact hend handles_refresh
  | dashboard => exact hend handles_summary
  | enable body => exact hend (handles_switch rfl)
  | disable body => exact hend (handles_switch rfl)
  | delete body => exact hend (handles_switch rfl)
  | nickname body => exact hend handles_nickname
  | lock body => exact hend handles_lock
  | download body => exact hend handles_download
  | downloadConfirm body => exact hend handles_downloadConfirm
  | downloadCancel body => exact hend handles_downloadCancel
  | receiptsSend => exact hend handles_receiptsSend

/-- **Every thread of the manager keeps the rules**, in whatever order the threads run and
whatever the environment answers. -/
theorem threadBody_keeps (P : Platform) (t : Timing) : (regime P t).Bodies := by
  intro b c h
  cases b with
  | main => exact (show c = .boot from h) ▸ keeps_main
  | http request => exact keeps_http h
  | detect => exact (show c = .newClient from h) ▸ keeps_detect
  | runSwitch kind request => exact keeps_runSwitch h
  | verify kind accepted => exact keeps_verify h
  | verifyLoop kind accepted start => exact keeps_verifyLoop h
  | runDownload request controls => exact keeps_runDownload h
  | downloadLoop controls timedOut => exact keeps_downloadLoop h
  | settleDownload reported => exact keeps_settleDownload h
  | settleLoop reported start => exact keeps_settleLoop h
  | receiptWorker => exact keeps_receiptWorker h

end OpenUI.Agent.Esim
