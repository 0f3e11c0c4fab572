import OpenUI.Concurrency.Reducer
import OpenUI.WebApp.Draft

/-!
# `OpenUI.Proofs.WebApp.Draft`: edits and conflicts of a draft

Both results are about every sequence of actions from the initial state, under any specification.

* `edits_survive_iff`: an observation leaves an edited draft alone exactly as long as none ends a
  read-back, without confirming it, while the draft holds an edit made meanwhile
  (`edit_lost_to_read_back`).
* `conflicts_reported_iff`: a device change under a dirty draft is reported exactly as long as no
  observation brings one while a submission is in flight, and no submission fails after one
  (`conflict_lost_to_failure`).

A draft becomes dirty against a baseline. While a read-back is awaited the baseline is the applied
value, and the observation that ends the wait brings a new one. So there are two ways to say which
observation was current when the draft last became dirty, and the second result covers both.
-/

set_option autoImplicit false

universe u v

namespace OpenUI.WebApp

open OpenUI.Concurrency

-- The equations are stated here once, before the proofs that rewrite with them.
section
attribute [local simp] reduceDraft sameLock
end

section
variable {O : Type u} {V : Type v} [Truthy V] {spec : DraftSpec O V}

/-! ### Edits -/

/-- The actions that may discard an edit: another edit, a cancel, and an applied submission. -/
def DraftAction.settles : DraftAction O V → Bool
  | .edit _ | .cancel | .applied _ => true
  | .observe _ | .submit _ | .failed => false

/-- An observation changes the draft only if it equalled its baseline, and an edited draft is
changed only by an action that may discard it. -/
structure Spares (spec : DraftSpec O V) (s : DraftState O V) (a : DraftAction O V) : Prop where
  observation : ∀ obs, a = .observe obs → (reduceDraft spec s a).draft ≠ s.draft →
    isDirty spec s = false
  edit : isDirty spec s = true → (reduceDraft spec s a).draft ≠ s.draft → a.settles = true

/-- The observation ends a read-back without confirming it, while the draft is not the applied value
and not what the device reports. -/
def Overtakes (spec : DraftSpec O V) (s : DraftState O V) (obs : O) : Prop :=
  s.inFlight = false ∧ ∃ v, s.verifying = some v ∧ spec.confirms obs v.applied = false ∧
    (stillOld spec v obs && v.stale + 1 < verifyStaleLimit) = false ∧ spec.known obs = true ∧
    spec.sameValue s.draft v.applied = false ∧ spec.draftOf obs ≠ s.draft

/-- What an observation does to a dirty draft: it replaces the draft exactly when it overtakes
it. -/
theorem observe_draft_of_dirty {s : DraftState O V} {obs : O} (hd : isDirty spec s = true) :
    (observe spec s obs).draft ≠ s.draft ↔ Overtakes spec s obs := by
  unfold observe Overtakes
  by_cases hp : s.inFlight = true
  · simp only [hp, if_true]
    split <;> simp
  · simp only [Bool.not_eq_true] at hp
    simp only [hp, Bool.false_eq_true, if_false, true_and]
    cases hv : s.verifying with
    | none =>
      have hne : spec.sameValue s.draft (spec.draftOf s.observed) = false := by
        simpa [isDirty, baselineOf, hv] using hd
      simp only [hne, Bool.false_eq_true, if_false]
      split <;> simp
    | some v =>
      have hne : spec.sameValue s.draft v.applied = false := by
        simpa [isDirty, baselineOf, hv] using hd
      by_cases hc : spec.confirms obs v.applied = true
      · simp [hc, hne]
      · by_cases ho : (stillOld spec v obs && v.stale + 1 < verifyStaleLimit) = true
        · have hw := (Bool.and_eq_true _ _).mp ho
          simp [hc, hw.1, of_decide_eq_true hw.2]
        · have hw : stillOld spec v obs = true → verifyStaleLimit ≤ v.stale + 1 := by simpa using ho
          by_cases hk : spec.known obs = true
          · simpa [hc, ho, hk, hne] using fun _ => hw
          · simp [hc, ho, hk]

/-- A draft that is replaced by an observation that overtakes it was dirty. -/
theorem Overtakes.dirty {s : DraftState O V} {obs : O} (h : Overtakes spec s obs) :
    isDirty spec s = true := by
  obtain ⟨-, v, hv, -, -, -, hne, -⟩ := h
  simp [isDirty, baselineOf, hv, hne]

/-- One step spares the edit exactly when it is no observation that overtakes it. -/
theorem spares_iff {s : DraftState O V} {a : DraftAction O V} :
    Spares spec s a ↔ ∀ obs, a = .observe obs → ¬ Overtakes spec s obs := by
  constructor
  · intro h obs ha ho
    subst ha
    have hclean := h.observation obs rfl ((observe_draft_of_dirty ho.dirty).mpr ho)
    rw [ho.dirty] at hclean
    cases hclean
  · intro h
    have hkept : ∀ obs, a = .observe obs → (reduceDraft spec s a).draft ≠ s.draft →
        isDirty spec s = false := by
      intro obs ha hne
      by_contra hd
      subst ha
      exact h obs rfl ((observe_draft_of_dirty (by simpa using hd)).mp hne)
    refine ⟨hkept, fun hd hne => ?_⟩
    cases a with
    | observe obs => exact absurd hd (by simp [hkept obs rfl hne])
    | submit snapshot =>
      refine absurd ?_ hne
      show (if s.inFlight then s else _ : DraftState O V).draft = s.draft
      split <;> rfl
    | failed => exact absurd rfl hne
    | edit update => rfl
    | cancel => rfl
    | applied snapshot => rfl

/-- In every sequence of actions, edits are lost to nothing but an edit, a cancel or an applied
submission exactly as long as no observation overtakes one. -/
theorem edits_survive_iff (spec : DraftSpec O V) (obs : O) (as : List (DraftAction O V)) :
    Along (reduceDraft spec) (Spares spec) (initDraft spec obs) as ↔
      Along (reduceDraft spec) (fun s a => ∀ o, a = .observe o → ¬ Overtakes spec s o)
        (initDraft spec obs) as := by
  have hsame : (Spares spec : DraftState O V → DraftAction O V → Prop) =
      fun s a => ∀ o, a = .observe o → ¬ Overtakes spec s o := by
    funext s a
    exact propext spares_iff
  rw [hsame]

end

/-- A mode is applied, another one is chosen while the read-back is awaited, and the modem reports a
third. The choice is gone. -/
theorem edit_lost_to_read_back :
    ¬ Along (reduceDraft modeSpec) (Spares modeSpec) (initDraft modeSpec (some "WL_AND_5G"))
      [.submit "Only_LTE", .applied "Only_LTE", .edit fun _ => "Only_5G",
        .observe (some "LTE_AND_5G")] := by
  intro h
  have hclean := h.2.2.2.1.observation (some "LTE_AND_5G") rfl (by decide +kernel)
  revert hclean
  decide +kernel

/-! ### Conflicts -/

section
variable {O : Type u} {V : Type v} [Truthy V] {spec : DraftSpec O V}

/-- Both comparisons of a specification are equivalences. -/
structure Lawful (spec : DraftSpec O V) : Prop where
  value : Equivalence fun a b => spec.sameValue a b = true
  obs : Equivalence fun a b => spec.sameObs a b = true

/-- A draft, and the observation that was current when it last became dirty. -/
structure Watched (O : Type u) (V : Type v) where
  state : DraftState O V
  since : O

/-- A draft that is dirty against an observation. -/
def dirtyAgainstObservation (spec : DraftSpec O V) (s : DraftState O V) : Bool :=
  s.verifying.isNone && isDirty spec s

/-- One action. `dirty` is what becoming dirty means. -/
def watch (spec : DraftSpec O V) (dirty : DraftState O V → Bool) (w : Watched O V)
    (a : DraftAction O V) : Watched O V where
  state := reduceDraft spec w.state a
  since := if dirty (reduceDraft spec w.state a) && !dirty w.state then
    (reduceDraft spec w.state a).observed else w.since

def watchFrom (spec : DraftSpec O V) (obs : O) : Watched O V := ⟨initDraft spec obs, obs⟩

/-- The draft is dirty, no read-back is awaited, and the observation is not the one that was current
when the draft became dirty. -/
def Changed (spec : DraftSpec O V) (w : Watched O V) (obs : O) : Prop :=
  isDirty spec w.state = true ∧ w.state.verifying = none ∧ spec.sameObs obs w.since = false

/-- A change of the device is reported, unless the draft equals what the device shows. -/
def Reported (spec : DraftSpec O V) (w : Watched O V) : Prop :=
  Changed spec w w.state.observed →
    hasConflict spec w.state = true ∨
      spec.sameValue w.state.draft (spec.draftOf w.state.observed) = true

/-- No step lets a change go unnoticed: no submission fails after one, none is brought by an
observation while a submission is in flight, and none by the observation that ends a read-back and
keeps an edit made meanwhile. -/
def Noticed (spec : DraftSpec O V) (dirty : DraftState O V → Bool) (w : Watched O V) :
    DraftAction O V → Prop
  | .failed => ¬ Changed spec w w.state.observed
  | .observe obs =>
    (w.state.inFlight = true → Changed spec w obs → w.state.conflict = true ∨
      spec.sameValue w.state.draft (spec.draftOf obs) = true) ∧
    (w.state.inFlight = false → ∀ v, w.state.verifying = some v →
      spec.confirms obs v.applied = true ∨ spec.known obs = false ∧
        (stillOld spec v obs && v.stale + 1 < verifyStaleLimit) = false →
      dirty w.state = true → spec.sameObs obs w.since = true ∨
        spec.sameValue w.state.draft (spec.draftOf obs) = true)
  | _ => True

/-- What becoming dirty may mean: it says the same as `isDirty` where no read-back is awaited. -/
structure Reading (spec : DraftSpec O V) (dirty : DraftState O V → Bool) : Prop where
  sound : ∀ s, dirty s = true → isDirty spec s = true
  settled : ∀ s, s.verifying = none → dirty s = isDirty spec s

omit [Truthy V] in
theorem reading_isDirty : Reading spec (isDirty spec) := ⟨fun _ h => h, fun _ _ => rfl⟩

omit [Truthy V] in
theorem reading_dirtyAgainstObservation : Reading spec (dirtyAgainstObservation spec) := by
  constructor
  · intro s h
    exact ((Bool.and_eq_true _ _).mp h).2
  · intro s h
    simp [dirtyAgainstObservation, h]

variable {dirty : DraftState O V → Bool}

omit [Truthy V] in
/-- Without a read-back, a dirty draft differs from what the observation shows. -/
theorem isDirty_of_settled {s : DraftState O V} (h : s.verifying = none) :
    isDirty spec s = !spec.sameValue s.draft (spec.draftOf s.observed) := by
  simp [isDirty, baselineOf, h]

/-- A draft that was not dirty before has nothing to report. -/
theorem reported_of_clean (law : Lawful spec) (rd : Reading spec dirty) {w : Watched O V}
    (a : DraftAction O V) (h : dirty w.state = false) : Reported spec (watch spec dirty w a) := by
  intro hc
  have hd : dirty (reduceDraft spec w.state a) = true := (rd.settled _ hc.2.1).trans hc.1
  have hs := hc.2.2
  simp only [watch, hd, h, Bool.not_false, Bool.and_self, if_true] at hs
  rw [law.obs.refl] at hs
  cases hs

/-- A draft that stays dirty keeps its observation. -/
theorem watch_of_dirty {w : Watched O V} (a : DraftAction O V) (h : dirty w.state = true) :
    watch spec dirty w a = ⟨reduceDraft spec w.state a, w.since⟩ := by
  simp [watch, h]

/-- Only a dirty draft can miss a change. -/
theorem noticed_of_clean (rd : Reading spec dirty) {w : Watched O V} (a : DraftAction O V)
    (h : dirty w.state = false) : Noticed spec dirty w a := by
  have hno : ∀ obs, ¬ Changed spec w obs := by
    intro obs hc
    rw [rd.settled _ hc.2.1, hc.1] at h
    cases h
  cases a with
  | observe obs =>
    exact ⟨fun _ hc => absurd hc (hno obs), fun _ _ _ _ hd => by rw [h] at hd; cases hd⟩
  | failed => exact hno _
  | edit update => trivial
  | cancel => trivial
  | submit snapshot => trivial
  | applied snapshot => trivial

omit [Truthy V] in
/-- Nothing is missed while a read-back is awaited. -/
theorem reported_of_verifying {s : DraftState O V} {since : O} (h : s.verifying ≠ none) :
    Reported spec ⟨s, since⟩ := fun hc => absurd hc.2.1 h

omit [Truthy V] in
/-- Nothing is missed under a draft that is not dirty. -/
theorem reported_of_not_dirty {s : DraftState O V} {since : O} (h : isDirty spec s = false) :
    Reported spec ⟨s, since⟩ := fun hc => by rw [hc.1] at h; cases h

omit [Truthy V] in
/-- Nothing is missed under a conflict. -/
theorem reported_of_conflict {s : DraftState O V} {since : O} (h : s.conflict = true) :
    Reported spec ⟨s, since⟩ := fun hc => .inl (by rw [hasConflict, h, hc.1]; rfl)

omit [Truthy V] in
/-- Without a conflict and a read-back, what is reported is that the draft equals the observation,
or that the observation is still the one it became dirty under. -/
theorem reported_iff {s : DraftState O V} {since : O} (hc : s.conflict = false)
    (hv : s.verifying = none) : Reported spec ⟨s, since⟩ ↔
      spec.sameObs s.observed since = true ∨
        spec.sameValue s.draft (spec.draftOf s.observed) = true := by
  unfold Reported Changed hasConflict
  simp only [hc, hv, isDirty_of_settled hv]
  cases spec.sameObs s.observed since <;>
    cases spec.sameValue s.draft (spec.draftOf s.observed) <;> simp

/-- An observation while a submission is in flight. -/
theorem reported_pending (law : Lawful spec) {w : Watched O V} {obs : O} (hw : Reported spec w)
    (hd : isDirty spec w.state = true) (hp : w.state.inFlight = true) :
    Reported spec ⟨observe spec w.state obs, w.since⟩ ↔
      (Changed spec w obs → w.state.conflict = true ∨
        spec.sameValue w.state.draft (spec.draftOf obs) = true) := by
  unfold observe
  simp only [hp, if_true]
  by_cases hs : spec.sameObs obs w.state.observed = true
  · -- The same observation as before: what was reported still is.
    simp only [hs, if_true]
    refine iff_of_true hw fun hc => ?_
    have hold : spec.sameObs w.state.observed w.since = false := by
      rw [Bool.eq_false_iff]
      exact fun h => Bool.eq_false_iff.mp hc.2.2 (law.obs.trans hs h)
    have hne : isDirty spec w.state =
        !spec.sameValue w.state.draft (spec.draftOf w.state.observed) := isDirty_of_settled hc.2.1
    rcases hw ⟨hc.1, hc.2.1, hold⟩ with h | h
    · exact .inl ((Bool.and_eq_true _ _).mp h).1
    · rw [hd, h] at hne
      cases hne
  · simp only [hs, Bool.false_eq_true, if_false]
    cases hv : w.state.verifying with
    | some v =>
      exact iff_of_true (reported_of_verifying (by simp)) fun hc => by simp [hc.2.1] at hv
    | none =>
      cases hc : w.state.conflict with
      | true => exact iff_of_true (reported_of_conflict rfl) fun _ => .inl rfl
      | false =>
        rw [reported_iff rfl rfl]
        unfold Changed
        simp only [hd, hv]
        cases spec.sameObs obs w.since <;> simp

/-- An observation while a read-back is awaited and the draft holds an edit made meanwhile. -/
theorem reported_awaited {s : DraftState O V} {since obs : O} {v : Verifying O V}
    (hp : s.inFlight = false) (hv : s.verifying = some v) (hl : spec.sameValue s.draft v.applied =
      false)
    (law : Lawful spec) : Reported spec ⟨observe spec s obs, since⟩ ↔
      (spec.confirms obs v.applied = true ∨ spec.known obs = false ∧
        (stillOld spec v obs && v.stale + 1 < verifyStaleLimit) = false →
      spec.sameObs obs since = true ∨ spec.sameValue s.draft (spec.draftOf obs) = true) := by
  unfold observe
  simp only [hp, hv, hl, Bool.false_eq_true, if_false]
  by_cases hc : spec.confirms obs v.applied = true
  · simp only [hc, if_true, true_or, true_implies]
    exact reported_iff rfl rfl
  · simp only [hc, Bool.false_eq_true, if_false, false_or]
    by_cases ho : (stillOld spec v obs && v.stale + 1 < verifyStaleLimit) = true
    · -- The wait goes on.
      simp only [ho, if_true, Bool.true_eq_false, and_false, false_implies, iff_true]
      exact reported_of_verifying (by simp)
    · simp only [Bool.not_eq_true] at ho
      simp only [ho, Bool.false_eq_true, if_false, and_true]
      by_cases hk : spec.known obs = true
      · -- The draft is what the device reports.
        simp only [hk, if_true, Bool.true_eq_false, false_implies, iff_true]
        refine reported_of_not_dirty ?_
        rw [isDirty_of_settled rfl, law.value.refl]
        rfl
      · simp only [Bool.not_eq_true] at hk
        simp only [hk, Bool.false_eq_true, if_false, true_implies]
        exact reported_iff rfl rfl

/-- An observation with nothing in flight and no read-back awaited is always reported. -/
theorem reported_idle (law : Lawful spec) {w : Watched O V} {obs : O} (hw : Reported spec w)
    (hp : w.state.inFlight = false) (hv : w.state.verifying = none) :
    Reported spec ⟨observe spec w.state obs, w.since⟩ := by
  unfold observe
  simp only [hp, hv, Bool.false_eq_true, if_false]
  split
  · exact hw
  · split
    · refine reported_of_not_dirty ?_
      rw [isDirty_of_settled rfl, law.value.refl]
      rfl
    · cases hm : spec.sameValue w.state.draft (spec.draftOf obs) with
      | true => exact reported_of_not_dirty (by rw [isDirty_of_settled rfl, hm]; rfl)
      | false => exact reported_of_conflict rfl

/-- An edit of a dirty draft keeps what was reported. -/
theorem reported_edit {s : DraftState O V} {since : O} (hd : isDirty spec s = true)
    (hw : Reported spec ⟨s, since⟩) (update : V → V) :
    Reported spec ⟨reduceDraft spec s (.edit update), since⟩ := by
  show Reported spec ⟨if s.inFlight then s else _, since⟩
  split
  · exact hw
  cases hv : s.verifying with
  | some v => exact reported_of_verifying (by simp)
  | none =>
    cases hm : spec.sameValue (update s.draft) (spec.draftOf s.observed) with
    | true => exact reported_of_not_dirty (by rw [isDirty_of_settled rfl, hm]; rfl)
    | false =>
      cases hc : s.conflict with
      | true => exact reported_of_conflict rfl
      | false =>
        -- Without a conflict the observation is still the one the draft became dirty under.
        have hne : isDirty spec s = !spec.sameValue s.draft (spec.draftOf s.observed) :=
          isDirty_of_settled hv
        rcases (reported_iff hc hv).mp hw with h | h
        · exact (reported_iff rfl rfl).mpr (.inl h)
        · rw [hd, h] at hne
          cases hne

/-- A cancel leaves nothing to report. -/
theorem reported_cancel (law : Lawful spec) {s : DraftState O V} {since : O}
    (hw : Reported spec ⟨s, since⟩) : Reported spec ⟨reduceDraft spec s .cancel, since⟩ := by
  show Reported spec ⟨if s.inFlight then s else _, since⟩
  split
  · exact hw
  cases hv : s.verifying with
  | some v => exact reported_of_verifying (by simp)
  | none =>
    refine reported_of_not_dirty ?_
    rw [isDirty_of_settled rfl, baselineOf, hv, law.value.refl]
    rfl

/-- A failed submission forgets the conflict. -/
theorem reported_failed {w : Watched O V} (hd : isDirty spec w.state = true) :
    Reported spec ⟨reduceDraft spec w.state .failed, w.since⟩ ↔
      ¬ Changed spec w w.state.observed := by
  cases hv : w.state.verifying with
  | some v =>
    refine iff_of_true (reported_of_verifying ?_) fun hc => ?_
    · show w.state.verifying ≠ none
      simp [hv]
    · rw [hc.2.1] at hv
      cases hv
  | none =>
    have hne : spec.sameValue w.state.draft (spec.draftOf w.state.observed) = false := by
      simpa [isDirty_of_settled hv] using hd
    have hsettled : (reduceDraft spec w.state .failed).verifying = none := hv
    rw [reported_iff rfl hsettled]
    show spec.sameObs w.state.observed w.since = true ∨
      spec.sameValue w.state.draft (spec.draftOf w.state.observed) = true ↔ _
    unfold Changed
    simp [hd, hv, hne]

/-- One action keeps every change reported exactly when it lets none go unnoticed. -/
theorem reported_step (law : Lawful spec) (rd : Reading spec dirty) {w : Watched O V}
    (hw : Reported spec w) (a : DraftAction O V) :
    Reported spec (watch spec dirty w a) ↔ Noticed spec dirty w a := by
  by_cases hd : dirty w.state = true
  swap
  · simp only [Bool.not_eq_true] at hd
    exact iff_of_true (reported_of_clean law rd a hd) (noticed_of_clean rd a hd)
  have hdirty := rd.sound _ hd
  rw [watch_of_dirty a hd]
  cases a with
  | observe obs =>
    cases hp : w.state.inFlight with
    | true =>
      show Reported spec ⟨observe spec w.state obs, w.since⟩ ↔ _ ∧ _
      rw [reported_pending law hw hdirty hp, hp]
      simp
    | false =>
      show Reported spec ⟨observe spec w.state obs, w.since⟩ ↔ _ ∧ _
      cases hv : w.state.verifying with
      | none =>
        refine iff_of_true (reported_idle law hw hp hv) ?_
        simp [hp]
      | some v =>
        have hl : spec.sameValue w.state.draft v.applied = false := by
          simpa [isDirty, baselineOf, hv] using hdirty
        rw [reported_awaited hp hv hl law]
        simp [hp, hd]
  | edit update => exact iff_of_true (reported_edit hdirty hw update) trivial
  | cancel => exact iff_of_true (reported_cancel law hw) trivial
  | submit snapshot =>
    refine iff_of_true ?_ trivial
    show Reported spec ⟨if w.state.inFlight then w.state else _, w.since⟩
    split
    · exact hw
    · exact hw
  | applied snapshot => exact iff_of_true (reported_of_verifying (by simp [reduceDraft])) trivial
  | failed => exact reported_failed hdirty

/-- In every sequence of actions, changes of the device under a dirty draft are reported exactly as
long as no step lets one go unnoticed. This holds when a draft becomes dirty once it differs from
its baseline, and also when the observation that ends a read-back counts as a new baseline. -/
theorem conflicts_reported_iff (law : Lawful spec) (obs : O) (as : List (DraftAction O V)) :
    (Along (watch spec (isDirty spec))
        (fun w a => Reported spec (watch spec (isDirty spec) w a)) (watchFrom spec obs) as ↔
      Along (watch spec (isDirty spec)) (Noticed spec (isDirty spec)) (watchFrom spec obs) as) ∧
    (Along (watch spec (dirtyAgainstObservation spec))
        (fun w a => Reported spec (watch spec (dirtyAgainstObservation spec) w a))
        (watchFrom spec obs) as ↔
      Along (watch spec (dirtyAgainstObservation spec))
        (Noticed spec (dirtyAgainstObservation spec)) (watchFrom spec obs) as) := by
  have hinit : Reported spec (watchFrom spec obs) := by
    refine reported_of_not_dirty ?_
    rw [isDirty_of_settled rfl]
    show (!spec.sameValue (spec.draftOf obs) (spec.draftOf obs)) = false
    rw [law.value.refl]
    rfl
  constructor
  · exact along_iff hinit fun w a hw => reported_step law reading_isDirty hw a
  · exact along_iff hinit fun w a hw => reported_step law reading_dirtyAgainstObservation hw a

end

/-- The network mode specification compares by equality. -/
theorem modeSpec_lawful : Lawful modeSpec := by
  constructor
  · constructor <;> simp [modeSpec]
  · constructor <;> simp [modeSpec]

/-- The change is reported under an edited network mode, and a cancel ends it. -/
theorem mode_conflict_reported :
    Along (watch modeSpec (isDirty modeSpec))
      (fun w a => Reported modeSpec (watch modeSpec (isDirty modeSpec) w a))
      (watchFrom modeSpec (some "WL_AND_5G"))
      [.edit fun _ => "Only_5G", .observe (some "Only_LTE"), .cancel] := by
  refine (conflicts_reported_iff modeSpec_lawful _ _).1.mpr ⟨trivial, ⟨?_, ?_⟩, trivial, trivial⟩
  · intro hp
    exact absurd hp (by decide)
  · intro _ v hv
    cases hv

/-- The conflict of an edited network mode is gone once a submission has failed. -/
theorem conflict_lost_to_failure :
    ¬ Along (watch modeSpec (isDirty modeSpec))
      (fun w a => Reported modeSpec (watch modeSpec (isDirty modeSpec) w a))
      (watchFrom modeSpec (some "WL_AND_5G"))
      [.edit fun _ => "Only_5G", .observe (some "Only_LTE"), .submit "Only_5G", .failed] := by
  intro h
  have hreport := h.2.2.2.1 ⟨by decide +kernel, rfl, by decide +kernel⟩
  revert hreport
  decide +kernel

/-! ### The band specification -/

/-- Bands are the same when their normal forms are. -/
theorem sameBands_iff {a b : Option (List ℚ)} :
    sameBands a b = true ↔ normaliseBands a = normaliseBands b := by
  unfold sameBands
  generalize normaliseBands a = x
  generalize normaliseBands b = y
  induction x generalizing y with
  | nil => cases y <;> simp
  | cons p x ih =>
    cases y with
    | nil => simp
    | cons q y =>
      have htail := ih y
      simp only [List.length_cons, List.zip_cons_cons, List.all_cons, Bool.and_eq_true,
        beq_iff_eq, Nat.add_right_cancel_iff, List.cons.injEq] at htail ⊢
      rw [← htail]
      tauto

/-- The band lock specification compares by the bands, whatever their order. -/
theorem bandSpec_lawful : Lawful bandSpec := by
  have hequal : (fun a b => bandSpec.sameValue a b = true) =
      fun a b => normaliseBands (some a) = normaliseBands (some b) := by
    funext a b
    exact propext sameBands_iff
  constructor
  · rw [hequal]
    exact ⟨fun _ => rfl, Eq.symm, Eq.trans⟩
  · constructor
    · intro a
      cases a <;> simp [bandSpec, sameLock, sameBands_iff]
    · intro a b
      cases a <;> cases b <;> simp only [bandSpec, sameLock, sameBands_iff, imp_self,
        Bool.false_eq_true]
      exact Eq.symm
    · intro a b c
      cases a <;> cases b <;> cases c <;>
        simp only [bandSpec, sameLock, sameBands_iff, imp_self, Bool.false_eq_true, false_implies,
          implies_true]
      exact Eq.trans

end OpenUI.WebApp
