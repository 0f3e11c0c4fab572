import OpenUI.Proofs.WebApp.Draft

/-!
# `OpenUI.Proofs.WebApp.ReadBack`: the end of a read-back

`read_back_ends` is about every state of the draft reducer. With no submission in flight, as many
observations of one known setting as the limit allows end every read-back: the stored observation is
that setting, or one that the specification counts as the same, and a draft that was not dirty shows
it. With a submission in flight the draft and the frozen snapshot stay as they are.

An observation that does not end the wait adds to the count of stale ones (`observe_awaited`), so
the limit bounds their number. After the end the same observation changes nothing
(`observe_shown`).
-/

set_option autoImplicit false

universe u v

namespace OpenUI.WebApp

open OpenUI.Concurrency

section
variable {O : Type u} {V : Type v} [Truthy V] {spec : DraftSpec O V}

/-- Observations that count as the same show the same value. -/
structure Faithful (spec : DraftSpec O V) : Prop extends Lawful spec where
  shows : ∀ {a b : O}, spec.sameObs a b = true →
    spec.sameValue (spec.draftOf a) (spec.draftOf b) = true

/-- The state a sequence of actions leads to. -/
def runDraft (spec : DraftSpec O V) (s : DraftState O V) (as : List (DraftAction O V)) :
    DraftState O V :=
  as.foldl (reduceDraft spec) s

/-- `n` observe actions that carry the same observation. -/
def observeTimes (spec : DraftSpec O V) (obs : O) (n : Nat) (s : DraftState O V) :
    DraftState O V :=
  runDraft spec s (List.replicate n (.observe obs))

/-- What the observations of `obs` made of the state `s`: nothing is awaited, the stored observation
is `obs` or was one that counts as the same, and a draft that was not dirty shows its value. -/
structure Converged (spec : DraftSpec O V) (s : DraftState O V) (obs : O) (t : DraftState O V) :
    Prop where
  settled : t.verifying = none
  stored : t.observed = obs ∨ t.observed = s.observed ∧ spec.sameObs obs s.observed = true
  shown : isDirty spec s = false → spec.sameValue t.draft (spec.draftOf obs) = true

/-- The actions that find a submission in flight: all but the two that settle it. -/
def DraftAction.waits : DraftAction O V → Bool
  | .observe _ | .edit _ | .cancel | .submit _ => true
  | .applied _ | .failed => false

/-- A state with nothing in flight and nothing awaited whose observation counts as `obs`. -/
structure Shown (spec : DraftSpec O V) (obs : O) (s : DraftState O V) : Prop where
  idle : s.inFlight = false
  settled : s.verifying = none
  same : spec.sameObs obs s.observed = true

/-! ### One observation -/

/-- An observation that the state already shows changes nothing. -/
theorem observe_shown {s : DraftState O V} {obs : O} (h : Shown spec obs s) :
    observe spec s obs = s := by
  unfold observe
  simp only [h.idle, h.settled, h.same, Bool.false_eq_true, if_false, if_true]

/-- However often it comes. -/
theorem observeTimes_shown {s : DraftState O V} {obs : O} (h : Shown spec obs s) (n : Nat) :
    observeTimes spec obs n s = s := by
  induction n with
  | zero => rfl
  | succ n ih =>
    show observeTimes spec obs n (observe spec s obs) = s
    rw [observe_shown h]
    exact ih

/-- With nothing awaited, one observation is enough. -/
theorem observe_settled (law : Faithful spec) {s : DraftState O V} {obs : O}
    (hp : s.inFlight = false) (hv : s.verifying = none) :
    Shown spec obs (observe spec s obs) ∧ Converged spec s obs (observe spec s obs) := by
  have hclean : isDirty spec s = !spec.sameValue s.draft (spec.draftOf s.observed) :=
    isDirty_of_settled hv
  unfold observe
  simp only [hp, hv, Bool.false_eq_true, if_false]
  by_cases hs : spec.sameObs obs s.observed = true
  · -- The same setting in another form: the state stays, and so does the stored form.
    simp only [hs, if_true]
    refine ⟨⟨hp, hv, hs⟩, hv, .inr ⟨rfl, hs⟩, ?_⟩
    intro hd
    rw [hd] at hclean
    have hshows : spec.sameValue s.draft (spec.draftOf s.observed) = true := by
      simpa using hclean
    exact law.value.trans hshows (law.value.symm (law.shows hs))
  · simp only [hs, Bool.false_eq_true, if_false]
    by_cases hm : spec.sameValue s.draft (spec.draftOf s.observed) = true
    · simp only [hm, if_true]
      exact ⟨⟨hp, rfl, law.obs.refl obs⟩, rfl, .inl rfl, fun _ => law.value.refl _⟩
    · -- A dirty draft is kept.
      simp only [hm, Bool.false_eq_true, if_false]
      refine ⟨⟨hp, rfl, law.obs.refl obs⟩, rfl, .inl rfl, ?_⟩
      intro hd
      rw [hd] at hclean
      exact absurd (by simpa using hclean) hm

/-- While a read-back is awaited an observation ends the wait or counts as stale. -/
theorem observe_awaited (law : Faithful spec) {s : DraftState O V} {obs : O} {v : Verifying O V}
    (hp : s.inFlight = false) (hv : s.verifying = some v) (hk : spec.known obs = true) :
    (Shown spec obs (observe spec s obs) ∧ Converged spec s obs (observe spec s obs)) ∨
      v.stale + 1 < verifyStaleLimit ∧
        observe spec s obs = { s with verifying := some { v with stale := v.stale + 1 } } := by
  have hclean : isDirty spec s = !spec.sameValue s.draft v.applied := by
    simp [isDirty, baselineOf, hv]
  unfold observe
  simp only [hp, hv, Bool.false_eq_true, if_false]
  by_cases hc : spec.confirms obs v.applied = true
  · -- Confirmed: a draft that follows the applied value shows the observation.
    simp only [hc, if_true]
    refine .inl ⟨⟨hp, rfl, law.obs.refl obs⟩, rfl, .inl rfl, ?_⟩
    intro hd
    rw [hd] at hclean
    have hfollows : spec.sameValue s.draft v.applied = true := by simpa using hclean
    show spec.sameValue (if spec.sameValue s.draft v.applied = true then _ else _) _ = true
    rw [if_pos hfollows]
    exact law.value.refl _
  · simp only [hc, Bool.false_eq_true, if_false]
    by_cases ho : (stillOld spec v obs && v.stale + 1 < verifyStaleLimit) = true
    · simp only [ho, if_true]
      right
      refine ⟨of_decide_eq_true ((Bool.and_eq_true _ _).mp ho).2, ?_⟩
      trivial
    · -- A third value, or the limit: the draft is what the device reports.
      simp only [ho, hk, Bool.false_eq_true, if_false, if_true]
      exact .inl ⟨⟨hp, rfl, law.obs.refl obs⟩, rfl, .inl rfl, fun _ => law.value.refl _⟩

/-! ### The run -/

/-- Once the state shows the observation, the rest of the run keeps what it has come to. -/
theorem converged_of_shown {s t : DraftState O V} {obs : O} (ht : Shown spec obs t)
    (hc : Converged spec s obs t) (n : Nat) : Converged spec s obs (observeTimes spec obs n t) := by
  rw [observeTimes_shown ht]
  exact hc

/-- A count that reaches the limit within the run ends the read-back. Each observation that does
not end it brings the count nearer. -/
theorem observeTimes_converged (law : Faithful spec) {obs : O} (hk : spec.known obs = true)
    (n : Nat) {s : DraftState O V} (hp : s.inFlight = false)
    (hn : ∀ v, s.verifying = some v → verifyStaleLimit ≤ v.stale + (n + 1)) :
    Converged spec s obs (observeTimes spec obs (n + 1) s) := by
  induction n generalizing s with
  | zero =>
    show Converged spec s obs (observe spec s obs)
    cases hv : s.verifying with
    | none => exact (observe_settled law hp hv).2
    | some v =>
      rcases observe_awaited law hp hv hk with h | h
      · exact h.2
      · have hlimit := hn v hv
        omega
  | succ n ih =>
    show Converged spec s obs (observeTimes spec obs (n + 1) (observe spec s obs))
    cases hv : s.verifying with
    | none =>
      have h : Shown spec obs (observe spec s obs) ∧ Converged spec s obs (observe spec s obs) :=
        observe_settled law hp hv
      exact converged_of_shown h.1 h.2 _
    | some v =>
      rcases observe_awaited law hp hv hk with h | ⟨-, hwait⟩
      · exact converged_of_shown h.1 h.2 _
      · rw [hwait]
        have hrest := ih (s := { s with verifying := some { v with stale := v.stale + 1 } }) hp ?_
        · -- Waiting has changed neither the draft nor the value it is compared with.
          have hsame : isDirty spec { s with verifying := some { v with stale := v.stale + 1 } } =
              isDirty spec s := by simp [isDirty, baselineOf, hv]
          exact ⟨hrest.settled, hrest.stored, fun hd => hrest.shown (hsame.trans hd)⟩
        · intro w hw
          cases hw
          have hlimit := hn v hv
          show verifyStaleLimit ≤ v.stale + 1 + (n + 1)
          omega

/-- A submission in flight owns the draft and its snapshot. -/
theorem reduceDraft_inFlight {s : DraftState O V} {a : DraftAction O V} (hp : s.inFlight = true)
    (ha : a.waits = true) :
    (reduceDraft spec s a).draft = s.draft ∧ (reduceDraft spec s a).pending = s.pending := by
  cases a with
  | observe obs =>
    show (observe spec s obs).draft = s.draft ∧ (observe spec s obs).pending = s.pending
    unfold observe
    simp only [hp, if_true]
    split
    · exact ⟨rfl, rfl⟩
    · exact ⟨rfl, rfl⟩
  | edit update => simp [reduceDraft, hp]
  | cancel => simp [reduceDraft, hp]
  | submit snapshot => simp [reduceDraft, hp]
  | applied snapshot => cases ha
  | failed => cases ha

/-- From every state. With nothing in flight, observations of one known setting, as many as the
limit, end every read-back: the stored observation is that setting or counts as it, and a draft that
was not dirty shows it. With a submission in flight no other action than the two that settle it
changes the draft or the snapshot. -/
theorem read_back_ends (law : Faithful spec) (s : DraftState O V) :
    (s.inFlight = false → ∀ obs, spec.known obs = true →
      Converged spec s obs (observeTimes spec obs verifyStaleLimit s)) ∧
    (s.inFlight = true → ∀ a, a.waits = true →
      (reduceDraft spec s a).draft = s.draft ∧ (reduceDraft spec s a).pending = s.pending) := by
  constructor
  · intro hp obs hk
    refine observeTimes_converged law hk 2 hp ?_
    intro v hv
    show 3 ≤ v.stale + 3
    omega
  · intro hp a ha
    exact reduceDraft_inFlight hp ha

end

/-! ### The two specifications -/

/-- Bands that count as the same are shown alike. -/
theorem bandSpec_faithful : Faithful bandSpec := by
  refine ⟨bandSpec_lawful, ?_⟩
  intro a b h
  cases a with
  | unknown =>
    cases b with
    | unknown => exact bandSpec_lawful.value.refl _
    | automatic => cases h
    | locked bands => cases h
  | automatic =>
    cases b with
    | unknown => cases h
    | automatic => exact bandSpec_lawful.value.refl _
    | locked bands => cases h
  | locked bands =>
    cases b with
    | unknown => cases h
    | automatic => cases h
    | locked other =>
      have hsame : normaliseBands (some bands) = normaliseBands (some other) := sameBands_iff.mp h
      show sameBands (some (normaliseBands (some bands))) (some (normaliseBands (some other))) = true
      rw [hsame]
      exact sameBands_iff.mpr rfl

/-- Modes that count as the same are equal. -/
theorem modeSpec_faithful : Faithful modeSpec := by
  refine ⟨modeSpec_lawful, ?_⟩
  intro a b h
  have hsame : a = b := eq_of_beq h
  rw [hsame]
  exact modeSpec_lawful.value.refl _

/-- A band lock that was applied and is never read back gives way to the one that is, and a
submission of another one keeps the draft. -/
theorem band_read_back_ends :
    Converged bandSpec
      (runDraft bandSpec (initDraft bandSpec (.locked [1]))
        [.edit fun _ => [78], .submit [78], .applied [78]]) (.locked [3, 1])
      (observeTimes bandSpec (.locked [3, 1]) verifyStaleLimit
        (runDraft bandSpec (initDraft bandSpec (.locked [1]))
          [.edit fun _ => [78], .submit [78], .applied [78]])) ∧
    (reduceDraft bandSpec
      (runDraft bandSpec (initDraft bandSpec (.locked [1])) [.edit fun _ => [78], .submit [78]])
      (.observe (.locked [3]))).draft =
    (runDraft bandSpec (initDraft bandSpec (.locked [1]))
      [.edit fun _ => [78], .submit [78]]).draft :=
  ⟨(read_back_ends bandSpec_faithful _).1 rfl _ (by decide),
    ((read_back_ends bandSpec_faithful _).2 rfl _ rfl).1⟩

/-- The stored lock keeps the form it was first read in, and a snapshot that counts as false is not
taken for a submission in flight. -/
theorem stored_form_kept :
    (¬ ∀ s : DraftState BandLockState (List ℚ), s = initDraft bandSpec (.locked [1, 3]) →
      ∀ obs, bandSpec.known obs = true →
        (observeTimes bandSpec obs verifyStaleLimit s).observed = obs) ∧
    ¬ ∀ s : DraftState (Option String) String,
      s = runDraft modeSpec (initDraft modeSpec (some "Only_5G")) [.submit ""] →
      s.pending ≠ none → ∀ a, a.waits = true → (reduceDraft modeSpec s a).draft = s.draft := by
  constructor
  · intro h
    have hkept := h _ rfl (.locked [3, 1]) (by decide)
    revert hkept
    decide +kernel
  · intro h
    have hkept := h _ rfl (by decide +kernel) (.edit fun _ => "Only_LTE") rfl
    revert hkept
    decide +kernel

end OpenUI.WebApp
