import OpenUI.Agent.ChargePolicy

/-!
# `OpenUI.Proofs.Agent.ChargePolicy`: an update of the charge policy is all or nothing

`update` changes the charger, the policy file and the enforcer's own copy, and undoes the first two
when a later step fails. Undoing the file means writing the enforcer's copy into it. So the file is
as it was before if that copy is what it held, and `update_atomic` shows that nothing else can go
wrong. The two differ when the file could not be read at start-up, was absent or held no policy.

* `upholds_setStopped`, `upholds_snapshot`, `upholds_persist`: what the calls of the hardware do.
* `upholds_update`: what an update does, however its calls end.
* `play_lost`: the run in which the file is not as before.
-/

set_option autoImplicit false

namespace OpenUI.Agent.ChargePolicy

open OpenUI.Concurrency OpenUI.Concurrency.Program

/-! ### What an update promises -/

/-- What `snapshot` reads of a device. A status file that cannot be read says nothing. -/
structure Snapshot.Of (snap : Snapshot) (d : Device) : Prop where
  stopped : snap.stopped = d.stopped
  capacity : d.capacity = some snap.capacity
  discharging : snap.discharging = d.discharging ∨ snap.discharging = false

/-- The charger does what the command or the new policy asks for, and the new policy is saved. -/
structure Changed (u : ChargeUpdate) (s : LimitState) (d : Device) (s' : LimitState) (d' : Device) :
    Prop where
  charger : ∃ snap : Snapshot, snap.Of d ∧
    d'.stopped = u.chargingStopped.getD (desired (u.policy s.policy) snap)
  policy : s'.policy = u.policy s.policy
  manual : s'.manualOverride =
    u.chargingStopped.getD (if u.policyChanged then false else s.manualOverride)
  saved : u.policyChanged = true → d'.saved = .policy (u.policy s.policy)

/-- An update happened, or nothing did. What a failed one leaves of the device counts only if the
calls that undo it succeeded. -/
structure AllOrNothing (u : ChargeUpdate) (s : LimitState) (d : Device) (r : Except Failure Unit)
    (s' : LimitState) (d' : Device) : Prop where
  policy : ∀ f, r = .error f → s'.policy = s.policy
  manual : ∀ f, r = .error f → s'.manualOverride = s.manualOverride
  charger : ∀ f, r = .error f → f.restored = true → d'.stopped = d.stopped
  saved : ∀ f, r = .error f → f.restored = true → d'.saved = d.saved
  changed : r = .ok () → Changed u s d s' d'

/-- If the update writes the policy file, the file holds the enforcer's policy. -/
def Synced (u : ChargeUpdate) (s : LimitState) (d : Device) : Prop :=
  u.policyChanged = true → (u.policy s.policy).valid = true →
    (∃ c, d.capacity = some c ∧ c ≤ 100) → d.saved = .policy s.policy

/-! ### The hardware -/

/-- What a part of an update does to a device, however its calls end. -/
abbrev Does {α : Type} (p : Program Call α) (d : Device) (Q : α → Device → Prop) : Prop :=
  p.Upholds Device.exec (fun _ => true) (fun _ => True) Q d

/-- The charger's mode, read. -/
theorem upholds_stoppedState (d : Device) :
    Does stoppedState d fun r d' => d' = d ∧ ∀ b, r = .ok b → b = d.stopped := by
  refine .act trivial fun e r d' _ he => ?_
  cases e with
  | none =>
    cases he
    unfold modeOf
    cases d.stopped with
    | false => exact .pure trivial ⟨rfl, fun b hb => (Except.ok.inj hb).symm⟩
    | true => exact .pure trivial ⟨rfl, fun b hb => (Except.ok.inj hb).symm⟩
  | failed m =>
    cases he
    exact .pure trivial ⟨rfl, fun b hb => by cases hb⟩
  | late m => cases he
  | odd mode =>
    simp only [Device.exec] at he
    split at he
    · cases he
    · rename_i hodd
      cases he
      split
      · contradiction
      · exact absurd (.inl (Except.ok.inj ‹_›)) hodd
      · exact absurd (.inr (Except.ok.inj ‹_›)) hodd
      · exact .pure trivial ⟨rfl, fun b hb => by cases hb⟩

/-- The reads that confirm a command change nothing. -/
theorem upholds_confirmed (stopped : Bool) (n : Nat) (d : Device) :
    Does (confirmed stopped n) d fun r d' => d' = d ∧ (r = .ok () → d.stopped = stopped) := by
  induction n with
  | zero => exact .pure trivial ⟨rfl, fun h => by cases h⟩
  | succ n ih =>
    refine .bind (upholds_stoppedState d) fun r d' _ h => ?_
    obtain ⟨rfl, hread⟩ := h
    split
    · exact .pure trivial ⟨rfl, fun h => by cases h⟩
    · rename_i state
      split
      · rename_i hstate
        have hd : state = d'.stopped := hread state rfl
        exact .pure trivial ⟨rfl, fun _ => hd.symm.trans hstate⟩
      · exact ih

/-- A command changes nothing but the charger, and a confirmed one did. -/
theorem upholds_setStopped (stopped : Bool) (d : Device) :
    Does (setStopped stopped) d fun r d' =>
      (∃ b, d' = { d with stopped := b }) ∧ (r = .ok () → d'.stopped = stopped) := by
  have hself : ∃ b, d = { d with stopped := b } := ⟨d.stopped, rfl⟩
  refine .act trivial fun e r d₁ _ he => ?_
  have hframe : ∃ b, d₁ = { d with stopped := b } := by
    cases e with
    | none | late m => cases he; exact ⟨_, rfl⟩
    | failed m | odd mode => cases he; exact hself
  obtain ⟨b, rfl⟩ := hframe
  split
  · exact .pure trivial ⟨⟨b, rfl⟩, fun h => by cases h⟩
  · refine (upholds_confirmed stopped 3 _).mono fun r d' _ h => ?_
    obtain ⟨rfl, hconfirmed⟩ := h
    exact ⟨⟨b, rfl⟩, hconfirmed⟩

/-- The battery and the charger, read. -/
theorem upholds_snapshot (d : Device) :
    Does snapshot d fun r d' => d' = d ∧ ∀ snap, r = .ok snap →
      snap.Of d ∧ ∃ c, d.capacity = some c ∧ c ≤ 100 := by
  refine .act trivial fun e r d₁ _ he => ?_
  have hread : d₁ = d ∧ (r = d.capacity ∨ r = none) := by
    cases e with
    | none => cases he; exact ⟨rfl, .inl rfl⟩
    | failed m => cases he; exact ⟨rfl, .inr rfl⟩
    | late m | odd mode => cases he
  obtain ⟨rfl, hcapacity⟩ := hread
  split
  · exact .pure trivial ⟨rfl, fun snap h => by cases h⟩
  · rename_i capacity hfilter
    obtain ⟨hsome, hle⟩ := Option.filter_eq_some_iff.mp hfilter
    have hd : d₁.capacity = some capacity := by
      rcases hcapacity with h | h
      · rw [← h, hsome]
      · rw [h] at hsome
        cases hsome
    refine .bind (upholds_stoppedState d₁) fun r d₂ _ h => ?_
    obtain ⟨rfl, hstopped⟩ := h
    split
    · exact .pure trivial ⟨rfl, fun snap h => by cases h⟩
    · rename_i stopped
      refine .act trivial fun e discharging d₃ _ he => ?_
      have hstatus : d₃ = d₂ ∧ (discharging = d₂.discharging ∨ discharging = false) := by
        cases e with
        | none => cases he; exact ⟨rfl, .inl rfl⟩
        | failed m => cases he; exact ⟨rfl, .inr rfl⟩
        | late m | odd mode => cases he
      obtain ⟨rfl, hdischarging⟩ := hstatus
      refine .pure trivial ⟨rfl, fun snap h => ?_⟩
      obtain rfl := Except.ok.inj h
      exact ⟨⟨hstopped stopped rfl, hd, hdischarging⟩, capacity, hd, by simpa using hle⟩

/-- A write of the policy changes nothing but the file, and does so if it succeeds. -/
theorem upholds_persist (policy : Persisted) (d : Device) :
    Does (persist policy) d fun r d' =>
      (d' = d ∨ d' = { d with saved := .policy policy }) ∧
      (r = .ok () → d' = { d with saved := .policy policy }) := by
  refine .act trivial fun e r d₁ _ he => ?_
  cases e with
  | none =>
    cases he
    exact .pure trivial ⟨.inr rfl, fun _ => rfl⟩
  | failed m =>
    cases he
    exact .pure trivial ⟨.inl rfl, fun h => by cases h⟩
  | late m =>
    cases he
    exact .pure trivial ⟨.inr rfl, fun h => by cases h⟩
  | odd mode => cases he

/-! ### The update -/

section Update

variable {u : ChargeUpdate} {s : LimitState} {d : Device}

/-- An update that failed, with the enforcer as before. -/
theorem AllOrNothing.of_failed {f : Failure} {d' : Device}
    (hcharger : f.restored = true → d'.stopped = d.stopped)
    (hsaved : f.restored = true → d'.saved = d.saved) : AllOrNothing u s d (.error f) s d' where
  policy _ _ := rfl
  manual _ _ := rfl
  charger f' hf hok := by
    obtain rfl := Except.error.inj hf
    exact hcharger hok
  saved f' hf hok := by
    obtain rfl := Except.error.inj hf
    exact hsaved hok
  changed h := by cases h

/-- An update that happened. -/
theorem AllOrNothing.of_changed {s' : LimitState} {d' : Device} (h : Changed u s d s' d') :
    AllOrNothing u s d (.ok ()) s' d' where
  policy _ hf := by cases hf
  manual _ hf := by cases hf
  charger _ hf := by cases hf
  saved _ hf := by cases hf
  changed _ := h

/-- A failure that leaves the device as it was. -/
theorem AllOrNothing.of_unchanged {f : Failure} : AllOrNothing u s d (.error f) s d :=
  .of_failed (fun _ => rfl) (fun _ => rfl)

/-- The result of a call that went well. -/
theorem eq_ok_of_isOk {r : Except String Unit} (h : r.isOk = true) : r = .ok () := by
  cases r with
  | error _ => cases h
  | ok _ => rfl

/-- The policy is saved and adopted, or the charger and the file are as before. -/
theorem upholds_adopt {before : Snapshot} {d₁ : Device} (hbefore : before.Of d)
    (hframe : ∃ b, d₁ = { d with stopped := b })
    (hset : d₁.stopped = u.chargingStopped.getD (desired (u.policy s.policy) before))
    (hsaved : u.policyChanged = true → d.saved = .policy s.policy) :
    Does (adopt u (u.policy s.policy) before s) d₁ fun x d' =>
      AllOrNothing u s d x.1 x.2 d' := by
  obtain ⟨b, rfl⟩ := hframe
  have hchanged : ∀ d' : Device, d'.stopped = b →
      (u.policyChanged = true → d'.saved = .policy (u.policy s.policy)) →
      AllOrNothing u s d (.ok ()) { s with
        policy := u.policy s.policy
        manualOverride :=
          u.chargingStopped.getD (if u.policyChanged then false else s.manualOverride) } d' := by
    intro d' hstopped hfile
    exact .of_changed ⟨⟨before, hbefore, hstopped.trans hset⟩, rfl, rfl, hfile⟩
  unfold adopt
  by_cases hpolicy : u.policyChanged = true
  · simp only [hpolicy, if_true]
    refine .bind (upholds_persist _ _) fun r d₂ _ h => ?_
    obtain ⟨hd₂, hwritten⟩ := h
    split
    · -- The charger and the file are restored.
      refine .bind (upholds_setStopped before.stopped d₂) fun restored d₃ _ h => ?_
      obtain ⟨⟨b', rfl⟩, hrestored⟩ := h
      refine .bind (upholds_persist s.policy _) fun stored d₄ _ h => ?_
      obtain ⟨hd₄, hstored⟩ := h
      refine .pure trivial (.of_failed (fun hok => ?_) (fun hok => ?_))
      · have hb' : b' = before.stopped := hrestored (eq_ok_of_isOk (Bool.and_eq_true_iff.mp hok).1)
        rcases hd₄ with rfl | rfl
        · exact hb'.trans hbefore.stopped
        · exact hb'.trans hbefore.stopped
      · have hfile := hstored (eq_ok_of_isOk (Bool.and_eq_true_iff.mp hok).2)
        rw [hfile]
        exact (hsaved hpolicy).symm
    · have hd₂ := hwritten rfl
      subst hd₂
      have hresult := hchanged { d with stopped := b, saved := .policy (u.policy s.policy) } rfl
        fun _ => rfl
      simp only [hpolicy, if_true] at hresult
      exact .pure trivial hresult
  · simp only [hpolicy]
    have hresult := hchanged { d with stopped := b } rfl fun h => absurd h hpolicy
    simp only [hpolicy] at hresult
    exact .pure trivial hresult

/-- The closure of `update`. -/
theorem upholds_change (hsynced : Synced u s d) (hvalid : (u.policy s.policy).valid = true) :
    Does (change u (u.policy s.policy) s) d fun x d' => AllOrNothing u s d x.1 x.2 d' := by
  refine .bind (upholds_snapshot d) fun r d₁ _ h => ?_
  obtain ⟨rfl, hread⟩ := h
  split
  · exact .pure trivial .of_unchanged
  · rename_i before
    obtain ⟨hbefore, hcapacity⟩ := hread before rfl
    refine .bind (upholds_setStopped _ d₁) fun set d₂ _ h => ?_
    obtain ⟨⟨b, rfl⟩, hset⟩ := h
    split
    · refine .bind (upholds_setStopped before.stopped _) fun rollback d₃ _ h => ?_
      obtain ⟨⟨b', rfl⟩, hrollback⟩ := h
      refine .pure trivial (.of_failed (fun hok => ?_) (fun _ => rfl))
      have hb' : b' = before.stopped := hrollback (eq_ok_of_isOk hok)
      exact hb'.trans hbefore.stopped
    · exact upholds_adopt hbefore ⟨b, rfl⟩ (hset rfl) fun hp => hsynced hp hvalid hcapacity

/-- An update whose file and policy agree is all or nothing. -/
theorem upholds_update (hsynced : Synced u s d) :
    Does (update u s) d fun x d' => AllOrNothing u s d x.1 x.2 d' := by
  unfold update
  split
  · exact .pure trivial .of_unchanged
  · split
    · exact .pure trivial .of_unchanged
    · rename_i hvalid
      have hvalid : (u.policy s.policy).valid = true := by simpa using hvalid
      refine .bind (upholds_change hsynced hvalid) fun x d' _ h => ?_
      -- The last error is not part of what an update promises.
      exact .pure trivial ⟨h.policy, h.manual, h.charger, h.saved, fun hok =>
        ⟨(h.changed hok).charger, (h.changed hok).policy, (h.changed hok).manual,
          (h.changed hok).saved⟩⟩

/-! ### The update that does not -/

/-- A command, and the read that confirms it. -/
theorem play_setStopped {α : Type} (stopped : Bool) (f : Except String Unit → Program Call α)
    (es : List Fault) (d : Device) :
    (setStopped stopped >>= f).play Device.exec (.none :: .none :: es) d =
      (f (.ok ())).play Device.exec es { d with stopped } := by
  cases stopped with
  | false => rfl
  | true => rfl

/-- The reads of the battery and the charger. -/
theorem play_snapshot {α : Type} {c : UInt8} (hc : d.capacity = some c) (hle : c ≤ 100)
    (f : Except String Snapshot → Program Call α) (es : List Fault) :
    (snapshot >>= f).play Device.exec (.none :: .none :: .none :: es) d =
      (f (.ok ⟨d.stopped, c, d.discharging⟩)).play Device.exec es d := by
  have hfilter : d.capacity.filter (· ≤ 100) = some c := by simp [hc, hle]
  have hcapacity : Device.exec .capacity .none d = some (d.capacity, d) := rfl
  have hmode : Device.exec .list .none d = some (.ok (some (modeOf d.stopped)), d) := rfl
  rw [snapshot, bind_assoc, play_act hcapacity, hfilter]
  dsimp only
  rw [stoppedState, bind_assoc, bind_assoc, play_act hmode]
  obtain ⟨stopped, saved, capacity, discharging⟩ := d
  cases stopped with
  | false => rfl
  | true => rfl

/-- Every call works but the write of the new policy. -/
def diskFull : List Fault :=
  [.none, .none, .none, .none, .none, .failed "no space left", .none, .none, .none]

/-- The failure of such an update. -/
def notSaved : Failure := .saved "saving charge policy: no space left" (.ok ()) (.ok ())

/-- Then the update fails, every call that undoes it succeeds, and the file holds what the enforcer
knew. -/
theorem play_lost {c : UInt8} (hc : d.capacity = some c) (hle : c ≤ 100)
    (hpolicy : u.policyChanged = true) (hvalid : (u.policy s.policy).valid = true) :
    (update u s).play Device.exec diskFull d =
      some (some (.error notSaved, { s with lastError := some notSaved }),
        { d with saved := .policy s.policy }) := by
  have hrequest : ¬(((!u.policyChanged) = true) ∧ u.chargingStopped.isNone = true) := by
    simp [hpolicy]
  have hinvalid : ¬((!(u.policy s.policy).valid) = true) := by simp [hvalid]
  rw [update, if_neg hrequest, if_neg hinvalid, change, bind_assoc, diskFull,
    play_snapshot hc hle]
  dsimp only
  rw [bind_assoc, play_setStopped]
  dsimp only
  rw [adopt, hpolicy, if_pos rfl, persist, bind_assoc, bind_assoc, play_act rfl]
  show ((setStopped d.stopped >>= _) >>= _).play _ _ _ = _
  rw [bind_assoc, play_setStopped]
  rfl

/-- **An update of the charge policy is all or nothing**, however its calls end: exactly when it
does not write the policy file, or the file holds the policy that the enforcer has in memory. -/
theorem update_atomic (u : ChargeUpdate) (s : LimitState) (d : Device) :
    (∀ answers r s' d', (update u s).play Device.exec answers d = some (some (r, s'), d') →
      AllOrNothing u s d r s' d') ↔ Synced u s d := by
  constructor
  · rintro h hpolicy hvalid ⟨c, hc, hle⟩
    exact ((h _ _ _ _ (play_lost hc hle hpolicy hvalid)).saved notSaved rfl rfl).symm
  · intro hsynced answers r s' d' hplay
    exact ((upholds_update hsynced).play (fun _ _ => rfl) hplay).2 _ rfl

end Update

/-! ### A policy that is lost -/

namespace Sample

/-- A device that limits the charge to 80%. -/
def device : Device where
  stopped := false
  saved := .policy { enabled := true, limit := 80, hysteresis := 5 }
  capacity := some 60
  discharging := false

/-- The enforcer of a process that could not read the policy file when it started. -/
def enforcer : LimitState where
  policy := .fallback
  lastError := some (.refused "reading charge policy: input/output error")

example : new.play Device.exec [.failed "input/output error"] device =
    some (some enforcer, device) := rfl

/-- The client sets another limit. -/
def request : ChargeUpdate := { chargeLimit := some 90 }

end Sample

open Sample in
/-- After a failed read at start-up, an update that fails, and whose undoing succeeds, replaces the
saved policy with the one that limits nothing. -/
theorem policy_lost : ¬ ∀ u s d answers r s' d',
    (update u s).play Device.exec answers d = some (some (r, s'), d') →
      AllOrNothing u s d r s' d' := by
  intro h
  have hplay : (update request enforcer).play Device.exec diskFull device =
      some (some (.error notSaved, { enforcer with lastError := some notSaved }),
        { device with saved := .policy .fallback }) := rfl
  have hsaved := (h _ _ _ _ _ _ _ hplay).saved notSaved rfl rfl
  exact absurd hsaved (by decide)

end OpenUI.Agent.ChargePolicy
