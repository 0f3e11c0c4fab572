import OpenUI.Proofs.Deploy.Preparation

/-!
# `OpenUI.Proofs.Deploy.PowerLoss`: a device that lost its power is not stuck

Where the device can be recovered, `discard-incomplete` or `restore` for the transaction that has
the lock comes to its end and removes the markers, and then a new `begin` comes to its end too. A
run whose cuts are all spared keeps the device recoverable. One cut between the lock and its owner
is enough for no invocation to help.

* `restore_frees`: `restore` does not fail, and leaves no markers.
* `recoverable_step`: what one step of a device's history keeps.
* `never_wedges`: what follows for every history.
-/

set_option autoImplicit false

namespace OpenUI.Deploy

open OpenUI.Shell OpenUI.Shell.FileTree OpenUI.Shell.Weather

/-! ### `restore` does not fail -/

section Succeeds

variable {kind : Target → Bool} {begun : List (String × String)} {device : Device} {id : String}
  {target : Target} {t : FileTree}

/-- No service fails. -/
theorem services_succeed {services : List String} {point : String → Point}
    {holds : String → FileTree → Bool} (h : ∀ service t, holds service t = true) (t : FileTree) :
    Succeeds (· = t) (Script.each
      (fun service => Script.require (point service) (.test (holds service))) services) t := by
  induction services with
  | nil => exact Safely.pure ⟨rfl, rfl⟩
  | cons service rest ih => exact Succeeds.require (h service t) ih

theorem stopServices_succeeds (hworks : device.Works) (t : FileTree) :
    Succeeds (· = t) (stopServices device) t := by
  unfold stopServices
  split
  · exact services_succeed hworks.stops t
  · exact Safely.pure ⟨rfl, rfl⟩

theorem startServices_succeeds (hworks : device.Works) (reloadStockHttp : Bool) (t : FileTree) :
    Succeeds (· = t) (startServices device reloadStockHttp) t := by
  have hrestart : Succeeds (· = t) (restartStock device reloadStockHttp) t := by
    unfold restartStock
    split
    · exact Succeeds.require_last (hworks.restarts t) rfl
    · exact Safely.pure ⟨rfl, rfl⟩
  unfold startServices
  split
  · refine Succeeds.andThen hrestart fun t' ht' => ?_
    rw [ht']
    exact services_succeed hworks.starts t
  · exact Safely.pure ⟨rfl, rfl⟩

theorem parse_succeeds (hworks : device.Works) (id : String) (target : Target) (t : FileTree) :
    Succeeds (· = t) (parse device id target) t := by
  unfold parse
  split
  · exact Succeeds.require_last (hworks.accepts _ t) rfl
  · exact Safely.pure ⟨rfl, rfl⟩

/-- There is room for what is of the target's kind. -/
def Room (kind : Target → Bool) (target : Target) (t : FileTree) : Prop :=
  get target t = none ∨ kind target = false ∧ (get target t).isDirectory = false

theorem Room.fits {n : Node} (h : Room kind target t)
    (hkind : FileTree.isDirectory (some n) = kind target) :
    Operation.fits n (get target t) = true := by
  -- Either nothing is there, or a file where a file or a link comes.
  rcases h with hnone | ⟨hfile, hold⟩
  · rw [hnone]
    cases n <;> rfl
  · rw [hfile] at hkind
    cases n with
    | file c => simp [Operation.fits, hold]
    | link l => simp [Operation.fits, hold]
    | directory es => cases hkind

/-- Room is made. -/
theorem makeRoom_succeeds (ht : target ∈ targets) (h : Tame kind target t)
    (hdirectory : (get (transaction id) t).isDirectory = true) :
    Succeeds (Room kind target) (makeRoom id target) t := by
  refine Ends.ask ?_
  split
  · rename_i hoccupied
    refine Ends.ask ?_
    split
    · exact Succeeds.require_last rfl (.inl (get_put_none target t))
    · rename_i hbefore
      -- Nothing was set aside before, so the directory moves into the transaction.
      have hnone : get (failed id target) t = none := by simpa using hbefore
      have hwithin : Operation.within target (failed id target) t = failed id target :=
        Operation.within_of_not_directory (by rw [hnone]; rfl) target
      obtain ⟨es, hes⟩ := isDirectory_iff.mp hoccupied
      have hmove : (Operation.move target (failed id target)).exec t =
          (true, put (failed id target) (some (.directory es)) (put target none t)) := by
        rw [Operation.exec, hwithin, Operation.rename, hes]
        refine if_pos ⟨?_, by rw [hnone]; rfl⟩
        simpa [above, failed, transaction, base] using hdirectory
      refine Succeeds.require_last (by rw [hmove]) (.inl ?_)
      have hapart : Apart (failed id target) target := base_target ht _
      rw [hmove]
      exact (get_put_apart hapart _ _).trans (get_put_none target t)
  · rename_i hoccupied
    have hfile : (get target t).isDirectory = false := by simpa using hoccupied
    refine Safely.pure ⟨rfl, ?_⟩
    rcases h with hnone | hkind
    · exact .inl hnone
    · exact .inr ⟨hkind.symm.trans hfile, hfile⟩

/-- One round of the loop. -/
theorem restoreTarget_succeeds (hworks : device.Works) (ht : target ∈ targets)
    (husable : Usable kind id target t) (h : Tame kind target t)
    (hdirectory : (get (transaction id) t).isDirectory = true) :
    Succeeds (fun _ => True) (restoreTarget device id target) t := by
  refine Ends.ask ?_
  split
  · rename_i hkept
    obtain ⟨hsome, hkind, habove⟩ := husable hkept
    obtain ⟨n, hn⟩ := Option.ne_none_iff_exists'.mp hsome
    have hstaged : Apart (staged id target) target := staged_target ht ht id
    have hsplit : above (staged id target) = above target := by simp [above, staged]
    have hkeep : ∀ v t, (get (above target) t).isDirectory = true →
        (get (above target) (put (staged id target) v t)).isDirectory = true := fun v _ =>
      Operation.put_shallow Operation.shallow_isDirectory (clear_above ht (.inl hstaged)) v
    refine Succeeds.require rfl ?_
    show Succeeds _ _ (put (staged id target) none t)
    have hnone : get (staged id target) (put (staged id target) none t) = none := get_put_none _ t
    have hcopy : (Operation.copy (before id target) (staged id target)).exec
        (put (staged id target) none t) =
        (true, put (staged id target) (some n) (put (staged id target) none t)) := by
      refine Operation.exec_copy hnone ?_ ?_
      · exact (get_put_apart (staged_base ht id _) none t).trans hn
      · rw [hsplit]
        exact hkeep none t habove
    refine Succeeds.require (by rw [hcopy]) ?_
    rw [hcopy]
    -- From here on it counts what the staged copy is, and that the target's directory is there.
    have hcopied : get (staged id target) (put (staged id target) (some n)
        (put (staged id target) none t)) = some n := by
      refine get_put_self _ (by simp [staged]) ?_
      show (get (above (staged id target)) _).isDirectory = true
      rw [hsplit]
      exact hkeep none t habove
    have habove₂ := hkeep (some n) _ (hkeep none t habove)
    have htame₂ : Tame kind target
        (put (staged id target) (some n) (put (staged id target) none t)) :=
      h.of_get (by rw [get_put_apart hstaged, get_put_apart hstaged])
    have hdirectory₂ : (get (transaction id) (put (staged id target) (some n)
        (put (staged id target) none t))).isDirectory = true := by
      have hapart : Apart (staged id target) (transaction id) := staged_base ht id [id]
      rw [get_put_apart hapart, get_put_apart hapart]
      exact hdirectory
    show Succeeds _ _ (put (staged id target) (some n) (put (staged id target) none t))
    generalize put (staged id target) (some n) (put (staged id target) none t) = t₂ at *
    refine Succeeds.andThen (parse_succeeds hworks id target t₂) fun t₃ heq => ?_
    subst heq
    -- Making room leaves the staged copy, and the directory it is in.
    have hroom : Touches (fun p => p = target ∨ p = failed id target) (makeRoom id target).run :=
      makeRoom_touches (.inl rfl) (.inr rfl)
    have hstays : Touches (Apart · (staged id target)) (makeRoom id target).run :=
      makeRoom_touches hstaged.symm (staged_base ht id _).symm
    have hclear : ∀ p, p = target ∨ p = failed id target → Operation.Clear p (above target) := by
      rintro p (rfl | rfl)
      · exact clear_above ht (.inr rfl)
      · exact clear_above ht (.inl (base_target ht _))
    refine Succeeds.andThen (((makeRoom_succeeds ht htame₂ hdirectory₂).and (hstays.ends t₃)).and
      (hroom.directory (P := fun _ => False) hclear habove₂).ends) fun t₄ h₄ => ?_
    obtain ⟨⟨hfits, hsame⟩, habove₄⟩ := h₄
    have hreplace : ((Operation.replace (staged id target) target).exec t₄).1 = true := by
      rw [Operation.exec, Operation.rename, hsame, hcopied]
      have hdone : (get (above target) t₄).isDirectory = true ∧
          Operation.fits n (get target t₄) = true := ⟨habove₄, hfits.fits (by rw [← hn, hkind])⟩
      show (if _ ∧ _ then _ else _ : Bool × FileTree).1 = true
      rw [if_pos hdone]
    exact Succeeds.require_last hreplace trivial
  · exact Succeeds.require_last rfl trivial

/-- The loop. -/
theorem restoreTargets_succeed (hworks : device.Works) (hid : Unmarked id) {identity : String}
    (hrecorded : Recorded kind id identity t) (hstate : get (stateFile id) t ≠ none)
    (h : Docile kind t) :
    Succeeds (Quiet id t) (Script.each (restoreTarget device id) targets) t := by
  -- From round to round the targets keep their kinds, and the snapshot stays as it was recorded.
  let J : List Target → FileTree → Prop := fun _ t' => Docile kind t' ∧ Quiet id t t'
  have hJ : J [] t := ⟨h, .refl _ t, rfl, rfl⟩
  refine (Safely.each (J := J) (E := fun _ _ => False) targets ?_ (List.nil_append targets) hJ).mono
    fun r t' h' => ?_
  · intro done target rest t₁ hall hJ₁
    have ht : target ∈ targets := hall ▸ List.mem_append_right done List.mem_cons_self
    have husable := (hrecorded.steady hJ₁.2.steady).copies target ht
    have hstate₁ : get (stateFile id) t₁ ≠ none := by
      rw [hJ₁.2.steady.same _ fun _ hp => hp.own.state]
      exact hstate
    have hround := restoreTarget_succeeds hworks ht husable (hJ₁.1 target ht)
      (directories_of_state hstate₁).1
    have hdocile := docile_restoreTarget (P := fun _ => False) device ht
      (fun hfile => (husable hfile).2.1) hJ₁.1
    have hquiet := safely_quiet (P := fun _ => False) (quiet_restoreTarget device hid ht) t₁
    refine ((hround.and hdocile.ends).and hquiet.ends).mono fun r t' h' => ?_
    obtain ⟨rfl, ⟨-, hdocile'⟩, hquiet'⟩ := h'
    exact ⟨fun _ => ⟨hdocile', hJ₁.2.trans hquiet'⟩, fun n hn => by cases hn⟩
  · cases r with
    | error n => exact (h'.2 n rfl).elim
    | ok a => exact ⟨rfl, (h'.1 rfl).2⟩

/-- Only a file has one of the states. -/
theorem isFile_of_known (h : contents (stateFile id) t ∈ knownStates) :
    (get (stateFile id) t).isFile = true := by
  have hempty : "" ∉ knownStates := by decide
  unfold contents at h
  rcases htree : get (stateFile id) t with _ | (c | l | es) <;> rw [htree] at h
  · exact absurd h hempty
  · rfl
  · exact absurd h hempty
  · exact absurd h hempty

/-- The part of `restore` between the markers. -/
theorem restoreFiles_succeeds (hworks : device.Works) (h : Recoverable kind begun t)
    (hleads : Leads begun id t) : Succeeds (fun _ => True) (restoreFiles device id) t := by
  have hid := hleads.holds.unmarked
  obtain ⟨hknown, identity, -, hrecorded⟩ := h.stored.recorded id hid hleads.state
  refine Ends.ask (Succeeds.andThen (stopServices_succeeds hworks t) fun t₁ heq => ?_)
  subst heq
  refine Succeeds.andThen (restoreTargets_succeed hworks hid hrecorded hleads.state h.docile)
    fun t₂ hquiet => ?_
  refine Succeeds.andThen (startServices_succeeds hworks _ t₂) fun t₃ heq => ?_
  subst heq
  -- The state is still the known one, so it is a file and can be written again.
  have hstate : get (stateFile id) t₃ = get (stateFile id) t₁ :=
    hquiet.steady.same _ fun _ hp => hp.own.state
  have hsome : get (stateFile id) t₃ ≠ none := by
    rw [hstate]
    exact hleads.state
  have hwrite : (Operation.write (stateFile id) (line "restored")).exec t₃ =
      (true, put (stateFile id) (some (.file (line "restored"))) t₃) := by
    refine Operation.exec_write ?_ (.inr ?_)
    · simpa [above, stateFile, transaction, base] using (directories_of_state hsome).1
    · rw [hstate]
      exact isFile_of_known hknown
  exact Succeeds.require_last (by rw [hwrite]) trivial

theorem verify_succeeds {identity : String} (hidentity : contents (identityFile id) t = identity)
    (hstate : contents (stateFile id) t ∈ knownStates) :
    Succeeds (· = t) (verify id identity) t := by
  refine Succeeds.require (decide_eq_true hidentity) (Ends.ask ?_)
  show Ends _
    (if decide (contents (stateFile id) t ∈ knownStates) = true then pure () else throw 65) t
  rw [if_pos (decide_eq_true hstate)]
  exact Safely.pure ⟨rfl, rfl⟩

/-- The transaction that has the lock becomes the active one, or is it. -/
theorem markActive_succeeds (hlocked : Locked id t) (hpending : Pending id t)
    (hvalid : validId id = true) :
    Succeeds (fun t' => contents active t' = id) (markActive id) t := by
  refine Ends.ask ?_
  -- Without an active marker the lock is already the transaction's, and only the marker is
  -- written.
  rcases hpending.active with hnone | ⟨hfile, hactive⟩
  · rw [hnone, Option.isSome_none, if_neg Bool.false_ne_true]
    -- The lock is there with its owner.
    have hclaim : Succeeds (· = t) (claimLock id) t := by
      have hdirectory : (get lock t).isDirectory = true := by
        obtain ⟨c, hlock, -⟩ := hlocked
        rw [hlock]
        rfl
      refine Ends.ask ?_
      rw [if_pos hdirectory]
      exact Succeeds.require_last (decide_eq_true hlocked.owner_eq) rfl
    refine Succeeds.andThen hclaim fun t₁ heq => ?_
    subst heq
    have hbase := (directories_of_state hpending.state).2
    have hwrite : (Operation.write active (line id)).exec t₁ =
        (true, put active (some (.file (line id))) t₁) := Operation.exec_write hbase (.inl hnone)
    refine Succeeds.require_last (by rw [hwrite]) ?_
    rw [hwrite]
    exact contents_of_line hvalid (get_put_child _ hbase)
  · have hsome : (get active t).isSome = true := by
      cases htree : get active t with
      | none =>
        rw [htree] at hfile
        cases hfile
      | some n => rfl
    rw [hsome, if_pos rfl]
    exact Safely.pure ⟨rfl, hactive⟩

/-- `restore` comes to its end and removes the markers. -/
theorem restore_frees (hworks : device.Works) (x : Invocation) (h : Recoverable kind begun t)
    (hholds : Holds begun x.id t) (hpending : Pending x.id t)
    (hidentity : contents (identityFile x.id) t = x.identity) :
    Succeeds (fun t' => Free t' ∧ (get base t').isDirectory = true)
      (restore device x.id x.identity) t := by
  have hid := hholds.unmarked
  obtain ⟨hknown, -⟩ := h.stored.recorded x.id hid hpending.state
  have hbegun := begun_of_state h.stored hid hpending.state
  refine Succeeds.andThen (verify_succeeds hidentity hknown) fun t₁ heq => ?_
  subst heq
  -- What the cuts' invariant says at the end, beside the success.
  have hmark := safely_markers hid (fun ha ho hl => markActive_touches x.id ha ho hl) hbegun h
    (marks_markActive x hid hholds.valid hpending.state h.marks) fun _ _ hmarks => hmarks
  refine Succeeds.andThen ((markActive_succeeds hholds.locked hpending hholds.valid).and hmark.ends)
    fun t₂ h₂ => ?_
  obtain ⟨hactive, h₂, -, hsteady⟩ := h₂
  have hstate₂ : get (stateFile x.id) t₂ ≠ none := by
    rw [hsteady.same _ fun _ hp => hp.own.state]
    exact hpending.state
  obtain ⟨hholds₂, -, hfile⟩ := h₂.marks.of_active (ne_empty_of_valid hholds.valid) hactive
  refine Succeeds.require (decide_eq_true hactive) ?_
  show Succeeds _ _ t₂
  have hleads : Leads begun x.id t₂ := ⟨hholds₂, hstate₂, hfile⟩
  refine Succeeds.andThen ((restoreFiles_succeeds hworks h₂ hleads).and
    (safely_restoreFiles device x h₂ hleads).ends) fun t₃ h₃ => ?_
  obtain ⟨-, h₃, hholds₃, hstate₃, hfile₃⟩ := h₃
  -- The removal of the markers leaves the state, by which the directory is still there.
  have hrelease := safely_markers hid (fun ha ho hl => release_touches ha ho hl) hbegun h₃
    (marks_release x hholds₃ hstate₃ hfile₃) fun _ _ hfree => .inl hfree.2
  refine hrelease.ends.mono fun r t' h' => ?_
  obtain ⟨-, ⟨hok, hfree⟩, hsteady'⟩ := h'
  have hstate' : get (stateFile x.id) t' ≠ none := by
    rw [hsteady'.same _ fun _ hp => hp.own.state]
    exact hstate₃
  exact ⟨hok, hfree, (directories_of_state hstate').2⟩

end Succeeds

/-! ### Invocations that are run to their end -/

section Untrapped

theorem untrapped_verify (id identity : String) : Untrapped (verify id identity).run := by
  refine (Untrapped.require _ _).andThen fun _ => (Untrapped.ask _ _).andThen fun known => ?_
  cases known with
  | false => trivial
  | true => trivial

theorem untrapped_release : Untrapped release.run :=
  (Untrapped.require _ _).andThen fun _ => (Untrapped.require _ _).andThen fun _ =>
    (Untrapped.require _ _).andThen fun _ => (Untrapped.require _ _).andThen fun _ =>
      Untrapped.require _ _

theorem untrapped_discard (id identity : String) : Untrapped (discardIncomplete id identity).run :=
  (Untrapped.require _ _).andThen fun _ => (Untrapped.require _ _).andThen fun _ =>
    (Untrapped.require _ _).andThen fun _ => (Untrapped.require _ _).andThen fun _ =>
      (Untrapped.require _ _).andThen fun _ => (Untrapped.require _ _).andThen fun _ =>
        (Untrapped.require _ _).andThen fun _ => Untrapped.require _ _

theorem untrapped_complete (id identity : String) : Untrapped (complete id identity).run :=
  (untrapped_verify id identity).andThen fun _ => (Untrapped.require _ _).andThen fun _ =>
    (Untrapped.require _ _).andThen fun _ => (Untrapped.require _ _).andThen fun _ =>
      untrapped_release

theorem untrapped_markActive (id : String) : Untrapped (markActive id).run := by
  have hclaim : Untrapped (claimLock id).run := by
    refine (Untrapped.ask _ _).andThen fun locked => ?_
    cases locked with
    | false => exact (Untrapped.require _ _).andThen fun _ => Untrapped.require _ _
    | true => exact Untrapped.require _ _
  refine (Untrapped.ask _ _).andThen fun marked => ?_
  cases marked with
  | false => exact hclaim.andThen fun _ => Untrapped.require _ _
  | true => trivial

theorem untrapped_restoreTarget (device : Device) (id : String) (target : Target) :
    Untrapped (restoreTarget device id target).run := by
  have hparse : Untrapped (parse device id target).run := by
    unfold parse
    split
    · exact Untrapped.require _ _
    · trivial
  have hroom : Untrapped (makeRoom id target).run := by
    refine (Untrapped.ask _ _).andThen fun occupied => ?_
    cases occupied with
    | false => trivial
    | true =>
      refine (Untrapped.ask _ _).andThen fun before => ?_
      cases before with
      | false => exact Untrapped.require _ _
      | true => exact Untrapped.require _ _
  refine (Untrapped.ask _ _).andThen fun kept => ?_
  cases kept with
  | false => exact Untrapped.require _ _
  | true =>
    exact (Untrapped.require _ _).andThen fun _ => (Untrapped.require _ _).andThen fun _ =>
      hparse.andThen fun _ => hroom.andThen fun _ => Untrapped.require _ _

theorem untrapped_restore (device : Device) (id identity : String) :
    Untrapped (restore device id identity).run := by
  have hstop : Untrapped (stopServices device).run := by
    unfold stopServices
    split
    · exact Untrapped.each fun _ _ => Untrapped.require _ _
    · trivial
  have hstart : ∀ reloadStockHttp, Untrapped (startServices device reloadStockHttp).run := by
    intro reloadStockHttp
    have hrestart : Untrapped (restartStock device reloadStockHttp).run := by
      cases reloadStockHttp with
      | false => trivial
      | true => exact Untrapped.require _ _
    unfold startServices
    split
    · exact hrestart.andThen fun _ => Untrapped.each fun _ _ => Untrapped.require _ _
    · trivial
  have hfiles : Untrapped (restoreFiles device id).run :=
    (Untrapped.ask _ _).andThen fun reloadStockHttp => hstop.andThen fun _ =>
      (Untrapped.each fun target _ => untrapped_restoreTarget device id target).andThen fun _ =>
        (hstart reloadStockHttp).andThen fun _ => Untrapped.require _ _
  exact (untrapped_verify id identity).andThen fun _ => (untrapped_markActive id).andThen fun _ =>
    (Untrapped.require _ _).andThen fun _ => hfiles.andThen fun _ => untrapped_release

/-- Only a `begin` sets a trap. -/
theorem untrapped_run (device : Device) {action : Action} (haction : action ≠ .begin)
    (id identity : String) : Untrapped (run device action id identity).run := by
  cases action with
  | begin => exact absurd rfl haction
  | discardIncomplete => exact untrapped_discard id identity
  | restore => exact untrapped_restore device id identity
  | complete => exact untrapped_complete id identity

end Untrapped

section Finish

variable {kind : Target → Bool} {begun : List (String × String)} {device : Device} {id : String}
  {t : FileTree}

theorem finish_valid {x : Invocation} (hvalid : validId x.id = true)
    (hidentity : validIdentity x.identity = true) (t : FileTree) :
    finish device x t = calm.ending (run device x.action x.id x.identity) ⟨t, none⟩ := by
  rw [finish, invoke, if_pos (by rw [hvalid, hidentity]; rfl)]

/-- What is not a `begin` exits with what it comes to. -/
theorem finish_untrapped {x : Invocation} (haction : x.action ≠ .begin)
    (hvalid : validId x.id = true) (hidentity : validIdentity x.identity = true) (t : FileTree) :
    finish device x t = (.exited (exitStatus ((run device x.action x.id x.identity).result t).1),
      ((run device x.action x.id x.identity).result t).2) := by
  rw [finish_valid hvalid hidentity]
  exact (untrapped_run device haction x.id x.identity).ending t

theorem finish_of_succeeds {Q : FileTree → Prop} {x : Invocation} (haction : x.action ≠ .begin)
    (hvalid : validId x.id = true) (hidentity : validIdentity x.identity = true)
    (h : Succeeds Q (run device x.action x.id x.identity) t) :
    (finish device x t).1 = .exited 0 ∧ Q (finish device x t).2 := by
  obtain ⟨hok, hQ⟩ := ends_iff.mp h
  rw [finish_untrapped haction hvalid hidentity, hok]
  exact ⟨rfl, hQ⟩

/-- An id that an invocation may have. -/
theorem Unmarked.of_admitted (hvalid : validId id = true) (hmarker : id ∉ ["lock", "active"]) :
    Unmarked id := by
  obtain ⟨hlock, hactive⟩ := not_or.mp fun hor => hmarker (by simpa using hor)
  exact .of_valid hvalid hlock hactive

/-! ### One step of a device's history -/

/-- The commands of an invocation keep the device recoverable, wherever they are cut off. -/
theorem safely_run (device : Device) {past : Past} {x : Invocation} (hadmits : past.admits x)
    (hvalid : validId x.id = true) (hidentity : validIdentity x.identity = true)
    (h : Recoverable kind past.begun past.tree) :
    Safely x.spares (Recoverable kind (past.noting x)) (fun _ => Recoverable kind (past.noting x))
      (run device x.action x.id x.identity).run past.tree := by
  have hid := Unmarked.of_admitted hvalid hadmits.1
  obtain ⟨action, id, identity⟩ := x
  cases action with
  | begin =>
    exact (safely_begin _ h (hadmits.2 rfl) hid hvalid hidentity).mono fun _ _ h' => h'.1
  | discardIncomplete => exact (safely_discard _ hvalid h).mono fun _ _ h' => h'.1
  | restore => exact safely_restore device _ hid hvalid h
  | complete => exact safely_complete _ hvalid h

/-- So it is after an invocation. -/
theorem recoverable_finish (device : Device) {past : Past} {x : Invocation}
    (hadmits : past.admits x) (h : Recoverable kind past.begun past.tree) :
    Recoverable kind (past.noting x) (finish device x past.tree).2 := by
  by_cases hvalid : (validId x.id && validIdentity x.identity) = true
  · obtain ⟨hvalid, hidentity⟩ := (Bool.and_eq_true _ _).mp hvalid
    by_cases haction : x.action = .begin
    · have hid := Unmarked.of_admitted hvalid hadmits.1
      have hbegin := begin_ending x h (hadmits.2 haction) hid hvalid hidentity
      rw [finish_valid hvalid hidentity, Past.noting, if_pos haction, haction]
      exact hbegin.1
    · rw [finish_untrapped haction hvalid hidentity]
      exact (safely_run device hadmits hvalid hidentity h).result
  · -- A wrong id or identity: the script exits before its first command.
    have hrefused : (finish device x past.tree).2 = past.tree := by
      rw [finish, invoke, if_neg hvalid]
      rfl
    rw [hrefused, Past.noting]
    split
    · exact h.cons _
    · exact h

/-- And wherever one is cut off at a cut that is spared. -/
theorem recoverable_cut (device : Device) {past : Past} {x : Invocation} (hadmits : past.admits x)
    (h : Recoverable kind past.begun past.tree) {c : Cut Point} {t' : FileTree}
    (hcut : CutAt (invoke device x.action x.id x.identity).run past.tree c t')
    (hspares : x.spares c) : Recoverable kind (past.noting x) t' := by
  by_cases hvalid : (validId x.id && validIdentity x.identity) = true
  · rw [invoke, if_pos hvalid] at hcut
    obtain ⟨hvalid, hidentity⟩ := (Bool.and_eq_true _ _).mp hvalid
    exact (safely_run device hadmits hvalid hidentity h).cut hspares hcut
  · rw [invoke, if_neg hvalid] at hcut
    exact hcut.elim

/-- What one step keeps. -/
theorem recoverable_step {past past' : Past} (h : Recoverable kind past.begun past.tree)
    (hstep : Happens device kind Invocation.spares past past') :
    Recoverable kind past'.begun past'.tree := by
  cases hstep with
  | changed t' hbase hkind habove =>
    refine h.of_below (fun x q => ?_) hkind habove
    rw [get_append, get_append, hbase]
  | finished x hadmits => exact recoverable_finish device hadmits h
  | interrupted x hadmits c t' hcut hallowed => exact recoverable_cut device hadmits h hcut hallowed

/-! ### What a recoverable device is good for -/

/-- Without markers a `begin` is admitted. -/
theorem admitted_of_free (device : Device) (h : Recoverable kind begun t) (hfree : Free t)
    (hdone : ((Operation.mkdirs base).exec t).1 = true) : Admitted device begun t := by
  intro id identity hvalid hidentity hmarker hnew
  have hid := Unmarked.of_admitted hvalid hmarker
  have hending := (begin_ending ⟨.begin, id, identity⟩ h hnew hid hvalid hidentity).2 hdone hfree.2
  rw [finish_valid (x := ⟨.begin, id, identity⟩) hvalid hidentity]
  exact hending

/-- The transaction that has the lock is recovered. -/
theorem recovers (hworks : device.Works) (h : Recoverable kind begun t)
    (hholds : Holds begun id t) :
    ∃ identity, (id, identity) ∈ begun ∧ Recovers device begun id identity t := by
  have hmarker : id ∉ ["lock", "active"] := by
    simp [hholds.unmarked.lock, hholds.unmarked.active]
  have hfreed : ∀ action ≠ Action.begin, ∀ identity, validIdentity identity = true →
      Succeeds (fun t' => Free t' ∧ (get base t').isDirectory = true)
        (run device action id identity) t → (finish device ⟨action, id, identity⟩ t).1 = .exited 0 ∧
          Free (finish device ⟨action, id, identity⟩ t).2 ∧
          Admitted device begun (finish device ⟨action, id, identity⟩ t).2 := by
    intro action haction identity hidentity hsucceeds
    obtain ⟨hexit, hfree, hbase⟩ :=
      finish_of_succeeds (x := ⟨action, id, identity⟩) haction hholds.valid hidentity hsucceeds
    have hadmits : Past.admits ⟨t, begun⟩ ⟨action, id, identity⟩ :=
      ⟨hmarker, fun hbegin => absurd hbegin haction⟩
    have hafter := recoverable_finish device hadmits h
    rw [Past.noting, if_neg haction] at hafter
    refine ⟨hexit, hfree, admitted_of_free device hafter hfree ?_⟩
    rw [Operation.exec, if_pos hbase]
  -- A snapshot without a state is discarded, one with a state is put back.
  rcases hholds.known with hun | hpending
  · obtain ⟨identity, hmem, hidentity, hsame⟩ := hun.identity
    refine ⟨identity, hmem, .discardIncomplete, by simp, hfreed _ (by simp) identity hidentity ?_⟩
    refine (safely_discard ⟨.discardIncomplete, id, identity⟩ hholds.valid h).ends.mono
      fun r t' h' => ?_
    obtain ⟨hok, hfree, hsame'⟩ := h'.2 ⟨hun.active, hun.state, hholds.locked.owner_eq, hsame⟩
    exact ⟨hok, hfree, hsame'.trans hholds.locked.base⟩
  · obtain ⟨-, identity, hmem, hrecorded⟩ := h.stored.recorded id hholds.unmarked hpending.state
    refine ⟨identity, hmem, .restore, by simp, hfreed _ (by simp) identity hrecorded.valid ?_⟩
    exact restore_frees hworks ⟨.restore, id, identity⟩ h hholds hpending hrecorded.identity

theorem Recoverable.unwedged (hworks : device.Works) {past : Past}
    (h : Recoverable kind past.begun past.tree) : Unwedged device past := by
  rcases h.marks with hfree | ⟨id, hholds⟩
  · exact .inl ⟨hfree, admitted_of_free device h hfree⟩
  · obtain ⟨identity, hmem, hrecovers⟩ := recovers hworks h hholds
    exact .inr ⟨id, identity, hmem, hholds.locked.owner_eq, hrecovers⟩

/-- A device on which nothing was begun. -/
theorem recoverable_first (hkind : Docile kind t)
    (hempty : get base t = none ∨ get base t = some (.directory [])) : Recoverable kind [] t := by
  have hnone : ∀ x q, get (base ++ x :: q) t = none := by
    intro x q
    rw [get_append]
    rcases hempty with hbase | hbase
    · rw [hbase, get_none]
    · rw [hbase, get_cons]
      exact get_none q
  refine ⟨hkind, ⟨fun id _ _ => hnone id [], fun id _ hstate => ?_⟩, .inl (hnone "active.new" []),
    .inl ⟨hnone "active" [], hnone "lock" []⟩⟩
  exact absurd (hnone id ["state"]) hstate

end Finish

/-! ### Every history -/

/-- On a device whose services and `sh -n` do what they are asked for, from the first transaction
on: where every power loss comes at a cut that is spared, the device is never stuck. -/
theorem never_wedges (device : Device) (hworks : device.Works) (kind : Target → Bool)
    {t₀ : FileTree} (hkind : Docile kind t₀)
    (hempty : get base t₀ = none ∨ get base t₀ = some (.directory [])) {past : Past}
    (h : Relation.ReflTransGen (Happens device kind Invocation.spares) ⟨t₀, []⟩ past) :
    Unwedged device past := by
  have hrecoverable : Recoverable kind past.begun past.tree := by
    -- By induction over the history: the device stays recoverable.
    induction h with
    | refl => exact recoverable_first hkind hempty
    | tail _ hstep ih => exact recoverable_step ih hstep
  exact hrecoverable.unwedged hworks

namespace Failed

/-- A directory where the test's device has one. -/
def kind (target : Target) : Bool := (get target files).isDirectory

/-- A `begin` that has just made its lock. -/
def locked : FileTree :=
  ((Operation.mkdir [lock]).exec ((Operation.mkdirs base).exec files).2).2

theorem docile : Docile kind files := fun _ _ => .inr rfl

/-- After a `begin`. -/
def pending : Past :=
  ⟨(finish device ⟨.begin, "test-123", "aabb"⟩ files).2, [("test-123", "aabb")]⟩

theorem works : device.Works := ⟨fun _ _ => rfl, fun _ _ => rfl, fun _ => rfl, fun _ _ => rfl⟩

end Failed

/-- A `begin`, and a restoration that loses its power before it has done anything. -/
theorem never_wedges_before_restore : Unwedged Failed.device Failed.pending := by
  have hbegun : Happens Failed.device Failed.kind Invocation.spares ⟨Failed.files, []⟩
      Failed.pending := .finished _ ⟨.begin, "test-123", "aabb"⟩ ⟨by decide, by simp⟩
  have hinvoke : invoke Failed.device .restore "test-123" "aabb" =
      restore Failed.device "test-123" "aabb" := if_pos (by decide +kernel)
  have hcut : Happens Failed.device Failed.kind Invocation.spares Failed.pending
      Failed.pending := by
    refine .interrupted _ ⟨.restore, "test-123", "aabb"⟩ ⟨by decide, by simp⟩
      (.before .sameIdentity) _ ?_ ?_
    · rw [hinvoke]
      exact .inl ⟨rfl, rfl⟩
    · show Point.sameIdentity ∉ _
      decide
  exact never_wedges Failed.device Failed.works Failed.kind Failed.docile (.inl (by rfl))
    ((Relation.ReflTransGen.single hbegun).tail hcut)

/-- A power loss between the lock's `mkdir` and its owner: there is a lock, and no invocation for
the transaction comes to its end. -/
theorem wedged_before_owner : ¬ ∀ past, Relation.ReflTransGen
    (Happens Failed.device Failed.kind fun _ _ => True) ⟨Failed.files, []⟩ past →
      Free past.tree ∨ ∃ id identity, (id, identity) ∈ past.begun ∧
        Recovers Failed.device past.begun id identity past.tree := by
  intro h
  have hinvoke : invoke Failed.device .begin "test-123" "aabb" = begin "test-123" "aabb" :=
    if_pos (by decide +kernel)
  have hcut : CutAt (invoke Failed.device .begin "test-123" "aabb").run Failed.files
      (.before .owner) Failed.locked := by
    rw [hinvoke]
    have hmade : ((Operation.mkdir [lock]).exec ((Operation.mkdirs base).exec Failed.files).2).1 =
        true := by decide +kernel
    refine CutAt.require (by decide +kernel) (CutAt.status ?_)
    rw [hmade, if_pos rfl]
    exact .inl ⟨rfl, rfl⟩
  -- The lock is there, so the device is not free, and both actions fail.
  rcases h ⟨Failed.locked, [("test-123", "aabb")]⟩ (.single (.interrupted ⟨Failed.files, []⟩
    ⟨.begin, "test-123", "aabb"⟩ ⟨by decide, by simp⟩ (.before .owner) _ hcut trivial)) with
    hfree | ⟨id, identity, hmem, action, haction, hexit, -⟩
  · have hlock : (get lock Failed.locked).isSome = true := by decide +kernel
    have hnone : get lock Failed.locked = none := hfree.2
    rw [hnone] at hlock
    cases hlock
  · have hfails : ∀ action ∈ [Action.discardIncomplete, .restore],
        (finish Failed.device ⟨action, "test-123", "aabb"⟩ Failed.locked).1 ≠ .exited 0 := by
      decide +kernel
    obtain ⟨rfl, rfl⟩ : id = "test-123" ∧ identity = "aabb" := by simpa using hmem
    exact hfails action haction hexit

end OpenUI.Deploy
