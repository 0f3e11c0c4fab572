import OpenUI.Proofs.Deploy.Snapshot

/-!
# `OpenUI.Proofs.Deploy.Restore`: a restoration restores what the snapshot holds

A restoration that comes to its end has put back every target, one round after the other: the copy
is staged under a new name beside the target and takes its place by a rename. Nothing it does
touches the copies and the marks, so it does not matter how many earlier ones were cut off, and
where, nor what the targets have become meanwhile.

* `restore_round`: one target, whatever is in its place.
* `Kept`: what recovery goes by; `kept_invoke`: no invocation for the same id changes it, wherever
  it is cut off.
* `restore_exact`: the result.
-/

set_option autoImplicit false

namespace OpenUI.Deploy

open OpenUI.Shell OpenUI.Shell.FileTree

/-! ### One round -/

/-- What a round touches. -/
theorem makeRoom_touches {ok : Path → Prop} {id : String} {target : Target} (htarget : ok target)
    (hfailed : ok (failed id target)) : Touches ok (makeRoom id target).run := by
  refine Touches.andThen (Touches.ask _ _) fun occupied => ?_
  split
  · refine Touches.andThen (Touches.ask _ _) fun before => ?_
    split
    · exact Touches.require (by simpa [Operation.touches] using htarget)
    · exact Touches.require (by simpa [Operation.touches] using ⟨htarget, hfailed⟩)
  · exact Touches.pure _

theorem parse_touches {ok : Path → Prop} (device : Device) (id : String) (target : Target) :
    Touches ok (parse device id target).run := by
  unfold parse
  split
  · exact Touches.require (by simp [Operation.touches])
  · exact Touches.pure _

theorem restoreTarget_touches {ok : Path → Prop} (device : Device) {id : String}
    {target : Target} (hstaged : ok (staged id target)) (htarget : ok target)
    (hfailed : ok (failed id target)) : Touches ok (restoreTarget device id target).run := by
  refine Touches.andThen (Touches.ask _ _) fun kept => ?_
  split
  · refine Touches.andThen (Touches.require (by simpa [Operation.touches] using hstaged)) fun _ =>
      ?_
    refine Touches.andThen (Touches.require (by simpa [Operation.touches] using hstaged)) fun _ =>
      ?_
    refine Touches.andThen (parse_touches device id target) fun _ => ?_
    refine Touches.andThen (makeRoom_touches htarget hfailed) fun _ => ?_
    exact Touches.require (by simpa [Operation.touches] using ⟨hstaged, htarget⟩)
  · exact Touches.require (by simpa [Operation.touches] using htarget)

/-- A target is put back, whatever has taken its place. -/
theorem restore_round (device : Device) {id : String} {target : Target} (ht : target ∈ targets)
    {saved : FileTree} {t : FileTree} (hbefore : get (before id target) t = saved)
    (hpresent : (get (present id target) t).isFile = saved.isSome) :
    Ends (fun r t' => r = .ok () → get target t' = saved) (restoreTarget device id target) t := by
  refine Ends.ask ?_
  rw [hpresent]
  cases saved with
  | none =>
    exact Ends.require_last (fun _ => by simp) fun _ _ => get_put_none target t
  | some n =>
    have hstaged : Apart (staged id target) (before id target) := staged_base ht id _
    refine Ends.require (fun _ => by simp) fun _ => ?_
    -- nothing is staged by now
    have hnone : get (staged id target) (put (staged id target) none t) = none := get_put_none _ t
    refine Ends.require (fun _ => by simp) fun hcopy => ?_
    have hcopied := Operation.get_copy (by simp [staged]) hnone hcopy
    have hn : get (staged id target) ((Operation.copy (before id target) (staged id target)).exec
        (put (staged id target) none t)).2 = some n := by
      rw [hcopied, get_put_apart hstaged, hbefore]
    have hself : Apart target (staged id target) := (staged_target ht ht id).symm
    have hfailed : Apart (failed id target) (staged id target) := (staged_base ht id _).symm
    have hparse : Touches (Apart · (staged id target)) (parse device id target).run :=
      parse_touches device id target
    have hroom : Touches (Apart · (staged id target)) (makeRoom id target).run :=
      makeRoom_touches hself hfailed
    refine Safely.andThen (hparse.ends _) (fun _ _ _ => by simp) fun _ t₁ h₁ => ?_
    refine Safely.andThen (hroom.ends _) (fun _ _ _ => by simp) fun _ t₂ h₂ => ?_
    refine Ends.require_last (fun _ => by simp) fun hreplace _ => ?_
    have hne : target ≠ [] := by
      rintro rfl
      revert ht
      decide
    exact ((Operation.get_rename hne rfl hreplace).trans (h₂.trans h₁)).trans hn

/-! ### The loop, and the whole restoration -/

/-- Every target is put back. -/
theorem restore_loop (device : Device) (id : String) (saved : Target → FileTree) {t : FileTree}
    (hcopied : Copied id saved targets t) :
    Ends (fun r t' => r = .ok () → ∀ target ∈ targets, get target t' = saved target)
      (Script.each (restoreTarget device id) targets) t := by
  let J : List Target → FileTree → Prop := fun done t => Copied id saved targets t ∧
    ∀ target ∈ done, get target t = saved target
  have hJ : J [] t := ⟨hcopied, by simp⟩
  refine (Safely.each (J := J) (E := fun _ _ => True) targets ?_ (by simp) hJ).mono
    fun r t' h hr => (h.1 hr).2
  intro done a rest t hall hJ
  have ha : a ∈ targets := hall ▸ List.mem_append_right done List.mem_cons_self
  have hround := ends_iff.mp (restore_round device ha (hJ.1 a ha).1 (hJ.1 a ha).2)
  refine ends_iff.mpr ⟨fun hr => ⟨?_, ?_⟩, fun _ _ => trivial⟩
  · refine hJ.1.of_same (fun target => ?_) fun target => ?_
    · refine Touches.result (restoreTarget_touches device ?_ ?_ ?_) t
      · exact staged_base ha id _
      · exact target_base ha _
      · exact failed_apart ha id (by simp) _
    · refine Touches.result (restoreTarget_touches device ?_ ?_ ?_) t
      · exact staged_base ha id _
      · exact target_base ha _
      · exact failed_apart ha id (by simp) _
  · intro target ht
    rcases List.mem_append.mp ht with ht | ht
    · have htarget : target ∈ targets := hall ▸ List.mem_append_left (a :: rest) ht
      by_cases hne : a = target
      · subst hne
        exact hround hr
      · rw [Touches.result (restoreTarget_touches device (staged_target ha htarget id)
          (target_apart ha htarget hne) (base_target htarget _))]
        exact hJ.2 target ht
    · rw [List.mem_singleton.mp ht]
      exact hround hr

/-- What stops and starts the services touches no file of ours. -/
theorem stopServices_touches {ok : Path → Prop} (device : Device) :
    Touches ok (stopServices device).run := by
  unfold stopServices
  split
  · exact Touches.each fun _ _ => Touches.require (by simp [Operation.touches])
  · exact Touches.pure _

theorem startServices_touches {ok : Path → Prop} (device : Device) (reloadStockHttp : Bool) :
    Touches ok (startServices device reloadStockHttp).run := by
  unfold startServices
  split
  · refine Touches.andThen ?_ fun _ => Touches.each fun _ _ => ?_
    · unfold restartStock
      split
      · exact Touches.require (by simp [Operation.touches])
      · exact Touches.pure _
    · exact Touches.require (by simp [Operation.touches])
  · exact Touches.pure _

theorem release_touches {ok : Path → Prop} (hactive : ok active) (howner : ok owner)
    (hlock : ok lock) : Touches ok release.run := by
  refine Touches.andThen (Touches.require (by simp [Operation.touches])) fun _ => ?_
  refine Touches.andThen (Touches.require (by simpa [Operation.touches] using hactive)) fun _ => ?_
  refine Touches.andThen (Touches.require (by simpa [Operation.touches] using howner)) fun _ => ?_
  refine Touches.andThen (Touches.require (by simpa [Operation.touches] using hlock)) fun _ => ?_
  exact Touches.require (by simp [Operation.touches])

theorem verify_touches {ok : Path → Prop} (id identity : String) :
    Touches ok (verify id identity).run := by
  refine Touches.andThen (Touches.require (by simp [Operation.touches])) fun _ => ?_
  refine Touches.andThen (Touches.ask _ _) fun known => ?_
  split
  · exact Touches.pure _
  · exact trivial

theorem claimLock_touches {ok : Path → Prop} (id : String) (howner : ok owner) (hlock : ok lock) :
    Touches ok (claimLock id).run := by
  refine Touches.andThen (Touches.ask _ _) fun locked => ?_
  split
  · exact Touches.require (by simp [Operation.touches])
  · refine Touches.andThen (Touches.require (by simpa [Operation.touches] using hlock)) fun _ => ?_
    exact Touches.require (by simpa [Operation.touches] using howner)

theorem markActive_touches {ok : Path → Prop} (id : String) (hactive : ok active)
    (howner : ok owner) (hlock : ok lock) : Touches ok (markActive id).run := by
  refine Touches.andThen (Touches.ask _ _) fun marked => ?_
  split
  · exact Touches.pure _
  · refine Touches.andThen (claimLock_touches id howner hlock) fun _ => ?_
    exact Touches.require (by simpa [Operation.touches] using hactive)

/-- A restoration that comes to its end restores the snapshot. -/
theorem restore_exact (device : Device) {id : String} (identity : String) (hid : Unmarked id)
    {saved : Target → FileTree} {t : FileTree} (hcopied : Copied id saved targets t) :
    Ends (fun r t' => r = .ok () → ∀ target ∈ targets, get target t' = saved target)
      (restore device id identity) t := by
  have hkeep : ∀ {s : Script Point Unit} {t},
      (∀ q, Apart active q → Apart owner q → Apart lock q → Touches (Apart · q) s.run) →
      Copied id saved targets t → Copied id saved targets (s.result t).2 := by
    intro s t hs h
    refine h.of_same (fun target => ?_) fun target => ?_
    · refine Touches.result (hs _ ?_ ?_ ?_) t
      · simp [active, before, hid.active.symm]
      · simp [owner, before, hid.lock.symm]
      · simp [lock, before, hid.lock.symm]
    · refine Touches.result (hs _ ?_ ?_ ?_) t
      · simp [active, present, hid.active.symm]
      · simp [owner, present, hid.lock.symm]
      · simp [lock, present, hid.lock.symm]
  have hverify : Ends (fun _ t' => Copied id saved targets t') (verify id identity) t :=
    ends_iff.mpr (hkeep (fun q _ _ _ => verify_touches id identity) hcopied)
  refine Safely.andThen hverify (fun _ _ _ => by simp) fun _ t₁ h₁ => ?_
  have hmark : Ends (fun _ t' => Copied id saved targets t') (markActive id) t₁ :=
    ends_iff.mpr (hkeep (fun q ha ho hl => markActive_touches id ha ho hl) h₁)
  refine Safely.andThen hmark (fun _ _ _ => by simp) fun _ t₂ h₂ => ?_
  refine Ends.require (fun _ => by simp) fun _ => ?_
  refine Safely.andThen (R := fun r t' => r = .ok () → ∀ target ∈ targets,
    get target t' = saved target)
    ?_ (fun _ _ _ => by simp) fun _ t₃ h₃ => ?_
  · refine Ends.ask ?_
    have hstop : Ends (fun _ t' => Copied id saved targets t') (stopServices device) t₂ :=
      ends_iff.mpr (hkeep (fun q _ _ _ => stopServices_touches device) h₂)
    refine Safely.andThen hstop (fun _ _ _ => by simp) fun _ t₄ h₄ => ?_
    refine Safely.andThen (restore_loop device id saved h₄) (fun _ _ _ => by simp) fun _ t₅ h₅ => ?_
    -- the services change no target, and the state is not one
    have hrest : ∀ reload, ∀ target ∈ targets, Touches (Apart · target) (do
        startServices device reload
        Script.require Point.restored (.write (stateFile id) (line "restored")) :
          Script Point Unit).run := fun reload target ht =>
      Touches.andThen (startServices_touches device reload) fun _ =>
        Touches.require (by simpa [Operation.touches, stateFile] using base_target ht _)
    refine ends_iff.mpr fun _ target ht => ?_
    rw [Touches.result (hrest _ target ht)]
    exact h₅ rfl target ht
  · refine ends_iff.mpr fun _ target ht => ?_
    rw [Touches.result (release_touches (base_target ht _) (base_target ht _) (base_target ht _))]
    exact h₃ rfl target ht

/-! ### What no invocation changes -/

/-- The path is apart from what recovery goes by. -/
structure Elsewhere (id : String) (p : Path) : Prop where
  before : Apart p (transaction id ++ ["before"])
  present : Apart p (transaction id ++ ["present"])
  identity : Apart p (identityFile id)
  state : Apart p (stateFile id)

/-- The copies, the marks and the identity are what they were, and there is a state. -/
structure Kept (id : String) (t₁ t : FileTree) : Prop where
  before : get (transaction id ++ ["before"]) t = get (transaction id ++ ["before"]) t₁
  present : get (transaction id ++ ["present"]) t = get (transaction id ++ ["present"]) t₁
  identity : get (identityFile id) t = get (identityFile id) t₁
  state : get (stateFile id) t ≠ none

theorem Kept.of_same {id : String} {t₁ t t' : FileTree} (h : Kept id t₁ t)
    (hsame : Same (Elsewhere id) t t') : Kept id t₁ t' where
  before := (hsame _ fun _ hp => hp.before).trans h.before
  present := (hsame _ fun _ hp => hp.present).trans h.present
  identity := (hsame _ fun _ hp => hp.identity).trans h.identity
  state := by
    rw [hsame _ fun _ hp => hp.state]
    exact h.state

/-- The transaction's directory is there. -/
theorem Kept.isDirectory {id : String} {t₁ t : FileTree} (h : Kept id t₁ t) :
    (get (transaction id) t).isDirectory = true :=
  isDirectory_of_get (p := transaction id) (x := "state") h.state

theorem elsewhere_lock {id : String} (hid : Unmarked id) : Elsewhere id lock := by
  constructor <;> simp [lock, transaction, identityFile, stateFile, hid.lock.symm]

theorem elsewhere_owner {id : String} (hid : Unmarked id) : Elsewhere id owner := by
  constructor <;> simp [owner, transaction, identityFile, stateFile, hid.lock.symm]

theorem elsewhere_active {id : String} (hid : Unmarked id) : Elsewhere id active := by
  constructor <;> simp [active, transaction, identityFile, stateFile, hid.active.symm]

theorem elsewhere_target (id : String) {target : Target} (ht : target ∈ targets) :
    Elsewhere id target := by
  have h := fun q => target_base ht q
  constructor
  · simpa [transaction] using h [id, "before"]
  · simpa [transaction] using h [id, "present"]
  · exact h [id, "identity"]
  · exact h [id, "state"]

theorem elsewhere_staged (id : String) {target : Target} (ht : target ∈ targets) :
    Elsewhere id (staged id target) := by
  have h := fun q => staged_base ht id q
  constructor
  · simpa [transaction] using h [id, "before"]
  · simpa [transaction] using h [id, "present"]
  · exact h [id, "identity"]
  · exact h [id, "state"]

theorem elsewhere_failed (id : String) {target : Target} (ht : target ∈ targets) :
    Elsewhere id (failed id target) := by
  constructor
  · simpa [transaction] using failed_apart ht id (x := "before") (by simp) []
  · simpa [transaction] using failed_apart ht id (x := "present") (by simp) []
  · exact failed_apart ht id (by simp) []
  · exact failed_apart ht id (by simp) []

/-- A part of a script that stays elsewhere keeps it all, wherever it is cut off. -/
theorem kept_elsewhere {α : Type} {id : String} {P : Cut Point → Prop} {s : Script Point α}
    {t₁ t : FileTree} (hs : Touches (Elsewhere id) s.run) (h : Kept id t₁ t) :
    Safely P (Kept id t₁) (fun _ => Kept id t₁) s.run t :=
  ((hs.safely (Same.refl _ t)).weaken fun _ => h.of_same).mono fun _ _ => h.of_same

/-- So does the new state. -/
theorem kept_state {id : String} {P : Cut Point → Prop} {t₁ t : FileTree} {point : Point}
    (c : String) (h : Kept id t₁ t) :
    Safely P (Kept id t₁) (fun _ => Kept id t₁)
      (Script.require point (.write (stateFile id) c)).run t := by
  have hput : ∀ file, Kept id t₁ (put (stateFile id) (some (.file file)) t) := by
    intro file
    refine ⟨?_, ?_, ?_, ?_⟩
    · rw [get_put_apart (by simp [stateFile, transaction])]
      exact h.before
    · rw [get_put_apart (by simp [stateFile, transaction])]
      exact h.present
    · rw [get_put_apart (by simp [stateFile, identityFile])]
      exact h.identity
    · show get (transaction id ++ ["state"]) (put (transaction id ++ ["state"]) _ t) ≠ none
      rw [get_put_child _ h.isDirectory]
      simp
  refine Safely.require_last (fun _ => h) (fun left t' _ htorn => ?_) (fun hfail => ?_)
    fun hdone => ?_
  · obtain ⟨-, ⟨part, -, rfl⟩, rfl⟩ := htorn
    exact hput part
  · have hsame : ((Operation.write (stateFile id) c).exec t).2 = t := by
      simp only [Operation.exec] at hfail ⊢
      split
      · rfl
      · rename_i hp
        rw [if_neg hp] at hfail
        cases hfail
    rw [hsame]
    exact h
  · rw [(Operation.write_done hdone).2]
    exact hput c

/-! ### Every invocation keeps them -/

section Invocations

variable {id : String} {P : Cut Point → Prop} {t₁ t : FileTree}

theorem kept_release (hid : Unmarked id) (h : Kept id t₁ t) :
    Safely P (Kept id t₁) (fun _ => Kept id t₁) release.run t :=
  kept_elsewhere (release_touches (elsewhere_active hid) (elsewhere_owner hid)
    (elsewhere_lock hid)) h

/-- `restore`. -/
theorem kept_restore (device : Device) (identity : String) (hid : Unmarked id) (h : Kept id t₁ t) :
    Safely P (Kept id t₁) (fun _ => Kept id t₁) (restore device id identity).run t := by
  refine Safely.andThen (kept_elsewhere (verify_touches id identity) h) (fun _ _ h => h)
    fun _ t h => ?_
  refine Safely.andThen (kept_elsewhere (markActive_touches id (elsewhere_active hid)
    (elsewhere_owner hid) (elsewhere_lock hid)) h) (fun _ _ h => h) fun _ t h => ?_
  refine Safely.require (fun _ => h) (fun _ _ _ h => h.elim) (fun _ => h) fun _ => ?_
  refine Safely.andThen (R := fun _ => Kept id t₁) ?_ (fun _ _ h => h) fun _ t h =>
    kept_release hid h
  refine Safely.ask (fun _ => h) ?_
  refine Safely.andThen (kept_elsewhere (stopServices_touches device) h) (fun _ _ h => h)
    fun _ t h => ?_
  have hloop : Touches (Elsewhere id) (Script.each (restoreTarget device id) targets).run :=
    Touches.each fun target ht => restoreTarget_touches device (elsewhere_staged id ht)
      (elsewhere_target id ht) (elsewhere_failed id ht)
  refine Safely.andThen (kept_elsewhere hloop h) (fun _ _ h => h) fun _ t h => ?_
  refine Safely.andThen (kept_elsewhere (startServices_touches device _) h) (fun _ _ h => h)
    fun _ t h => ?_
  exact kept_state _ h

/-- `complete`. -/
theorem kept_complete (identity : String) (hid : Unmarked id) (h : Kept id t₁ t) :
    Safely P (Kept id t₁) (fun _ => Kept id t₁) (complete id identity).run t := by
  refine Safely.andThen (kept_elsewhere (verify_touches id identity) h) (fun _ _ h => h)
    fun _ t h => ?_
  refine Safely.require (fun _ => h) (fun _ _ _ h => h.elim) (fun _ => h) fun _ => ?_
  refine Safely.require (fun _ => h) (fun _ _ _ h => h.elim) (fun _ => h) fun _ => ?_
  exact Safely.andThen (kept_state _ h) (fun _ _ h => h) fun _ t h => kept_release hid h

/-- `discard-incomplete`: there is a state, so that it discards nothing. -/
theorem kept_discard (identity : String) (h : Kept id t₁ t) :
    Safely P (Kept id t₁) (fun _ => Kept id t₁) (discardIncomplete id identity).run t := by
  refine Safely.require (fun _ => h) (fun _ _ _ h => h.elim) (fun _ => h) fun _ => ?_
  refine Safely.require (fun _ => h) (fun _ _ _ h => h.elim) (fun _ => h) fun hnone => ?_
  exact absurd (Option.isNone_iff_eq_none.mp hnone) h.state

/-- `begin`, once more with the same id: the transaction's directory is in its way. -/
theorem kept_begin (identity : String) (hid : Unmarked id) (h : Kept id t₁ t) :
    Safely P (Kept id t₁) (fun _ => Kept id t₁) (begin id identity).run t := by
  have hbase : (Operation.mkdirs base).exec t = (true, t) :=
    if_pos (isDirectory_of_get (p := base) (x := id) (by
      have hdir := h.isDirectory
      intro hnone
      rw [transaction, hnone] at hdir
      cases hdir))
  have hfree : ∀ {o : Operation}, (∀ p ∈ o.touches, p = lock ∨ p = owner) →
      ∀ p ∈ o.touches, Elsewhere id p := by
    intro o ho p hp
    rcases ho p hp with rfl | rfl
    · exact elsewhere_lock hid
    · exact elsewhere_owner hid
  refine Safely.require (fun _ => h) (fun _ _ _ h => h.elim) (fun _ => ?_) fun _ => ?_
  · rw [hbase]
    exact h
  rw [hbase]
  refine Safely.andThen (kept_elsewhere (Touches.status (hfree (by simp [Operation.touches]))) h)
    (fun _ _ h => h) fun taken t h => ?_
  split
  · refine Safely.andThen (kept_elsewhere (Touches.require (hfree (by simp [Operation.touches]))) h)
      (fun _ _ h => h) fun _ t h => ?_
    have hthere : get (transaction id) t ≠ none := by
      intro hnone
      have hdir := h.isDirectory
      rw [hnone] at hdir
      cases hdir
    have hmade : Operation.makeDirectory (transaction id) t = (false, t) :=
      Operation.makeDirectory_of_some hthere
    refine Safely.status (fun _ => h) (fun left t' _ htorn => ?_) ?_
    · obtain ⟨ps, hps, rfl⟩ := htorn
      rcases List.prefix_cons_iff.mp hps with rfl | ⟨rest, rfl, hrest⟩
      · exact h
      · rw [List.prefix_nil.mp hrest]
        show Kept id t₁ ((Operation.mkdir [transaction id]).exec t).2
        rw [Operation.exec_mkdir_one, hmade]
        exact h
    rw [Operation.exec_mkdir_one, hmade]
    refine Safely.andThen (kept_elsewhere (Touches.require (hfree (by simp [Operation.touches]))) h)
      (fun _ _ h => h) fun _ t h => ?_
    refine Safely.andThen (kept_elsewhere (Touches.require (hfree (by simp [Operation.touches]))) h)
      (fun _ _ h => h) fun _ t h => ?_
    exact Safely.pure h
  · exact Safely.pure h

/-- The script. -/
theorem kept_invoke (device : Device) (action : Action) (identity : String) (hid : Unmarked id)
    (h : Kept id t₁ t) :
    Safely P (Kept id t₁) (fun _ => Kept id t₁) (invoke device action id identity).run t := by
  unfold invoke
  split
  · cases action with
    | begin => exact kept_begin identity hid h
    | discardIncomplete => exact kept_discard identity h
    | restore => exact kept_restore device identity hid h
    | complete => exact kept_complete identity hid h
  · exact Safely.pure h

end Invocations

/-! ### From a finished `begin` to a finished restoration -/

/-- What may have become of the files since: a deployment and whatever else changed them, as long as
it left the transaction's own directory alone, and invocations for the same transaction, cut off
anywhere or run to their end. -/
inductive After (id : String) (t₁ : FileTree) : FileTree → Prop where
  | here : After id t₁ t₁
  | changed {t t' : FileTree} (h : After id t₁ t)
      (hsame : get (transaction id) t' = get (transaction id) t) : After id t₁ t'
  | interrupted {t t' : FileTree} (device : Device) (action : Action) (identity : String)
      (c : Cut Point) (h : After id t₁ t)
      (hcut : CutAt (invoke device action id identity).run t c t') : After id t₁ t'
  | finished {t : FileTree} (device : Device) (action : Action) (identity : String)
      (h : After id t₁ t) : After id t₁ ((invoke device action id identity).result t).2

/-- What is below the transaction comes with its directory. -/
theorem get_below {id : String} {t t' : FileTree} (h : get (transaction id) t' = get
    (transaction id) t)
    (q : Path) : get (transaction id ++ q) t' = get (transaction id ++ q) t := by
  rw [get_append, get_append, h]

theorem kept_after {id : String} {t₁ t : FileTree} (hid : Unmarked id)
    (hstate : get (stateFile id) t₁ ≠ none) (h : After id t₁ t) : Kept id t₁ t := by
  induction h with
  | here => exact ⟨rfl, rfl, rfl, hstate⟩
  | changed _ hsame ih =>
    have hstate : get (stateFile id) _ = get (stateFile id) _ := get_below hsame ["state"]
    have hidentity : get (identityFile id) _ = get (identityFile id) _ :=
      get_below hsame ["identity"]
    refine ⟨(get_below hsame _).trans ih.before, (get_below hsame _).trans ih.present,
      hidentity.trans ih.identity, ?_⟩
    rw [hstate]
    exact ih.state
  | interrupted device action identity _ _ hcut ih =>
    have hkept := kept_invoke (P := fun _ => True) device action identity hid ih
    exact hkept.cut trivial hcut
  | finished device action identity _ ih =>
    have hkept := kept_invoke (P := fun _ => True) device action identity hid ih
    exact hkept.result

/-- The copies and the marks are those that `begin` made. -/
theorem Kept.copied {id : String} {saved : Target → FileTree} {t₁ t : FileTree} (h : Kept id t₁ t)
    (hcopied : Copied id saved targets t₁) : Copied id saved targets t := by
  refine hcopied.of_same (fun target => ?_) fun target => ?_
  · show get (transaction id ++ (["before"] ++ [name target])) t = _
    rw [← List.append_assoc, get_append, h.before, ← get_append]
    rfl
  · show get (transaction id ++ (["present"] ++ [name target])) t = _
    rw [← List.append_assoc, get_append, h.present, ← get_append]
    rfl

/-- An invocation that comes to its end had a valid id. -/
theorem invoke_done {device : Device} {action : Action} {id identity : String} {t t' : FileTree}
    (hlock : id ≠ "lock") (hactive : id ≠ "active")
    (h : (invoke device action id identity).result t = (.ok (), t')) :
    Unmarked id ∧ (run device action id identity).result t = (.ok (), t') := by
  unfold invoke at h
  split at h
  · rename_i hvalid
    rw [Bool.and_eq_true] at hvalid
    exact ⟨Unmarked.of_valid hvalid.1 hlock hactive, h⟩
  · cases h

/-- Whenever a restoration comes to its end, every target is what it was when `begin` ran, and the
snapshot is what `begin` left. -/
theorem restore_restores (device device' : Device) (id identity identity' : String)
    (hlock : id ≠ "lock") (hactive : id ≠ "active") (t₀ t₁ t₂ t₃ : FileTree)
    (hbegin : (invoke device .begin id identity).result t₀ = (.ok (), t₁))
    (hafter : After id t₁ t₂)
    (hrestore : (invoke device' .restore id identity').result t₂ = (.ok (), t₃)) :
    (∀ target ∈ targets, get target t₃ = get target t₀) ∧ Kept id t₁ t₃ := by
  obtain ⟨hid, hbegin⟩ := invoke_done hlock hactive hbegin
  obtain ⟨-, hrestore⟩ := invoke_done hlock hactive hrestore
  simp only [run] at hbegin hrestore
  have hcopied := (begin_copied identity hid t₀).result
  have hstate := (begin_state identity hid t₀).result
  rw [hbegin] at hcopied hstate
  have hkept : Kept id t₁ t₂ := by
    refine kept_after hid ?_ hafter
    rw [hstate rfl]
    simp
  have hrestored := (restore_exact device' identity' hid (hkept.copied (hcopied rfl))).result
  have hkept' := (kept_restore (P := fun _ => False) device' identity' hid hkept).result
  rw [hrestore] at hrestored hkept'
  exact ⟨hrestored rfl, hkept'⟩

/-! ### A deployment that failed, and one restoration after the other -/

namespace Failed

/-- A test's device: no services. -/
def device : Device where
  onDevice := false
  accepts _ _ := true
  checksum _ _ := ""
  stops _ _ := true
  restarts _ := true
  starts _ _ := true

/-- The files before the deployment. -/
def files : FileTree := some (.directory [
  ("data", .directory [("zte-agent", .file "old binary"),
    ("www.current", .link "/data/releases/old"),
    ("www", .directory [("index.html", .file "old UI")]),
    ("local", .directory [("tmp", .directory [])]), ("bin", .directory [])]),
  ("etc", .directory [("rc.local", .file "exit 0"), ("config", .directory [])])])

/-- After `begin`. -/
def begun : FileTree := ((invoke device .begin "test-123" "aabb").result files).2

/-- After a part of the deployment. -/
def deployed : FileTree := put ["data", "zte-agent"] (some (.file "partial replacement"))
  (put ["data", "bin", "dropbear"] (some (.file "new ssh")) begun)

/-- After a restoration. -/
def restored : FileTree := ((invoke device .restore "test-123" "aabb").result deployed).2

/-- After another one. -/
def restoredAgain : FileTree := ((invoke device .restore "test-123" "aabb").result restored).2

theorem result_eq {s : Script Point Unit} {t : FileTree} (h : (s.result t).1.toBool = true) :
    s.result t = (.ok (), (s.result t).2) := by
  rcases hr : s.result t with ⟨r, t'⟩
  rw [hr] at h
  cases r with
  | error n => cases h
  | ok a => rfl

end Failed

/-- The files come back, and again when the restoration is repeated. -/
theorem restore_restores_twice :
    (∀ target ∈ targets, get target Failed.restoredAgain = get target Failed.files) ∧
      Kept "test-123" Failed.begun Failed.restoredAgain := by
  have hafter : After "test-123" Failed.begun Failed.deployed := by
    refine (After.here.changed (get_put_apart ?_ _ _)).changed (get_put_apart ?_ _ _)
    · decide
    · decide
  exact restore_restores Failed.device Failed.device "test-123" "aabb" "aabb" (by decide)
    (by decide) Failed.files Failed.begun Failed.restored Failed.restoredAgain
    (Failed.result_eq (by decide +kernel)) (hafter.finished Failed.device .restore "aabb")
    (Failed.result_eq (by decide +kernel))

end OpenUI.Deploy
