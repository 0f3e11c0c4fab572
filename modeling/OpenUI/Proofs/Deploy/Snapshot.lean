import OpenUI.Proofs.Deploy.Paths

/-!
# `OpenUI.Proofs.Deploy.Snapshot`: what `begin` leaves is the snapshot

A round of the loop copies one target to its place below the transaction and marks it as present.
The places of the targets are apart from each other, and from the targets, so that after the last
round there is a copy of everything that was there before the first, and no copy of anything else.

* `snapshot_round`: one target.
* `begin_copied`, `begin_state`: all of them, when `begin` comes to its end, and the state.
-/

set_option autoImplicit false

namespace OpenUI.Deploy

open OpenUI.Shell OpenUI.Shell.FileTree

/-- These targets are copied, with the mark that says whether there was one. -/
def Copied (id : String) (saved : Target → FileTree) (done : List Target) (t : FileTree) : Prop :=
  ∀ target ∈ done, get (before id target) t = saved target ∧
    (get (present id target) t).isFile = (saved target).isSome

/-- A snapshot's copy is apart from what another round touches. -/
theorem before_apart {id : String} {t t' : Target} (ht : t ∈ targets) (ht' : t' ∈ targets)
    (h : t ≠ t') : Apart (before id t) (before id t') := by
  have hname : name t ≠ name t' := fun hn => h (name_injective t ht t' ht' hn)
  simp [before, hname]

theorem present_apart {id : String} {t t' : Target} (ht : t ∈ targets) (ht' : t' ∈ targets)
    (h : t ≠ t') : Apart (present id t) (present id t') := by
  have hname : name t ≠ name t' := fun hn => h (name_injective t ht t' ht' hn)
  simp [present, hname]

theorem before_present (id : String) (t t' : Target) : Apart (before id t) (present id t') := by
  simp [before, present]

theorem present_before (id : String) (t t' : Target) : Apart (present id t) (before id t') :=
  (before_present id t' t).symm

/-- A round touches the target's own copy and its own mark. -/
theorem snapshot_touches {ok : Path → Prop} (id : String) (target : Target)
    (hbefore : ok (before id target)) (hpresent : ok (present id target)) :
    Touches ok (snapshot id target).run := by
  refine Touches.andThen (Touches.require (by simp [Operation.touches])) fun _ => ?_
  refine Touches.andThen (Touches.ask _ _) fun there => ?_
  split
  · refine Touches.andThen (Touches.require ?_) fun _ => Touches.require ?_
    · simpa [Operation.touches] using hbefore
    · simpa [Operation.touches] using hpresent
  · exact Touches.pure _

/-- One round: the target has its copy and its mark. -/
theorem snapshot_round {id : String} {target : Target} {t : FileTree}
    (hbefore : get (before id target) t = none) (hpresent : get (present id target) t = none) :
    Ends (fun r t' => r = .ok () → get (before id target) t' = get target t ∧
      (get (present id target) t').isFile = (get target t).isSome) (snapshot id target) t := by
  refine Ends.require (fun h => by cases h) fun _ => ?_
  show Ends _ _ t
  refine Ends.ask ?_
  cases htarget : get target t with
  | none =>
    simp only [Option.isSome_none, Bool.false_eq_true, if_false]
    exact Safely.pure fun _ => ⟨hbefore, by rw [hpresent]; rfl⟩
  | some n =>
    simp only [Option.isSome_some, if_true]
    refine Ends.require (fun _ => by simp) fun hcopy => ?_
    have hcopied := Operation.get_copy (by simp [before, base]) hbefore hcopy
    refine Ends.require_last (fun _ => by simp) fun hmark => fun _ => ⟨?_, ?_⟩
    · rw [Operation.exec_apart (by simp [Operation.touches, present_before]), hcopied, htarget]
    · rw [Operation.get_write (by simp [present, base]) hmark]
      rfl

/-- The loop: every target has its copy and its mark, and is what it was. -/
theorem snapshot_loop (id : String) (saved : Target → FileTree) {t : FileTree}
    (hsaved : ∀ target ∈ targets, get target t = saved target)
    (hbefore : ∀ target ∈ targets, get (before id target) t = none)
    (hpresent : ∀ target ∈ targets, get (present id target) t = none) :
    Ends (fun r t' => r = .ok () → Copied id saved targets t')
      (Script.each (snapshot id) targets) t := by
  -- what the rounds that are still to come need to find
  let J : List Target → FileTree → Prop := fun done t => Copied id saved done t ∧
    ∀ target ∈ targets, get target t = saved target ∧
      (target ∉ done → get (before id target) t = none ∧ get (present id target) t = none)
  have hJ : J [] t := ⟨by simp [Copied], fun target ht =>
    ⟨hsaved target ht, fun _ => ⟨hbefore target ht, hpresent target ht⟩⟩⟩
  have hnodup : targets.Nodup := by decide +kernel
  refine (Safely.each (J := J) (E := fun _ _ => True) targets ?_ (by simp) hJ).mono
    fun r t' h hr => (h.1 hr).1
  intro done a rest t hall hJ
  have ha : a ∈ targets := hall ▸ List.mem_append_right done List.mem_cons_self
  have hdone : ∀ target ∈ done, target ∈ targets := fun target ht =>
    hall ▸ List.mem_append_left (a :: rest) ht
  have hnew : a ∉ done := by
    intro hmem
    rw [← hall] at hnodup
    exact (List.nodup_append.mp hnodup).2.2 a hmem a List.mem_cons_self rfl
  obtain ⟨hbefore, hpresent⟩ := (hJ.2 a ha).2 hnew
  have hround := ends_iff.mp (snapshot_round hbefore hpresent)
  refine ends_iff.mpr ⟨fun hr => ⟨?_, ?_⟩, fun _ _ => trivial⟩
  · intro target ht
    rcases List.mem_append.mp ht with ht | ht
    · have hne : a ≠ target := fun h => hnew (h ▸ ht)
      rw [Touches.result (snapshot_touches id a (before_apart ha (hdone target ht) hne)
          (present_before id a target)),
        Touches.result (snapshot_touches id a (before_present id a target)
          (present_apart ha (hdone target ht) hne))]
      exact hJ.1 target ht
    · rw [List.mem_singleton.mp ht, ← (hJ.2 a ha).1]
      exact hround hr
  · intro target ht
    rw [Touches.result (snapshot_touches id a (base_target ht _) (base_target ht _))]
    refine ⟨(hJ.2 target ht).1, fun hnot => ?_⟩
    have hne : a ≠ target := fun h => hnot (List.mem_append_right done (by simp [h]))
    rw [Touches.result (snapshot_touches id a (before_apart ha ht hne)
      (present_before id a target)),
      Touches.result (snapshot_touches id a (before_present id a target) (present_apart ha ht hne))]
    exact (hJ.2 target ht).2 fun hmem => hnot (List.mem_append_left [a] hmem)

/-- The copies and marks are all that counts. -/
theorem Copied.of_same {id : String} {saved : Target → FileTree} {done : List Target}
    {t t' : FileTree}
    (h : Copied id saved done t)
    (hbefore : ∀ target, get (before id target) t' = get (before id target) t)
    (hpresent : ∀ target, get (present id target) t' = get (present id target) t) :
    Copied id saved done t' := by
  intro target ht
  rw [hbefore, hpresent]
  exact h target ht

/-- Two new directories are there, and empty. -/
theorem parts_done {id : String} {t : FileTree}
    (h : ((Operation.mkdir [transaction id ++ ["before"], transaction id ++ ["present"]]).exec t).1
      = true) :
    let t' := ((Operation.mkdir
      [transaction id ++ ["before"], transaction id ++ ["present"]]).exec t).2
    get (transaction id ++ ["before"]) t' = some (.directory []) ∧
      get (transaction id ++ ["present"]) t' = some (.directory []) := by
  have hb : (Operation.makeDirectory (transaction id ++ ["before"]) t).1 = true := by
    simp only [Operation.exec, Operation.makeDirectories, Bool.and_eq_true] at h
    exact h.1
  have hp : (Operation.makeDirectory (transaction id ++ ["present"])
      (Operation.makeDirectory (transaction id ++ ["before"]) t).2).1 = true := by
    simp only [Operation.exec, Operation.makeDirectories, Bool.and_eq_true] at h
    exact h.2.1
  refine ⟨?_, Operation.get_makeDirectory (by simp) hp⟩
  show get (transaction id ++ ["before"]) (Operation.makeDirectory (transaction id ++ ["present"])
      (Operation.makeDirectory (transaction id ++ ["before"]) t).2).2 = _
  rw [Operation.makeDirectory_apart (by simp)]
  exact Operation.get_makeDirectory (by simp) hb

/-- The last commands touch the markers. -/
theorem activate_touches {ok : Path → Prop} (id : String) (hnew : ok activeNew)
    (hactive : ok active) : Touches ok (activate id).run := by
  refine Touches.andThen (Touches.require (by simp [Operation.touches])) fun _ => ?_
  refine Touches.andThen (Touches.require (by simpa [Operation.touches] using hnew)) fun _ => ?_
  refine Touches.andThen (Touches.require ?_) fun _ => ?_
  · simpa [Operation.touches] using ⟨hnew, hactive⟩
  refine Touches.andThen (Touches.require (by simp [Operation.touches])) fun _ => ?_
  exact ⟨by simp [Call.touches], fun _ => trivial⟩

/-- From the snapshot's directories on. -/
theorem prepare_copied {id : String} (identity : String) (hid : Unmarked id)
    {saved : Target → FileTree} {t : FileTree} (hsaved : ∀ target ∈ targets,
      get target t = saved target) :
    Ends (fun r t' => r = .ok () → Copied id saved targets t') (prepare id identity) t := by
  refine Ends.require (fun _ => by simp) fun hparts => ?_
  obtain ⟨hb, hp⟩ := parts_done hparts
  refine Ends.require (fun _ => by simp) fun _ => ?_
  refine Safely.andThen (snapshot_loop id saved ?_ ?_ ?_) (fun _ _ _ => by simp) fun _ t₁ hcopied =>
    ?_
  · intro target ht
    rw [Operation.exec_apart (by simpa [Operation.touches, identityFile] using base_target ht _),
      Operation.exec_apart (by
        simpa [Operation.touches, transaction] using ⟨base_target ht _, base_target ht _⟩)]
    exact hsaved target ht
  · intro target _
    rw [Operation.exec_apart (by simp [Operation.touches, identityFile, before])]
    show get (transaction id ++ ["before"] ++ [name target]) _ = none
    rw [get_append, hb]
    rfl
  · intro target _
    rw [Operation.exec_apart (by simp [Operation.touches, identityFile, present])]
    show get (transaction id ++ ["present"] ++ [name target]) _ = none
    rw [get_append, hp]
    rfl
  -- what follows touches no copy and no mark
  have hrest : ∀ q, Apart (stateFile id) q → Apart activeNew q → Apart active q →
      Touches (Apart · q) (do
        Script.require Point.snapshotSync .idle
        Script.require Point.state (.write (stateFile id) (line "pending"))
        activate id : Script Point Unit).run := fun q hstate hnew hactive =>
    Touches.andThen (Touches.require (by simp [Operation.touches])) fun _ =>
      Touches.andThen (Touches.require (by simpa [Operation.touches] using hstate)) fun _ =>
        activate_touches id hnew hactive
  refine ends_iff.mpr fun _ => (hcopied rfl).of_same (fun target => ?_) fun target => ?_
  · refine Touches.result (hrest _ ?_ ?_ ?_) t₁
    · simp [stateFile, before]
    · simp [activeNew, before, hid.activeNew.symm]
    · simp [active, before, hid.active.symm]
  · refine Touches.result (hrest _ ?_ ?_ ?_) t₁
    · simp [stateFile, present]
    · simp [activeNew, present, hid.activeNew.symm]
    · simp [active, present, hid.active.symm]

/-- A `begin` that comes to its end leaves a copy of every target there was. -/
theorem begin_copied {id : String} (identity : String) (hid : Unmarked id) (t : FileTree) :
    Ends (fun r t' => r = .ok () → Copied id (fun target => get target t) targets t')
      (begin id identity) t := by
  refine Ends.require (fun _ => by simp) fun _ => Ends.status ?_
  split
  · refine Ends.require (fun _ => by simp) fun _ => Ends.status ?_
    split
    · refine Ends.trap (prepare_copied identity hid fun target ht => ?_)
      have hmarker : ∀ (o : Operation) t, (∀ p ∈ o.touches, ∃ q, p = base ++ q) →
          get target (o.exec t).2 = get target t := by
        intro o t ho
        refine Operation.exec_apart (fun p hp => ?_) t
        obtain ⟨q, rfl⟩ := ho p hp
        exact base_target ht q
      rw [hmarker _ _ (by simp [Operation.touches, transaction]),
        hmarker _ _ (by simp [Operation.touches, owner]),
        hmarker _ _ (by simp [Operation.touches, lock]),
        hmarker _ _ (by simp [Operation.touches])]
    · refine Ends.require (fun _ => by simp) fun _ => ?_
      refine Ends.require (fun _ => by simp) fun _ => ?_
      exact Safely.pure (by simp)
  · exact Safely.pure (by simp)

/-- Whatever a script does, it ends. -/
theorem ends_any {L α : Type} (s : Script L α) (t : FileTree) : Ends (fun _ _ => True) s t :=
  ends_iff.mpr trivial

/-- And it leaves the state of the transaction. -/
theorem begin_state {id : String} (identity : String) (hid : Unmarked id) (t : FileTree) :
    Ends (fun r t' => r = .ok () → get (stateFile id) t' = some (.file (line "pending")))
      (begin id identity) t := by
  refine Ends.require (fun _ => by simp) fun _ => Ends.status ?_
  split
  · refine Ends.require (fun _ => by simp) fun _ => Ends.status ?_
    split
    · refine Ends.trap (Ends.require (fun _ => by simp) fun _ => ?_)
      refine Ends.require (fun _ => by simp) fun _ => ?_
      refine Safely.andThen (ends_any _ _) (fun _ _ _ => by simp) fun _ t₁ _ => ?_
      refine Ends.require (fun _ => by simp) fun _ => ?_
      refine Ends.require (fun _ => by simp) fun hstate => ?_
      refine ends_iff.mpr fun _ => ?_
      have hkeep : Touches (Apart · (stateFile id)) (activate id).run := by
        refine activate_touches id ?_ ?_
        · simp [activeNew, stateFile, hid.activeNew.symm]
        · simp [active, stateFile, hid.active.symm]
      rw [Touches.result hkeep]
      exact Operation.get_write (by simp [stateFile, base]) hstate
    · refine Ends.require (fun _ => by simp) fun _ => ?_
      refine Ends.require (fun _ => by simp) fun _ => ?_
      exact Safely.pure (by simp)
  · exact Safely.pure (by simp)

end OpenUI.Deploy
