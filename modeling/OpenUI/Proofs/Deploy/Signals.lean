import OpenUI.Proofs.Deploy.Snapshot
import OpenUI.Proofs.Deploy.Invocations
import OpenUI.Shell.Signals

/-!
# `OpenUI.Proofs.Deploy.Signals`: `begin` under signals and failing commands

The trap of `begin` is set once the transaction's directory is there, and its action does not know
the active marker. A signal before the trap, or a command that fails there, leaves the lock behind.
A signal from the state on removes the snapshot, and the script goes on to make it the active one.
Everywhere else `begin` is all or nothing.

* `Harmless`: the steps at which nothing of this happens.
* `prepareTrapped_ending`: from the trap on.
* `begin_all_or_nothing`: every run whose steps are harmless.
-/

set_option autoImplicit false

namespace OpenUI.Deploy

open OpenUI.Shell OpenUI.Shell.FileTree OpenUI.Shell.Weather

/-! ### What is asked -/

/-- The markers and the transaction are as they were. -/
structure Untouched (id : String) (t t' : FileTree) : Prop where
  active : get active t' = get active t
  lock : get lock t' = get lock t
  transaction : get (transaction id) t' = get (transaction id) t

/-- What `begin` may end in, from the tree that it found. -/
structure AllOrNothing (id : String) (t : FileTree) (out : Ending × FileTree) : Prop where
  /-- Where it exits 0 the snapshot is complete and pending, and the markers name it. -/
  all : out.1 = .exited 0 → Copied id (fun target => get target t) targets out.2 ∧
    contents (stateFile id) out.2 = "pending" ∧ contents active out.2 = id ∧
    contents owner out.2 = id
  /-- Where it does not, it leaves nothing of its own. -/
  nothing : out.1 ≠ .exited 0 → Untouched id t out.2

/-! ### Harmless steps -/

/-- The commands of the trap's action do not fail. -/
def CleansUp (w : Weather Point) : Prop :=
  w.fault .wipe = false ∧ w.fault .wipeOwner = false ∧ w.fault .wipeLock = false

/-- A signal that comes here leaves something behind: before the trap is set the lock, and from the
state on a marker without its snapshot. Where the command failed, some of these are harmless. -/
def Point.exposed (done : Bool) : Point → Bool
  | .owner | .transaction | .undoOwner => true
  | .lock | .state | .stateSync | .activeNew | .active | .activeSync | .untrap => done
  | _ => false

/-- A command whose failure nothing cleans up after, or not enough. -/
def Point.unguarded : Point → Bool
  | .owner | .undoOwner | .undoLock | .activeSync => true
  | _ => false

/-- A step that leaves nothing behind. -/
def Harmless (w : Weather Point) : {β : Type} → Call Point β → Process Point → Prop
  | _, .run point o, s => (w.signal point = true →
      point.exposed (w.perform point o s.tree).1 = false ∧ (s.trap ≠ none → CleansUp w)) ∧
      (w.fault point = true → point.unguarded = false)
  | _, .trap point action, _ => w.signal point = true →
      point.exposed true = false ∧ (action ≠ none → CleansUp w)

/-- A run of harmless steps. Where it ends under its trap, the action does not fail. -/
structure Spares (w : Weather Point) (script : Script Point Unit) (s : Process Point) : Prop where
  steps : w.Meets (Harmless w) script.run s
  ending : ∀ n s', w.play script.run s = .ok (.error n, s') → s'.trap ≠ none → CleansUp w

/-! ### The trap's action -/

section Cleanup

variable {w : Weather Point}

/-- A command that does not fail for no reason does what it does. -/
theorem perform_calm {point : Point} (h : w.fault point = false) (o : Operation) (t : FileTree) :
    w.perform point o t = o.exec t := by
  rw [perform, h]
  rfl

/-- What is apart from all a command touches stays, also where the command fails. -/
theorem perform_apart {o : Operation} {q : Path} (h : ∀ p ∈ o.touches, Apart p q) (point : Point)
    (t : FileTree) : get q (w.perform point o t).2 = get q t := by
  rw [perform]
  split
  · exact Operation.spoil_apart h (w.left point) t
  · exact Operation.exec_apart h t

/-- Nothing comes to be where nothing is, above all a command touches. -/
theorem perform_below {p : Path} {t : FileTree} {point : Point} {o : Operation}
    (hbelow : ∀ q ∈ o.touches, ∃ x r, q = p ++ x :: r) (hmkdirs : ∀ q, o ≠ .mkdirs q)
    (h : get p t = none) : get p (w.perform point o t).2 = none := by
  have hclear : ∀ q ∈ o.touches, Operation.Clear q p := fun q hq => .inr (hbelow q hq)
  rw [perform]
  split
  · exact Operation.spoil_shallow Operation.shallow_none hclear (w.left point) h
  · exact Operation.exec_shallow Operation.shallow_none hclear hmkdirs h

end Cleanup

/-- What the script keeps while its trap is set. -/
structure Held (id : String) (marker : FileTree) (t : FileTree) : Prop where
  locked : get lock t = some (.directory [("owner", .file (line id))])
  marked : get active t = marker

/-- What the trap's action leaves. -/
structure Gone (id : String) (marker : FileTree) (t : FileTree) : Prop where
  unlocked : get lock t = none
  removed : get (transaction id) t = none
  marked : get active t = marker

section Trap

variable {w : Weather Point} {id : String} {marker : FileTree}

/-- The trap's action removes what it is to remove, also for a second time. -/
theorem cleanup_gone (hid : Unmarked id) (hw : CleansUp w) {t : FileTree}
    (h : Held id marker t ∨ Gone id marker t) :
    (w.clean (cleanup id) t).1 = true ∧ Gone id marker (w.clean (cleanup id) t).2 := by
  obtain ⟨hwipe, howner, hlock⟩ := hw
  have hremove : ∃ t₂, (Operation.remove owner).exec (put (transaction id) none t) = (true, t₂) ∧
      (get lock t₂ = some (.directory []) ∨ get lock t₂ = none) ∧
      get (transaction id) t₂ = none ∧ get active t₂ = marker := by
    have hlock₁ : get lock (put (transaction id) none t) = get lock t :=
      get_put_apart (by simp [transaction, lock, hid.lock]) none t
    have hactive₁ : get active (put (transaction id) none t) = get active t :=
      get_put_apart (by simp [transaction, active, hid.active]) none t
    have hnone := get_put_none (transaction id) t
    generalize put (transaction id) none t = t₁ at hlock₁ hactive₁ hnone ⊢
    have howned : get owner t₁ = get ["owner"] (get lock t₁) := get_append lock ["owner"] t₁
    rcases h with h | h
    · -- The owner is a file, and the only entry of the lock.
      rw [hlock₁, h.locked] at howned
      have hput : get lock (put owner none t₁) = put ["owner"] none (get lock t₁) :=
        get_put_append lock "owner" [] none t₁
      refine ⟨put owner none t₁, ?_, .inl ?_, ?_, ?_⟩
      · rw [Operation.exec, howned]
        rfl
      · rw [hput, hlock₁, h.locked]
        rfl
      · rw [get_put_apart (by simp [transaction, owner, hid.lock.symm])]
        exact hnone
      · rw [get_put_apart (by simp [active, owner]), hactive₁]
        exact h.marked
    · rw [hlock₁, h.unlocked] at howned
      refine ⟨t₁, ?_, .inr (hlock₁.trans h.unlocked), hnone, hactive₁.trans h.marked⟩
      rw [Operation.exec, howned]
      rfl
  obtain ⟨t₂, hexec, hlock₂, hnone, hactive⟩ := hremove
  have hclean : w.clean (cleanup id) t = (true, ((Operation.rmdir lock).exec t₂).2) := by
    simp only [cleanup, Weather.clean, perform_calm hwipe, perform_calm howner, perform_calm hlock]
    have hwiped : (Operation.removeAll (transaction id)).exec t =
        (true, put (transaction id) none t) := rfl
    simp only [hwiped, hexec, Bool.or_true, Bool.true_or, if_true]
  rw [hclean]
  refine ⟨rfl, ?_⟩
  rcases hlock₂ with hlock₂ | hlock₂
  · rw [Operation.exec, hlock₂]
    constructor
    · exact get_put_none lock t₂
    · rw [get_put_apart (by simp [transaction, lock, hid.lock.symm])]
      exact hnone
    · rw [get_put_apart (by simp [active, lock])]
      exact hactive
  · rw [Operation.exec, hlock₂]
    exact ⟨hlock₂, hnone, hactive⟩

/-- The trap of `begin`. -/
theorem shelter (hid : Unmarked id) :
    Shelter w (Harmless w) (cleanup id) (CleansUp w) (Held id marker) (Gone id marker) where
  clean := fun hw _ h => cleanup_gone hid hw h
  spares := by
    intro point o s htrap hstep hsignal
    exact (hstep.1 hsignal).2 (by rw [htrap]; simp)

/-- What is in the transaction's directory is apart from the markers. -/
theorem below_lock (hid : Unmarked id) {o : Operation}
    (hbelow : ∀ p ∈ o.touches, ∃ x r, p = transaction id ++ x :: r) :
    ∀ p ∈ o.touches, Apart p lock := by
  intro p hp
  obtain ⟨x, r, rfl⟩ := hbelow p hp
  simp [transaction, lock, hid.lock]

theorem below_active (hid : Unmarked id) {o : Operation}
    (hbelow : ∀ p ∈ o.touches, ∃ x r, p = transaction id ++ x :: r) :
    ∀ p ∈ o.touches, Apart p active := by
  intro p hp
  obtain ⟨x, r, rfl⟩ := hbelow p hp
  simp [transaction, active, hid.active]

/-- A command below the transaction's directory keeps what is kept. -/
theorem Held.perform (hid : Unmarked id) {point : Point} {o : Operation}
    (hbelow : ∀ p ∈ o.touches, ∃ x r, p = transaction id ++ x :: r) {t : FileTree}
    (h : Held id marker t) : Held id marker (w.perform point o t).2 where
  locked := by rw [perform_apart (below_lock hid hbelow), h.locked]
  marked := by rw [perform_apart (below_active hid hbelow), h.marked]

/-- So does one that finds the transaction gone. -/
theorem Gone.perform (hid : Unmarked id) {point : Point} {o : Operation}
    (hbelow : ∀ p ∈ o.touches, ∃ x r, p = transaction id ++ x :: r) (hmkdirs : ∀ q, o ≠ .mkdirs q)
    {t : FileTree} (h : Gone id marker t) : Gone id marker (w.perform point o t).2 where
  unlocked := by rw [perform_apart (below_lock hid hbelow), h.unlocked]
  removed := perform_below hbelow hmkdirs h.removed
  marked := by rw [perform_apart (below_active hid hbelow), h.marked]

/-! ### From the trap on -/

/-- What `begin` is under its trap. -/
abbrev UnderTrap {α : Type} (w : Weather Point) (id : String) (marker : FileTree)
    (script : Script Point α) : Prop :=
  Sheltered w (Harmless w) (cleanup id) (CleansUp w) (Held id marker) (Gone id marker) script

/-- A command below the transaction's directory. -/
theorem underTrap_require (hid : Unmarked id) (point : Point) {o : Operation}
    (hbelow : ∀ p ∈ o.touches, ∃ x r, p = transaction id ++ x :: r) (hmkdirs : ∀ q, o ≠ .mkdirs q) :
    UnderTrap w id marker (Script.require point o) :=
  .require (shelter hid) point o (fun _ h => h.perform hid hbelow)
    fun _ h => h.perform hid hbelow hmkdirs

theorem underTrap_idle (hid : Unmarked id) (point : Point) :
    UnderTrap w id marker (Script.require point .idle) :=
  underTrap_require hid point (by simp [Operation.touches]) (by simp)

/-- One round of the loop. -/
theorem underTrap_snapshot (hid : Unmarked id) (target : Target) :
    UnderTrap w id marker (snapshot id target) := by
  refine (underTrap_idle hid _).andThen fun _ => ?_
  refine Sheltered.andThen ?_ fun there => ?_
  · refine .status (shelter hid) _ _ (fun _ h => h.perform hid ?_) (fun _ h => h.perform hid ?_ ?_)
      fun _ => rfl
    all_goals simp [Operation.touches]
  · split
    · refine (underTrap_require hid _ ?_ (by simp)).andThen fun _ =>
        underTrap_require hid _ ?_ (by simp)
      · intro p hp
        rw [List.mem_singleton.mp hp]
        exact ⟨"before", [name target], by simp [before, transaction]⟩
      · intro p hp
        rw [List.mem_singleton.mp hp]
        exact ⟨"present", [name target], by simp [present, transaction]⟩
    · exact .pure ()

/-- What becomes of the rest of `begin`, from a tree that is kept. -/
abbrev Concludes (w : Weather Point) (id : String) (marker : FileTree)
    (script : Script Point Unit) (t : FileTree) : Prop :=
  Settles w (Harmless w) (cleanup id) (CleansUp w) (Held id marker) (Gone id marker) script t

/-- A harmless signal at one of the last steps comes only where its command failed. -/
theorem quiet_of_exposed {point : Point} {o : Operation} {s : Process Point}
    (hexposed : ∀ done, point.exposed done = done) (h : Harmless w (.run point o) s) :
    w.signal point = true → (w.perform point o s.tree).1 = false := by
  intro hsignal
  rw [← hexposed (w.perform point o s.tree).1]
  exact (h.1 hsignal).1

/-- `sync` changes no file, whatever comes of it. -/
theorem perform_idle (point : Point) (t : FileTree) : (w.perform point .idle t).2 = t := by
  rw [perform]
  split <;> rfl

/-- A `mv` that fails has not moved anything. -/
theorem perform_move_failed {point : Point} {s d : Path} {t : FileTree}
    (h : (w.perform point (.move s d) t).1 = false) : (w.perform point (.move s d) t).2 = t := by
  rw [perform] at h ⊢
  split
  · rfl
  · rename_i hfault
    rw [if_neg hfault] at h
    exact move_failed h

/-- From the finished snapshot on. -/
theorem activate_concludes (hid : Unmarked id) {t : FileTree} (h : Held id marker t) :
    Concludes w id marker (activate id) t := by
  refine .require (shelter hid) fun hstep => ⟨quiet_of_exposed (fun _ => rfl) hstep, fun _ => ?_,
    fun _ => ?_⟩
  · rw [perform_idle]
    exact h
  rw [perform_idle]
  have hnew : ∀ t', Held id marker t' →
      Held id marker (w.perform .activeNew (.write activeNew (line id)) t').2 := by
    intro t' h'
    constructor
    · rw [perform_apart (by simp [Operation.touches, activeNew, lock]), h'.locked]
    · rw [perform_apart (by simp [Operation.touches, activeNew, active]), h'.marked]
  refine .require (shelter hid) fun hstep => ⟨quiet_of_exposed (fun _ => rfl) hstep,
    fun _ => hnew t h, fun _ => ?_⟩
  have h₁ := hnew t h
  generalize (w.perform .activeNew (.write activeNew (line id)) t).2 = t₁ at h₁
  refine .require (shelter hid) fun hstep => ⟨quiet_of_exposed (fun _ => rfl) hstep, fun hfail => ?_,
    fun _ => ?_⟩
  · rw [perform_move_failed hfail]
    exact h₁
  generalize (w.perform .active (.move activeNew active) t₁).2 = t₂
  refine .require (shelter hid) fun hstep => ⟨quiet_of_exposed (fun _ => rfl) hstep, fun hfail => ?_,
    fun _ => ?_⟩
  · -- The last `sync` may not fail: the marker is there, and the trap does not know it.
    have hcalm : w.fault .activeSync = false := by
      by_contra hfault
      exact absurd (hstep.2 (by simpa using hfault)) (by decide)
    rw [perform_calm hcalm] at hfail
    cases hfail
  refine .untrap fun hstep => ?_
  by_contra hsignal
  exact absurd (hstep (by simpa using hsignal)).1 (by decide)

/-- What is left of `begin`, from some command on. -/
abbrev Completes (w : Weather Point) (id : String) (marker : FileTree)
    (script : Script Point Unit) : Prop :=
  Finishes w (Harmless w) (cleanup id) (CleansUp w) (Held id marker) (Gone id marker) script

/-- From the state on. Once the snapshot is gone, its state cannot be written. -/
theorem state_completes (hid : Unmarked id) :
    Completes w id marker (do
      Script.require .state (.write (stateFile id) (line "pending"))
      activate id) := by
  have hbelow : ∀ p ∈ (Operation.write (stateFile id) (line "pending")).touches,
      ∃ x r, p = transaction id ++ x :: r := by
    intro p hp
    rw [List.mem_singleton.mp hp]
    exact ⟨"state", [], by simp [stateFile, transaction]⟩
  constructor
  · intro t h
    refine .require (shelter hid) fun hstep => ⟨quiet_of_exposed (fun _ => rfl) hstep,
      fun _ => h.perform hid hbelow, fun _ => ?_⟩
    exact activate_concludes hid (h.perform hid hbelow)
  · refine .require (shelter hid) _ fun t h => ⟨?_, h.perform hid hbelow (by simp)⟩
    rw [perform]
    split
    · rfl
    · have habove : (get (above (stateFile id)) t).isDirectory = false := by
        show (get (transaction id) t).isDirectory = false
        rw [h.removed]
        rfl
      rw [Operation.exec, if_pos (.inr (.inr habove))]

/-- From the snapshot's directories on. -/
theorem prepare_completes (hid : Unmarked id) (identity : String) :
    Completes w id marker (prepare id identity) := by
  have hparts : UnderTrap w id marker (Script.require .parts
      (.mkdir [transaction id ++ ["before"], transaction id ++ ["present"]])) := by
    refine underTrap_require hid _ (fun p hp => ?_) (by simp)
    rcases List.mem_cons.mp hp with rfl | hp
    · exact ⟨"before", [], rfl⟩
    · rw [List.mem_singleton.mp hp]
      exact ⟨"present", [], rfl⟩
  have hidentity : UnderTrap w id marker
      (Script.require .identity (.write (identityFile id) (line identity))) := by
    refine underTrap_require hid _ (fun p hp => ?_) (by simp)
    rw [List.mem_singleton.mp hp]
    exact ⟨"identity", [], by simp [identityFile, transaction]⟩
  refine .andThen hparts fun _ => .andThen hidentity fun _ => ?_
  refine .andThen (.each fun target _ => underTrap_snapshot hid target) fun _ => ?_
  exact .andThen (underTrap_idle hid _) fun _ => state_completes hid

/-- A run of `begin` from the trap on, to its end: it has done what it does by itself, or it exits
with another status than 0, and the trap's action has removed what there was. -/
theorem prepareTrapped_ending (hid : Unmarked id) (identity : String) {t : FileTree}
    (h : Held id marker t) (hspares : Spares w (prepareTrapped id identity) ⟨t, none⟩) :
    (∃ n ≠ 0, ∃ t', w.ending (prepareTrapped id identity) ⟨t, none⟩ = (.exited n, t') ∧
      Gone id marker t') ∨
    ∃ t', w.ending (prepareTrapped id identity) ⟨t, none⟩ = (.exited 0, t') ∧
      (prepareTrapped id identity).result t = (.ok (), t') := by
  obtain ⟨hfirst, hrest⟩ := hspares.steps.andThen
  have hcompletes : Completes w id marker (prepare id identity) := prepare_completes hid identity
  have htrap := w.play_trap .trap (some (cleanup id)) ⟨t, none⟩
  have hexit : ∀ n ≠ 0, ∀ t', w.play (prepareTrapped id identity).run ⟨t, none⟩ =
      .ok (.error n, ⟨t', some (cleanup id)⟩) →
        (Held id marker t' ∨ CleansUp w ∧ Gone id marker t') →
      ∃ n ≠ 0, ∃ t', w.ending (prepareTrapped id identity) ⟨t, none⟩ = (.exited n, t') ∧
        Gone id marker t' := by
    intro n hn t' hplay hleft
    have hcleans := hspares.ending n _ hplay (by simp)
    refine ⟨n, hn, _, ?_, (cleanup_gone hid hcleans (hleft.imp_right And.right)).2⟩
    rw [ending, hplay]
    rfl
  by_cases hsignal : w.signal .trap = true
  · -- A signal as soon as the trap is set: nothing is left for the rest to work on.
    left
    have hcleans := (hfirst.1 hsignal).2 (by simp)
    have hshelter : Shelter w (Harmless w) (cleanup id) (CleansUp w) (Held id marker)
        (Gone id marker) := shelter hid
    obtain ⟨t₁, hafter, hgone⟩ := hshelter.after hcleans .trap (.inl h) hsignal
    obtain ⟨n, hn, t', hplay, hgone'⟩ := hcompletes.doomed hcleans t₁ hgone
    refine hexit n hn t' ?_ (.inr ⟨hcleans, hgone'⟩)
    rw [hafter] at htrap
    exact (play_andThen_ok _ htrap).trans hplay
  · rw [after_calm hsignal] at htrap
    have hresult : (prepareTrapped id identity).result t = (prepare id identity).result t := rfl
    rcases hcompletes.settles t h (hrest () _ htrap) with ⟨n, hn, t', hplay, hleft⟩ | ⟨t', hplay, hok⟩
    · left
      exact hexit n hn t' ((play_andThen_ok _ htrap).trans hplay) hleft
    · right
      refine ⟨t', ?_, hresult.trans hok⟩
      rw [ending, prepareTrapped, (play_andThen_ok _ htrap).trans hplay]
      rfl

end Trap

/-! ### Before the trap -/

section Run

variable {w : Weather Point} {id : String} {t₀ t : FileTree}

/-- A run of harmless steps, from its first command on. -/
theorem Spares.require {point : Point} {o : Operation} {f : Unit → Script Point Unit}
    (h : Spares w (Script.require point o >>= f) ⟨t, none⟩) :
    Harmless w (.run point o) ⟨t, none⟩ ∧ (¬ w.signal point = true →
      (w.perform point o t).1 = true → Spares w (f ()) ⟨(w.perform point o t).2, none⟩) := by
  obtain ⟨hfirst, hrest⟩ := h.steps.andThen
  refine ⟨hfirst.1, fun hsignal hdone => ?_⟩
  have hplay : w.play (Script.require point o).run ⟨t, none⟩ =
      .ok (.ok (), ⟨(w.perform point o t).2, none⟩) := by
    rw [play_require, after_calm hsignal, hdone]
    rfl
  exact ⟨hrest () _ hplay, fun n s' hs => h.ending n s' ((play_andThen_ok f hplay).trans hs)⟩

theorem Spares.status {point : Point} {o : Operation} {f : Bool → Script Point Unit}
    (h : Spares w (Script.status point o >>= f) ⟨t, none⟩) :
    Harmless w (.run point o) ⟨t, none⟩ ∧ (¬ w.signal point = true →
      Spares w (f (w.perform point o t).1) ⟨(w.perform point o t).2, none⟩) := by
  obtain ⟨hfirst, hrest⟩ := h.steps.andThen
  refine ⟨hfirst.1, fun hsignal => ?_⟩
  have hplay : w.play (Script.status point o).run ⟨t, none⟩ =
      .ok (.ok (w.perform point o t).1, ⟨(w.perform point o t).2, none⟩) := by
    rw [play_status, after_calm hsignal]
    rfl
  exact ⟨hrest _ _ hplay, fun n s' hs => h.ending n s' ((play_andThen_ok f hplay).trans hs)⟩

/-- The script does not exit with 0, and what `begin` found is there. -/
def Fails (w : Weather Point) (id : String) (t₀ : FileTree) (script : Script Point Unit)
    (t : FileTree) : Prop :=
  (w.ending script ⟨t, none⟩).1 ≠ .exited 0 ∧ Untouched id t₀ (w.ending script ⟨t, none⟩).2

/-- Or it exits with 0, and has done what it does by itself. -/
def Comes (w : Weather Point) (id : String) (t₀ : FileTree) (script : Script Point Unit)
    (t : FileTree) : Prop :=
  Fails w id t₀ script t ∨ ∃ t', w.ending script ⟨t, none⟩ = (.exited 0, t') ∧
    script.result t = (.ok (), t')

/-- The script gives up. -/
theorem fails_throw (h : Untouched id t₀ t) : Fails w id t₀ (throw 73) t := by
  constructor
  · show Ending.exited 73 ≠ .exited 0
    simp
  · exact h

/-- A command that has to succeed, and does not when something comes in between. -/
theorem Fails.require {point : Point} {o : Operation} {f : Unit → Script Point Unit}
    (hstop : w.signal point = true ∨ (w.perform point o t).1 = false →
      Untouched id t₀ (w.perform point o t).2)
    (hdone : ¬ w.signal point = true → (w.perform point o t).1 = true →
      Fails w id t₀ (f ()) (w.perform point o t).2) :
    Fails w id t₀ (Script.require point o >>= f) t := by
  rw [Fails, ending_require]
  by_cases hsignal : w.signal point = true
  · rw [if_pos hsignal]
    exact ⟨by simp, hstop (.inl hsignal)⟩
  · rw [if_neg hsignal]
    cases hperform : (w.perform point o t).1 with
    | false => exact ⟨by simp, hstop (.inr hperform)⟩
    | true => exact hdone hsignal hperform

theorem Comes.require {point : Point} {o : Operation} {f : Unit → Script Point Unit}
    (hstop : w.signal point = true ∨ (w.perform point o t).1 = false →
      Untouched id t₀ (w.perform point o t).2)
    (hdone : ¬ w.signal point = true → (w.perform point o t).1 = true →
      Comes w id t₀ (f ()) (w.perform point o t).2) :
    Comes w id t₀ (Script.require point o >>= f) t := by
  by_cases hsignal : w.signal point = true
  · exact .inl (.require hstop fun h => absurd hsignal h)
  cases hperform : (w.perform point o t).1 with
  | false => exact .inl (.require hstop fun _ h => by rw [hperform] at h; cases h)
  | true =>
    rcases hdone hsignal hperform with hfails | ⟨t', hending, hresult⟩
    · exact .inl (.require hstop fun _ _ => hfails)
    · refine .inr ⟨t', ?_, (Script.result_andThen (result_require hperform)).trans hresult⟩
      rw [ending_require, if_neg hsignal, if_pos hperform]
      exact hending

/-- A command whose status is looked at. -/
theorem Comes.status {point : Point} {o : Operation} {f : Bool → Script Point Unit}
    (hkilled : w.signal point = true → Untouched id t₀ (w.perform point o t).2)
    (hdone : ¬ w.signal point = true → (w.perform point o t).1 = true →
      Comes w id t₀ (f true) (w.perform point o t).2)
    (hfailed : ¬ w.signal point = true → (w.perform point o t).1 = false →
      Fails w id t₀ (f false) (w.perform point o t).2) :
    Comes w id t₀ (Script.status point o >>= f) t := by
  rw [Comes, Fails, ending_status]
  by_cases hsignal : w.signal point = true
  · rw [if_pos hsignal]
    exact .inl ⟨by simp, hkilled hsignal⟩
  · rw [if_neg hsignal]
    cases hperform : (w.perform point o t).1 with
    | false => exact .inl (hfailed hsignal hperform)
    | true =>
      rw [Script.result_andThen (result_status hperform)]
      exact hdone hsignal hperform

/-- A `mkdir` that fails has not made anything. -/
theorem perform_mkdir_failed {point : Point} {p : Path}
    (h : (w.perform point (.mkdir [p]) t).1 = false) : (w.perform point (.mkdir [p]) t).2 = t := by
  rw [perform] at h ⊢
  split
  · rfl
  · rename_i hfault
    rw [if_neg hfault] at h
    exact mkdir_failed h

/-- One that succeeds has found nothing. -/
theorem perform_mkdir_done {point : Point} {p : Path}
    (h : (w.perform point (.mkdir [p]) t).1 = true) : (get (above p) t).isDirectory = true ∧
      get p t = none ∧ (w.perform point (.mkdir [p]) t).2 = put p (some (.directory [])) t := by
  have hexec := exec_of_perform h
  rw [Operation.exec_mkdir_one] at hexec
  have hdone : (Operation.makeDirectory p t).1 = true := by rw [hexec]
  obtain ⟨habove, hnone, hmade⟩ := Operation.makeDirectory_done hdone
  exact ⟨habove, hnone, by rw [hmade] at hexec; exact (Prod.ext_iff.mp hexec).2.symm⟩

/-- A harmless step at an exposed point has no signal. -/
theorem Harmless.quiet {point : Point} {o : Operation} {s : Process Point}
    (h : Harmless w (.run point o) s)
    (hexposed : point.exposed (w.perform point o s.tree).1 = true) : ¬ w.signal point = true := by
  intro hsignal
  rw [(h.1 hsignal).1] at hexposed
  cases hexposed

/-- At an unguarded one the command does not fail for no reason. -/
theorem Harmless.calm {point : Point} {o : Operation} {s : Process Point}
    (h : Harmless w (.run point o) s) (hunguarded : point.unguarded = true) :
    w.perform point o s.tree = o.exec s.tree := by
  refine perform_calm ?_ o s.tree
  by_contra hfault
  rw [h.2 (by simpa using hfault)] at hunguarded
  cases hunguarded

/-- The lock was made here, and its owner was written. -/
structure Taken (id : String) (t₀ t : FileTree) : Prop where
  before : get lock t₀ = none
  locked : get lock t = some (.directory [("owner", .file (line id))])
  active : get active t = get active t₀
  transaction : get (transaction id) t = get (transaction id) t₀

/-- The transaction is there already, and the lock is given back. -/
theorem undo_fails (hid : Unmarked id) (h : Taken id t₀ t)
    (hspares : Spares w (do
      Script.require .undoOwner (.remove owner)
      Script.require .undoLock (.rmdir lock)
      throw 73) ⟨t, none⟩) :
    Fails w id t₀ (do
      Script.require .undoOwner (.remove owner)
      Script.require .undoLock (.rmdir lock)
      throw 73) t := by
  obtain ⟨hstep, hrest⟩ := hspares.require
  have howner : get owner t = some (.file (line id)) := by
    rw [show owner = lock ++ ["owner"] from rfl, get_append, h.locked]
    rfl
  have hremoved : w.perform .undoOwner (.remove owner) t = (true, put owner none t) := by
    rw [hstep.calm rfl, Operation.exec, howner]
  have hquiet := hstep.quiet rfl
  rw [hremoved] at hrest
  have hlock₁ : get lock (put owner none t) = some (.directory []) := by
    rw [show owner = lock ++ "owner" :: [] from rfl, get_put_append, h.locked]
    rfl
  have hactive₁ : get active (put owner none t) = get active t :=
    get_put_apart (by simp [owner, active]) none t
  have htransaction₁ : get (transaction id) (put owner none t) = get (transaction id) t :=
    get_put_apart (by simp [owner, transaction, hid.lock.symm]) none t
  refine .require (fun hstop => ?_) fun _ _ => ?_
  · rw [hremoved] at hstop
    cases hstop.resolve_left hquiet
  rw [hremoved]
  obtain ⟨hstep₁, -⟩ := (hrest hquiet rfl).require
  generalize put owner none t = t₁ at *
  have hunlocked : w.perform .undoLock (.rmdir lock) t₁ = (true, put lock none t₁) := by
    rw [hstep₁.calm rfl, Operation.exec, hlock₁]
  have huntouched : Untouched id t₀ (put lock none t₁) := by
    constructor
    · rw [get_put_apart (by simp [lock, active]), hactive₁, h.active]
    · rw [get_put_none, h.before]
    · rw [get_put_apart (by simp [lock, transaction, hid.lock.symm]), htransaction₁, h.transaction]
  refine .require (fun _ => ?_) fun _ _ => ?_
  · rw [hunlocked]
    exact huntouched
  · rw [hunlocked]
    exact fails_throw huntouched

/-- With the lock and its owner. -/
theorem taken_comes (hid : Unmarked id) (identity : String) (h : Taken id t₀ t)
    (hspares : Spares w (do
      let made ← Script.status .transaction (.mkdir [transaction id])
      if made then prepareTrapped id identity
      else do
        Script.require .undoOwner (.remove owner)
        Script.require .undoLock (.rmdir lock)
        throw 73) ⟨t, none⟩) :
    Comes w id t₀ (do
      let made ← Script.status .transaction (.mkdir [transaction id])
      if made then prepareTrapped id identity
      else do
        Script.require .undoOwner (.remove owner)
        Script.require .undoLock (.rmdir lock)
        throw 73) t := by
  obtain ⟨hstep, hrest⟩ := hspares.status
  refine .status (fun hsignal => absurd hsignal (hstep.quiet rfl)) (fun hquiet hdone => ?_)
    fun hquiet hfailed => ?_
  · obtain ⟨-, hnone, hmade⟩ := perform_mkdir_done hdone
    have hheld : Held id (get active t₀) (w.perform .transaction (.mkdir [transaction id]) t).2 := by
      rw [hmade]
      constructor
      · rw [get_put_apart (by simp [transaction, lock, hid.lock]), h.locked]
      · rw [get_put_apart (by simp [transaction, active, hid.active]), h.active]
    have hprepare := hrest hquiet
    rw [hdone] at hprepare
    rcases prepareTrapped_ending hid identity hheld hprepare with
      ⟨n, hn, t', hending, hgone⟩ | hcomes
    · left
      rw [Fails, if_pos rfl, hending]
      refine ⟨by simpa using hn, hgone.marked, ?_, ?_⟩
      · rw [hgone.unlocked, h.before]
      · rw [hgone.removed, ← h.transaction, hnone]
    · exact .inr hcomes
  · have hundo := hrest hquiet
    rw [hfailed] at hundo
    rw [perform_mkdir_failed hfailed] at hundo ⊢
    exact undo_fails hid h hundo

/-- With a lock that was just made. -/
theorem beginLocked_comes (hid : Unmarked id) (identity : String) (hlock₀ : get lock t₀ = none)
    (hlock : get lock t = some (.directory [])) (hactive : get active t = get active t₀)
    (htransaction : get (transaction id) t = get (transaction id) t₀)
    (hspares : Spares w (beginLocked id identity) ⟨t, none⟩) :
    Comes w id t₀ (beginLocked id identity) t := by
  obtain ⟨hstep, hrest⟩ := hspares.require
  have howner : get owner t = none := by
    rw [show owner = lock ++ ["owner"] from rfl, get_append, hlock]
    rfl
  have hwritten : w.perform .owner (.write owner (line id)) t =
      (true, put owner (some (.file (line id))) t) := by
    rw [hstep.calm rfl]
    refine Operation.exec_write ?_ (.inl howner)
    show (get lock t).isDirectory = true
    rw [hlock]
    rfl
  have hquiet := hstep.quiet rfl
  rw [hwritten] at hrest
  refine .require (fun hstop => ?_) fun _ _ => ?_
  · rw [hwritten] at hstop
    cases hstop.resolve_left hquiet
  rw [hwritten]
  refine taken_comes hid identity ⟨hlock₀, ?_, ?_, ?_⟩ (hrest hquiet rfl)
  · rw [show owner = lock ++ "owner" :: [] from rfl, get_put_append, hlock]
    rfl
  · rw [get_put_apart (by simp [owner, active]), hactive]
  · rw [get_put_apart (by simp [owner, transaction, hid.lock.symm]), htransaction]

/-- `mkdir -p $base` changes nothing below it. -/
theorem perform_base (x : String) (q : Path) (t : FileTree) :
    get (base ++ x :: q) (w.perform .base (.mkdirs base) t).2 = get (base ++ x :: q) t := by
  rw [perform]
  split
  · rfl
  · exact mkdirs_below base x q t

/-- `begin`, when all its steps are harmless: nothing has changed, or it has done what it does by
itself. -/
theorem begin_comes (hid : Unmarked id) (identity : String)
    (hspares : Spares w (begin id identity) ⟨t, none⟩) : Comes w id t (begin id identity) t := by
  obtain ⟨-, hrest⟩ := hspares.require
  have hbase : Untouched id t (w.perform .base (.mkdirs base) t).2 :=
    ⟨perform_base "active" [] t, perform_base "lock" [] t, perform_base id [] t⟩
  refine .require (fun _ => hbase) fun hquiet hdone => ?_
  have hlocking := hrest hquiet hdone
  generalize (w.perform .base (.mkdirs base) t).2 = t₁ at hbase hlocking ⊢
  obtain ⟨hstep, hrest⟩ := hlocking.status
  refine .status (fun hsignal => ?_) (fun hquiet hdone => ?_) fun _ hfailed => ?_
  · -- A signal that is harmless here comes with a lock that was not made.
    rw [perform_mkdir_failed (hstep.1 hsignal).1]
    exact hbase
  · obtain ⟨habove, hnone, hmade⟩ := perform_mkdir_done hdone
    have hlocked := hrest hquiet
    rw [hdone] at hlocked
    rw [hmade] at hlocked ⊢
    refine beginLocked_comes hid identity ?_ ?_ ?_ ?_ hlocked
    · rw [← hbase.lock, hnone]
    · exact get_put_self _ (by simp [lock, base]) habove
    · rw [get_put_apart (by simp [lock, active]), hbase.active]
    · rw [get_put_apart (by simp [lock, transaction, hid.lock.symm]), hbase.transaction]
  · rw [perform_mkdir_failed hfailed]
    exact fails_throw hbase

end Run

/-! ### What a `begin` that comes to its end has written -/

section Marked

variable {id : String}

/-- Both markers name the transaction. -/
def Marked (id : String) (t : FileTree) : Prop :=
  get active t = some (.file (line id)) ∧ get owner t = some (.file (line id))

/-- Where the active marker is no directory, it is replaced. -/
theorem activate_marked {t : FileTree} (hactive : (get active t).isDirectory = false)
    (howner : get owner t = some (.file (line id))) :
    Ends (fun r t' => r = .ok () → Marked id t') (activate id) t := by
  refine Ends.require (fun _ => by simp) fun _ => ?_
  show Ends _ _ t
  refine Ends.require (fun _ => by simp) fun hnew => ?_
  have hwritten := Operation.get_write (by simp [activeNew, base]) hnew
  have hactive₁ : (get active ((Operation.write activeNew (line id)).exec t).2).isDirectory =
      false := by
    rw [Operation.exec_apart (by simp [Operation.touches, activeNew, active]), hactive]
  have howner₁ : get owner ((Operation.write activeNew (line id)).exec t).2 =
      some (.file (line id)) := by
    rw [Operation.exec_apart (by simp [Operation.touches, activeNew, owner]), howner]
  show Ends _ _ ((Operation.write activeNew (line id)).exec t).2
  generalize ((Operation.write activeNew (line id)).exec t).2 = t₁ at *
  refine Ends.require (fun _ => by simp) fun hmove => ?_
  have hrename : (Operation.move activeNew active).exec t₁ =
      Operation.rename activeNew active t₁ := by
    rw [Operation.exec, Operation.within_of_not_directory hactive₁]
  refine Ends.require (fun h => by cases h) fun _ => ends_iff.mpr fun _ => ⟨?_, ?_⟩
  · show get active ((Operation.move activeNew active).exec t₁).2 = _
    rw [hrename] at hmove ⊢
    exact (Operation.get_rename (d := active) (by simp [active, base]) rfl hmove).trans hwritten
  · show get owner ((Operation.move activeNew active).exec t₁).2 = _
    rw [Operation.exec_apart (by simp [Operation.touches, activeNew, active, owner]), howner₁]

/-- From the snapshot's directories on: nothing before touches the markers. -/
theorem prepare_marked (hid : Unmarked id) (identity : String) {t : FileTree}
    (hactive : (get active t).isDirectory = false)
    (howner : get owner t = some (.file (line id))) :
    Ends (fun r t' => r = .ok () → Marked id t') (prepare id identity) t := by
  have hkeep : ∀ p ∈ [active, owner], ∀ q, Apart (transaction id ++ q) p := by
    intro p hp q
    rcases List.mem_cons.mp hp with rfl | hp
    · simp [transaction, active, hid.active]
    · rw [List.mem_singleton.mp hp]
      simp [transaction, owner, hid.lock]
  have hcommand : ∀ (o : Operation) t, (∀ p ∈ o.touches, ∃ q, p = transaction id ++ q) →
      ∀ p ∈ [active, owner], get p (o.exec t).2 = get p t := by
    intro o t ho p hp
    refine Operation.exec_apart (fun p' hp' => ?_) t
    obtain ⟨q, rfl⟩ := ho p' hp'
    exact hkeep p hp q
  have hloop : ∀ p ∈ [active, owner], ∀ t,
      get p ((Script.each (snapshot id) targets).result t).2 = get p t := by
    intro p hp t
    refine Touches.result (.each fun target _ => ?_) t
    exact snapshot_touches id target (hkeep p hp ["before", name target])
      (hkeep p hp ["present", name target])
  refine Ends.require (fun _ => by simp) fun _ => ?_
  refine Ends.require (fun _ => by simp) fun _ => ?_
  refine Safely.andThen (R := fun _ t' => ∀ p ∈ [active, owner], get p t' = get p t)
    (ends_iff.mpr fun p hp => ?_) (fun _ _ _ => by simp) fun _ t₁ hsame => ?_
  · rw [hloop p hp, hcommand _ _ ?_ p hp, hcommand _ _ ?_ p hp]
    · simp [Operation.touches]
    · simp [Operation.touches, identityFile, transaction]
  refine Ends.require (fun _ => by simp) fun _ => ?_
  show Ends _ _ t₁
  refine Ends.require (fun _ => by simp) fun _ => ?_
  have hstate : ∀ p ∈ [active, owner],
      get p ((Operation.write (stateFile id) (line "pending")).exec t₁).2 = get p t := by
    intro p hp
    rw [hcommand _ _ ?_ p hp, hsame p hp]
    simp [Operation.touches, stateFile, transaction]
  exact activate_marked (by rw [hstate active (by simp), hactive])
    (by rw [hstate owner (by simp), howner])

/-- A `begin` that comes to its end leaves its id in both markers. -/
theorem begin_marked (hid : Unmarked id) (identity : String) {t : FileTree}
    (hactive : (get active t).isDirectory = false) :
    Ends (fun r t' => r = .ok () → Marked id t') (begin id identity) t := by
  refine Ends.require (fun _ => by simp) fun _ => Ends.status ?_
  split
  · refine Ends.require (fun _ => by simp) fun howner => Ends.status ?_
    have hwritten := Operation.get_write (by simp [owner, base]) howner
    split
    · refine Ends.trap (prepare_marked hid identity ?_ ?_)
      · rw [Operation.exec_apart (by simp [Operation.touches, transaction, active, hid.active]),
          Operation.exec_apart (by simp [Operation.touches, owner, active]),
          Operation.exec_apart (by simp [Operation.touches, lock, active])]
        have hbase : get active ((Operation.mkdirs base).exec t).2 = get active t :=
          mkdirs_below base "active" [] t
        exact (congrArg FileTree.isDirectory hbase).trans hactive
      · rw [Operation.exec_apart (by simp [Operation.touches, transaction, owner, hid.lock])]
        exact hwritten
    · refine Ends.require (fun _ => by simp) fun _ => ?_
      refine Ends.require (fun _ => by simp) fun _ => ?_
      exact Safely.pure (by simp)
  · exact Safely.pure (by simp)

end Marked

/-! ### Every run -/

section Every

variable (w : Weather Point) (device : Device) {id : String} (identity : String) {t : FileTree}

/-- `begin` is all or nothing in every run whose steps are harmless, where the active marker is no
directory. The installer's ids are UUIDs, and no markers. -/
theorem begin_all_or_nothing (hlock : id ≠ "lock") (hactive : id ≠ "active")
    (hmarker : (get active t).isDirectory = false)
    (hspares : Spares w (invoke device .begin id identity) ⟨t, none⟩) :
    AllOrNothing id t (w.ending (invoke device .begin id identity) ⟨t, none⟩) := by
  by_cases hvalid : (validId id && validIdentity identity) = true
  · have hid := Unmarked.of_valid ((Bool.and_eq_true _ _).mp hvalid).1 hlock hactive
    have hbegin : invoke device .begin id identity = begin id identity := if_pos hvalid
    rw [hbegin] at hspares ⊢
    rcases begin_comes hid identity hspares with ⟨hexit, huntouched⟩ | ⟨t', hending, hresult⟩
    · exact ⟨fun h => absurd h hexit, fun _ => huntouched⟩
    · rw [hending]
      refine ⟨fun _ => ?_, fun h => absurd rfl h⟩
      have hcopied := ends_iff.mp (begin_copied identity hid t)
      have hstate := ends_iff.mp (begin_state identity hid t)
      have hmarked := ends_iff.mp (begin_marked hid identity hmarker)
      rw [hresult] at hcopied hstate hmarked
      obtain ⟨hactive', howner'⟩ := hmarked rfl
      have hline := contents_of_line ((Bool.and_eq_true _ _).mp hvalid).1 hactive'
      have hpending : contents (stateFile id) t' = "pending" :=
        contents_of_line (by decide) (hstate rfl)
      exact ⟨hcopied rfl, hpending, hline,
        contents_of_line ((Bool.and_eq_true _ _).mp hvalid).1 howner'⟩
  · have hrefused : invoke device .begin id identity = throw 64 := if_neg hvalid
    rw [hrefused]
    refine ⟨fun h => ?_, fun _ => ⟨rfl, rfl, rfl⟩⟩
    have hexit : Ending.exited 64 = .exited 0 := h
    simp at hexit

end Every

/-- A weather in which signals come at other points only, and no more fails than is guarded. -/
theorem Spares.of_unexposed {w : Weather Point} (hw : CleansUp w)
    (hsignal : ∀ point, w.signal point = true → point.exposed true = false)
    (hfault : ∀ point, w.fault point = true → point.unguarded = false)
    (script : Script Point Unit) (s : Process Point) : Spares w script s := by
  have hexposed : ∀ (point : Point) done, point.exposed true = false →
      point.exposed done = false := by
    intro point done h
    cases done with
    | true => exact h
    | false => cases point <;> first | rfl | cases h
  refine ⟨Meets.of_forall (fun a s => ?_) script.run s, fun _ _ _ _ => hw⟩
  cases a with
  | run point o =>
    exact ⟨fun h => ⟨hexposed point _ (hsignal point h), fun _ => hw⟩, hfault point⟩
  | trap point action => exact fun h => ⟨hsignal point h, fun _ => hw⟩

/-- One signal, and every command works. -/
def oneSignal (point : Point) : Weather Point where
  fault _ := false
  left _ := none
  signal p := p == point

/-- A signal while a target is copied: `begin` fails, and nothing is left. -/
theorem begin_nothing_after_copy :
    ((oneSignal (.copy ["data", "www"])).ending
      (invoke Failed.device .begin "test-123" "aabb") ⟨Failed.files, none⟩).1 = .exited 1 ∧
    AllOrNothing "test-123" Failed.files ((oneSignal (.copy ["data", "www"])).ending
      (invoke Failed.device .begin "test-123" "aabb") ⟨Failed.files, none⟩) := by
  refine ⟨by decide +kernel, begin_all_or_nothing _ Failed.device "aabb" (by decide) (by decide)
    (by decide +kernel) (.of_unexposed ⟨rfl, rfl, rfl⟩ (fun point h => ?_) (by simp [oneSignal])
      _ _)⟩
  rw [eq_of_beq h]
  rfl

/-- A signal right after the state is written: the snapshot and the lock are removed, and `begin`
makes the transaction the active one and exits 0. -/
theorem begin_succeeds_without_snapshot :
    ((oneSignal .state).ending (invoke Failed.device .begin "test-123" "aabb")
      ⟨Failed.files, none⟩).1 = .exited 0 ∧
    contents active ((oneSignal .state).ending (invoke Failed.device .begin "test-123" "aabb")
      ⟨Failed.files, none⟩).2 = "test-123" ∧
    ¬ AllOrNothing "test-123" Failed.files ((oneSignal .state).ending
      (invoke Failed.device .begin "test-123" "aabb") ⟨Failed.files, none⟩) := by
  refine ⟨by decide +kernel, by decide +kernel, fun h => ?_⟩
  have howner := (h.all (by decide +kernel)).2.2.2
  revert howner
  decide +kernel

end OpenUI.Deploy
