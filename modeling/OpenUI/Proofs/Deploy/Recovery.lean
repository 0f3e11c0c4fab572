import OpenUI.Deploy.Interruptions
import OpenUI.Proofs.Deploy.Signals

/-!
# `OpenUI.Proofs.Deploy.Recovery`: after a power loss the device can be recovered

Whoever holds the lock has either a snapshot without a state, which `discard-incomplete` removes, or
one with a state, which `restore` puts back. Every command of every invocation keeps this, and a cut
does unless it leaves a lock without its owner, a snapshot without its identity, or half a text.

* `Recoverable`: what is kept.
* `safely_restore`, `safely_complete`, `safely_discard`: the actions after `begin`.
-/

set_option autoImplicit false

namespace OpenUI.Deploy

open OpenUI.Shell OpenUI.Shell.FileTree OpenUI.Shell.Weather

/-! ### What is kept -/

/-- A copy is there where there is a mark, it is of the target's kind, and the target's directory is
there. -/
def Usable (kind : Target → Bool) (id : String) (target : Target) (t : FileTree) : Prop :=
  (get (present id target) t).isFile = true →
    get (before id target) t ≠ none ∧ (get (before id target) t).isDirectory = kind target ∧
      (get (above target) t).isDirectory = true

/-- The transaction can be put back, once it has a state. -/
structure Recorded (kind : Target → Bool) (id identity : String) (t : FileTree) : Prop where
  valid : validIdentity identity = true
  identity : contents (identityFile id) t = identity
  copies : ∀ target ∈ targets, Usable kind id target t

/-- Nothing is there of a transaction that was not begun, and one that has a state can be put
back. -/
structure Stored (kind : Target → Bool) (begun : List (String × String)) (t : FileTree) :
    Prop where
  fresh : ∀ id, Unmarked id → id ∉ begun.map Prod.fst → get (transaction id) t = none
  recorded : ∀ id, Unmarked id → get (stateFile id) t ≠ none →
    contents (stateFile id) t ∈ knownStates ∧
      ∃ identity, (id, identity) ∈ begun ∧ Recorded kind id identity t

/-- The lock is there, with its owner alone. -/
def Locked (id : String) (t : FileTree) : Prop :=
  ∃ c, get lock t = some (.directory [("owner", .file c)]) ∧ contents [] (some (.file c)) = id

/-- A snapshot that was not finished. -/
structure Unfinished (begun : List (String × String)) (id : String) (t : FileTree) : Prop where
  active : get active t = none
  state : get (stateFile id) t = none
  identity : ∃ identity, (id, identity) ∈ begun ∧ validIdentity identity = true ∧
    contents (identityFile id) t = identity

/-- A snapshot with a state. -/
structure Pending (id : String) (t : FileTree) : Prop where
  state : get (stateFile id) t ≠ none
  active : get active t = none ∨ (get active t).isFile = true ∧ contents active t = id

/-- The transaction holds the lock. -/
structure Holds (begun : List (String × String)) (id : String) (t : FileTree) : Prop where
  unmarked : Unmarked id
  valid : validId id = true
  locked : Locked id t
  known : Unfinished begun id t ∨ Pending id t

/-- There are no markers, or they are those of one transaction. -/
def Marks (begun : List (String × String)) (t : FileTree) : Prop :=
  Free t ∨ ∃ id, Holds begun id t

/-- `active.new` is not in the way. -/
def Announced (t : FileTree) : Prop := get activeNew t = none ∨ (get activeNew t).isFile = true

/-- What every invocation keeps. -/
structure Recoverable (kind : Target → Bool) (begun : List (String × String)) (t : FileTree) :
    Prop where
  docile : Docile kind t
  stored : Stored kind begun t
  announced : Announced t
  marks : Marks begun t

/-! ### What does not change it -/

/-- A target is in a directory. -/
theorem target_split : ∀ t ∈ targets, t = above t ++ [nameOf t] := by decide +kernel

theorem clear_above {p : Path} {target : Target} (ht : target ∈ targets)
    (h : Apart p target ∨ p = target) : Operation.Clear p (above target) := by
  have hsplit := target_split target ht
  rcases h with h | rfl
  · rw [hsplit] at h
    exact Operation.clear_of_apart h
  · exact .inr ⟨nameOf p, [], hsplit⟩

/-- The path is apart from what the transactions are kept by, that of this id excepted where it is
none of its files that count. -/
structure Beside (id : String) (p : Path) : Prop where
  own : Elsewhere id p
  others : ∀ id', Unmarked id' → id' ≠ id → Apart p (transaction id')
  announced : Apart p activeNew
  above : ∀ target ∈ targets, Operation.Clear p (above target)

/-- Two trees agree on what is apart from some paths, and the targets' directories are still
there. -/
structure Steady (ok : Path → Prop) (t t' : FileTree) : Prop where
  same : Same ok t t'
  above : ∀ target ∈ targets, (get (above target) t).isDirectory = true →
    (get (above target) t').isDirectory = true

theorem Steady.refl (ok : Path → Prop) (t : FileTree) : Steady ok t t := ⟨.refl _ t, fun _ _ h => h⟩

theorem Steady.trans {ok : Path → Prop} {t t' t'' : FileTree} (h : Steady ok t t')
    (h' : Steady ok t' t'') : Steady ok t t'' :=
  ⟨h.same.trans h'.same, fun target ht hd => h'.above target ht (h.above target ht hd)⟩

/-- A part of a script that works on such paths, none of them above a target, wherever it is cut
off. -/
theorem safely_steady {α : Type} {ok : Path → Prop} {P : Cut Point → Prop} {s : Script Point α}
    {t₀ t : FileTree} (hclear : ∀ p, ok p → ∀ target ∈ targets, Operation.Clear p (above target))
    (hs : Touches ok s.run) (h : Steady ok t₀ t) :
    Safely P (Steady ok t₀) (fun _ => Steady ok t₀) s.run t := by
  have hsame := hs.safely (P := P) h.same
  have hdirectories := Safely.all fun target : { target // target ∈ targets ∧
      (get (above target) t₀).isDirectory = true } =>
    hs.directory (P := P) (fun p hp => hclear p hp target.1 target.2.1)
      (h.above target.1 target.2.1 target.2.2)
  have hsteady : ∀ t', Same ok t₀ t' ∧ (∀ target : { target // target ∈ targets ∧
      (get (above target) t₀).isDirectory = true }, (get (above target.1) t').isDirectory = true) →
      Steady ok t₀ t' := fun t' h => ⟨h.1, fun target ht hd => h.2 ⟨target, ht, hd⟩⟩
  exact ((hsame.and hdirectories).weaken hsteady).mono fun _ t' h => hsteady t' h

/-- A part of a script that works on paths beside all this. -/
theorem safely_beside {α : Type} {id : String} {P : Cut Point → Prop} {s : Script Point α}
    {t₀ t : FileTree} (hs : Touches (Beside id) s.run) (h : Steady (Beside id) t₀ t) :
    Safely P (Steady (Beside id) t₀) (fun _ => Steady (Beside id) t₀) s.run t :=
  safely_steady (fun _ hp => hp.above) hs h

section Steady

variable {kind : Target → Bool} {begun : List (String × String)} {id : String} {t t' : FileTree}

theorem Recorded.of_same {identity : String} {id' : String} (h : Recorded kind id' identity t)
    (hbefore : get (transaction id' ++ ["before"]) t' = get (transaction id' ++ ["before"]) t)
    (hpresent : get (transaction id' ++ ["present"]) t' = get (transaction id' ++ ["present"]) t)
    (hidentity : get (identityFile id') t' = get (identityFile id') t)
    (habove : ∀ target ∈ targets, (get (above target) t).isDirectory = true →
      (get (above target) t').isDirectory = true) : Recorded kind id' identity t' where
  valid := h.valid
  identity := by rw [contents_congr hidentity, h.identity]
  copies := by
    intro target ht hfile
    have hcopy : get (before id' target) t' = get (before id' target) t := by
      show get (transaction id' ++ (["before"] ++ [name target])) t' = _
      rw [← List.append_assoc, get_append, hbefore, ← get_append]
      rfl
    have hmark : get (present id' target) t' = get (present id' target) t := by
      show get (transaction id' ++ (["present"] ++ [name target])) t' = _
      rw [← List.append_assoc, get_append, hpresent, ← get_append]
      rfl
    rw [hmark] at hfile
    rw [hcopy]
    obtain ⟨hne, hkind, hdirectory⟩ := h.copies target ht hfile
    exact ⟨hne, hkind, habove target ht hdirectory⟩

theorem Recorded.steady {identity : String} (h : Recorded kind id identity t)
    (hsteady : Steady (Beside id) t t') : Recorded kind id identity t' :=
  h.of_same (hsteady.same _ fun _ hp => hp.own.before)
    (hsteady.same _ fun _ hp => hp.own.present) (hsteady.same _ fun _ hp => hp.own.identity)
    hsteady.above

/-- One transaction changes. The others are as they were, and so are the targets' directories. -/
structure Apiece (id : String) (t t' : FileTree) : Prop where
  other : ∀ id', Unmarked id' → id' ≠ id → get (transaction id') t' = get (transaction id') t
  above : ∀ target ∈ targets, (get (OpenUI.Shell.above target) t).isDirectory = true →
    (get (OpenUI.Shell.above target) t').isDirectory = true

theorem Apiece.trans {t'' : FileTree} (h : Apiece id t t') (h' : Apiece id t' t'') :
    Apiece id t t'' where
  other := fun id' hid' hne => (h'.other id' hid' hne).trans (h.other id' hid' hne)
  above := fun target ht hd => h'.above target ht (h.above target ht hd)

theorem Steady.apiece (h : Steady (Beside id) t t') : Apiece id t t' where
  other := fun id' hid' hne => h.same _ fun _ hp => hp.others id' hid' hne
  above := h.above

/-- Then it counts what this one has become. -/
theorem Stored.apiece (h : Stored kind begun t) (hone : Apiece id t t')
    (hbegun : id ∈ begun.map Prod.fst)
    (hown : get (stateFile id) t' ≠ none → contents (stateFile id) t' ∈ knownStates ∧
      ∃ identity, (id, identity) ∈ begun ∧ Recorded kind id identity t') :
    Stored kind begun t' where
  fresh := by
    intro id' hid' hnot
    have hne : id' ≠ id := by
      rintro rfl
      exact hnot hbegun
    rw [hone.other id' hid' hne]
    exact h.fresh id' hid' hnot
  recorded := by
    intro id' hid' hstate'
    by_cases hne : id' = id
    · subst hne
      exact hown hstate'
    · have hbelow := fun q => get_below (hone.other id' hid' hne) q
      have hstate : get (stateFile id') t' = get (stateFile id') t := hbelow ["state"]
      rw [hstate] at hstate'
      obtain ⟨hknown, identity, hmem, hrecorded⟩ := h.recorded id' hid' hstate'
      rw [contents_congr hstate]
      exact ⟨hknown, identity, hmem,
        hrecorded.of_same (hbelow _) (hbelow _) (hbelow ["identity"]) hone.above⟩

theorem Stored.steady (h : Stored kind begun t) (hid : Unmarked id)
    (hsteady : Steady (Beside id) t t') (hbegun : id ∈ begun.map Prod.fst) :
    Stored kind begun t' := by
  refine h.apiece hsteady.apiece hbegun fun hstate' => ?_
  have hstate : get (stateFile id) t' = get (stateFile id) t :=
    hsteady.same _ fun _ hp => hp.own.state
  rw [hstate] at hstate'
  obtain ⟨hknown, identity, hmem, hrecorded⟩ := h.recorded id hid hstate'
  rw [contents_congr hstate]
  exact ⟨hknown, identity, hmem, hrecorded.steady hsteady⟩

theorem Announced.steady (h : Announced t) (hsteady : Steady (Beside id) t t') : Announced t' := by
  rw [Announced, hsteady.same activeNew fun _ hp => hp.announced]
  exact h

theorem Docile.of_same (h : Docile kind t) (hsame : ∀ target ∈ targets,
    get target t' = get target t) : Docile kind t' := by
  intro target ht
  rw [hsame target ht]
  exact h target ht

/-! ### The markers -/

theorem Locked.get_owner (h : Locked id t) :
    ∃ c, get owner t = some (.file c) ∧ contents [] (some (.file c)) = id := by
  obtain ⟨c, hlock, hc⟩ := h
  refine ⟨c, ?_, hc⟩
  show get (lock ++ ["owner"]) t = _
  rw [get_append, hlock]
  rfl

theorem Locked.owner_eq (h : Locked id t) : contents owner t = id := by
  obtain ⟨c, howner, hc⟩ := h.get_owner
  rw [← hc]
  unfold contents
  rw [howner]
  rfl

/-- The lock is in the transactions' directory. -/
theorem Locked.base (h : Locked id t) : (get base t).isDirectory = true := by
  obtain ⟨c, hlock, -⟩ := h
  refine isDirectory_of_get (p := OpenUI.Deploy.base) (x := "lock") ?_
  show get lock t ≠ none
  rw [hlock]
  simp

theorem Locked.of_same (h : Locked id t) (hlock : get lock t' = get lock t) : Locked id t' := by
  rw [Locked, hlock]
  exact h

theorem pending_of_same (h : Pending id t) (hactive : get active t' = get active t)
    (hstate : get (stateFile id) t' = get (stateFile id) t) : Pending id t' := by
  refine ⟨?_, ?_⟩
  · rw [hstate]
    exact h.state
  · rw [hactive, contents_congr hactive]
    exact h.active

/-- Who holds the lock goes by the markers and by what the transaction itself says. -/
theorem Holds.of_same (h : Holds begun id t) (hlock : get lock t' = get lock t)
    (hactive : get active t' = get active t) (hstate : get (stateFile id) t' = get (stateFile id) t)
    (hidentity : get (identityFile id) t' = get (identityFile id) t) : Holds begun id t' := by
  refine ⟨h.unmarked, h.valid, h.locked.of_same hlock, ?_⟩
  rcases h.known with hun | hpending
  · left
    obtain ⟨identity, hmem, hvalid, heq⟩ := hun.identity
    exact ⟨hactive.trans hun.active, hstate.trans hun.state, identity, hmem, hvalid,
      (contents_congr hidentity).trans heq⟩
  · exact .inr (pending_of_same hpending hactive hstate)

theorem Marks.of_same (h : Marks begun t) (hlock : get lock t' = get lock t)
    (hactive : get active t' = get active t)
    (hown : ∀ id, Unmarked id → get (stateFile id) t' = get (stateFile id) t ∧
      get (identityFile id) t' = get (identityFile id) t) : Marks begun t' := by
  rcases h with ⟨hnone, hfree⟩ | ⟨id, h⟩
  · exact .inl ⟨hactive.trans hnone, hlock.trans hfree⟩
  · obtain ⟨hstate, hidentity⟩ := hown id h.unmarked
    exact .inr ⟨id, h.of_same hlock hactive hstate hidentity⟩

/-- The transaction that holds the lock is the one that owns it. -/
theorem Marks.of_owner (h : Marks begun t) (hid : id ≠ "") (howner : contents owner t = id) :
    Holds begun id t := by
  rcases h with hfree | ⟨id', h⟩
  · have hnone : get owner t = none := by
      show get (lock ++ ["owner"]) t = none
      rw [get_append, hfree.2, get_none]
    rw [contents_of_none hnone] at howner
    exact absurd howner.symm hid
  · have heq : id' = id := h.locked.owner_eq.symm.trans howner
    rw [heq] at h
    exact h

/-- So is the one that is active. -/
theorem Marks.of_active (h : Marks begun t) (hid : id ≠ "") (hactive : contents active t = id) :
    Holds begun id t ∧ Pending id t ∧ (get active t).isFile = true := by
  have hsome : get active t ≠ none := by
    intro hnone
    rw [contents_of_none hnone] at hactive
    exact hid hactive.symm
  rcases h with hfree | ⟨id', h⟩
  · exact absurd hfree.1 hsome
  · rcases h.known with hun | hpending
    · exact absurd hun.active hsome
    · obtain ⟨hfile, heq⟩ := hpending.active.resolve_left hsome
      have hsame : id' = id := heq.symm.trans hactive
      rw [hsame] at h hpending
      exact ⟨h, hpending, hfile⟩

end Steady

/-! ### Paths beside it -/

section Paths

variable {id : String}

theorem beside_marker (hid : Unmarked id) {x : String} (hx : x = "lock" ∨ x = "active")
    (q : Path) : Beside id (base ++ x :: q) := by
  have hmarker : ∀ id', Unmarked id' → x ≠ id' := by
    rintro id' hid' rfl
    rcases hx with hx | hx
    · exact hid'.lock hx
    · exact hid'.active hx
  constructor
  · constructor <;> simp [transaction, identityFile, stateFile, hmarker id hid]
  · intro id' hid' _
    simp [transaction, hmarker id' hid']
  · rcases hx with rfl | rfl <;> simp [activeNew]
  · exact fun target ht => clear_above ht (.inl (base_target ht _))

theorem beside_staged {target : Target} (ht : target ∈ targets) : Beside id (staged id target) where
  own := elsewhere_staged id ht
  others := fun id' _ _ => staged_base ht id [id']
  announced := staged_base ht id ["active.new"]
  above := fun _ ht' => clear_above ht' (.inl (staged_target ht ht' id))

theorem beside_target {target : Target} (ht : target ∈ targets) : Beside id target where
  own := elsewhere_target id ht
  others := fun id' _ _ => target_base ht [id']
  announced := target_base ht ["active.new"]
  above := by
    intro target' ht'
    refine clear_above ht' ?_
    by_cases hne : target = target'
    · exact .inr hne
    · exact .inl (target_apart ht ht' hne)

theorem beside_failed (hid : Unmarked id) {target : Target} (ht : target ∈ targets) :
    Beside id (failed id target) where
  own := elsewhere_failed id ht
  others := by
    intro id' _ hne
    simp [failed, transaction, hne.symm]
  announced := by simp [failed, activeNew, hid.activeNew]
  above := fun _ ht' => clear_above ht' (.inl (base_target ht' _))

end Paths

/-! ### Parts of the scripts that leave the markers alone -/

section Quiet

variable {kind : Target → Bool} {begun : List (String × String)} {id : String} {t t' : FileTree}
  {P : Cut Point → Prop}

/-- A part that works on no file. -/
theorem safely_still {α : Type} {s : Script Point α} (hs : Touches (fun _ => False) s.run)
    (t : FileTree) : Safely P (· = t) (fun _ => (· = t)) s.run t := by
  have hsame : ∀ t', Same (fun _ => False) t t' → t' = t := fun t' h => h [] (by simp)
  exact ((hs.safely (Same.refl _ t)).weaken hsame).mono fun _ t' h => hsame t' h

/-- The path is beside it all, the markers too. -/
def Aside (id : String) (p : Path) : Prop := Beside id p ∧ Apart p lock ∧ Apart p active

/-- The markers and what they go by are as they were. -/
structure Quiet (id : String) (t t' : FileTree) : Prop where
  steady : Steady (Beside id) t t'
  lock : get lock t' = get lock t
  active : get active t' = get active t

theorem safely_quiet {α : Type} {s : Script Point α} (hs : Touches (Aside id) s.run)
    (t : FileTree) : Safely P (Quiet id t) (fun _ => Quiet id t) s.run t := by
  have hbeside := safely_beside (P := P) (hs.mono fun _ h => h.1) (Steady.refl (Beside id) t)
  have hlock := (hs.mono fun _ h => h.2.1).safely (P := P) (Same.refl _ t)
  have hactive := (hs.mono fun _ h => h.2.2).safely (P := P) (Same.refl _ t)
  have hquiet : ∀ t', Steady (Beside id) t t' ∧ Same (Apart · OpenUI.Deploy.lock) t t' ∧
      Same (Apart · OpenUI.Deploy.active) t t' → Quiet id t t' := by
    rintro t' ⟨hsteady, hl, ha⟩
    exact ⟨hsteady, hl _ fun _ hp => hp, ha _ fun _ hp => hp⟩
  exact ((hbeside.and (hlock.and hactive)).weaken hquiet).mono fun _ t' h => hquiet t' h

theorem Marks.quiet (h : Marks begun t) (hquiet : Quiet id t t') : Marks begun t' := by
  refine h.of_same hquiet.lock hquiet.active fun id' hid' => ?_
  by_cases hne : id' = id
  · subst hne
    exact ⟨hquiet.steady.same _ fun _ hp => hp.own.state,
      hquiet.steady.same _ fun _ hp => hp.own.identity⟩
  · exact ⟨get_below (hquiet.steady.apiece.other id' hid' hne) ["state"],
      get_below (hquiet.steady.apiece.other id' hid' hne) ["identity"]⟩

theorem Holds.quiet (h : Holds begun id t) (hquiet : Quiet id t t') : Holds begun id t' :=
  h.of_same hquiet.lock hquiet.active (hquiet.steady.same _ fun _ hp => hp.own.state)
    (hquiet.steady.same _ fun _ hp => hp.own.identity)

end Quiet

/-! ### The targets keep their kinds -/

section Tame

variable {kind : Target → Bool} {id : String} {target : Target} {t t' : FileTree}
  {P : Cut Point → Prop}

/-- The target is nothing, or of its kind. -/
def Tame (kind : Target → Bool) (target : Target) (t : FileTree) : Prop :=
  get target t = none ∨ (get target t).isDirectory = kind target

theorem Tame.of_get (h : Tame kind target t) (hsame : get target t' = get target t) :
    Tame kind target t' := by
  rw [Tame, hsame]
  exact h

/-- What is put at a path is there, or nothing is. -/
theorem get_put_or_none {p : Path} (hp : p ≠ []) (v t : FileTree) :
    get p (put p v t) = v ∨ get p (put p v t) = none := by
  have hlast : p.dropLast ++ [p.getLast hp] = p := List.dropLast_append_getLast hp
  cases habove : (get p.dropLast t).isDirectory with
  | true => exact .inl (get_put_self v hp habove)
  | false =>
    right
    by_contra hsome
    rw [← hlast] at hsome
    have hdir := isDirectory_of_get hsome
    rw [isDirectory_get_put, habove] at hdir
    cases hdir

theorem target_ne_nil {target : Target} (ht : target ∈ targets) : target ≠ [] := by
  rintro rfl
  revert ht
  decide

/-- A part of what was there is of its kind. -/
theorem Tame.put (ht : target ∈ targets) (h : Tame kind target t) {left : FileTree}
    (hleft : Operation.Alike (get target t) left) (t₁ : FileTree) :
    Tame kind target (FileTree.put target left t₁) := by
  rcases get_put_or_none (target_ne_nil ht) left t₁ with hput | hnone
  · rw [Tame, hput]
    by_cases hnone : left = none
    · exact .inl hnone
    · obtain ⟨hsome, hkind⟩ := hleft hnone
      exact .inr (hkind.trans (h.resolve_left hsome))
  · exact .inl hnone

/-- `rm -rf target`. -/
theorem tame_removeAll (ht : target ∈ targets) (point : Point) (h : Tame kind target t) :
    Safely P (Tame kind target) (fun _ => Tame kind target)
      (Script.require point (.removeAll target)).run t := by
  refine Safely.require_last (fun _ => h) (fun left t' _ htorn => ?_) (fun _ => ?_) fun _ => ?_
  · obtain ⟨halike, rfl⟩ := htorn
    exact h.put ht halike t
  · exact .inl (get_put_none target t)
  · exact .inl (get_put_none target t)

/-- The directory in the way is moved or removed, as a whole or in part. -/
theorem tame_makeRoom (ht : target ∈ targets) (h : Tame kind target t) :
    Safely P (Tame kind target) (fun _ => Tame kind target) (makeRoom id target).run t := by
  have hfailed : Apart (failed id target) target := base_target ht _
  refine Safely.ask (fun _ => h) ?_
  split
  · refine Safely.ask (fun _ => h) ?_
    split
    · exact tame_removeAll ht _ h
    · have hmoved : Tame kind target ((Operation.move target (failed id target)).exec t).2 := by
        cases hdone : ((Operation.move target (failed id target)).exec t).1 with
        | false =>
          rw [move_failed hdone]
          exact h
        | true =>
          have hrename := (Operation.rename_done hdone).2
          left
          show get target (Operation.rename _ _ t).2 = none
          rw [hrename, get_put_apart (Operation.within_apart hfailed _ _)]
          exact get_put_none target t
      refine Safely.require_last (fun _ => h) (fun left t' _ htorn => ?_) (fun _ => hmoved)
        fun _ => hmoved
      obtain ⟨-, -, halike, rfl | rfl⟩ := htorn
      · exact h.of_get (get_put_apart (Operation.within_apart hfailed _ _) _ _)
      · exact h.put ht halike _
  · exact Safely.pure h

/-- One round of the loop: the copy is of the target's kind. -/
theorem tame_restoreTarget (device : Device) (ht : target ∈ targets)
    (hcopy : (get (present id target) t).isFile = true →
      (get (before id target) t).isDirectory = kind target) (h : Tame kind target t) :
    Safely P (Tame kind target) (fun _ => Tame kind target)
      (restoreTarget device id target).run t := by
  have hstaged : Apart (staged id target) target := staged_target ht ht id
  refine Safely.ask (fun _ => h) ?_
  split
  · rename_i hkept
    have hkind := hcopy hkept
    have hnone : get (staged id target) (put (staged id target) none t) = none := get_put_none _ t
    have hbefore : get (before id target) (put (staged id target) none t) =
        get (before id target) t := get_put_apart (staged_base ht id _) none t
    have h₁ : Tame kind target (put (staged id target) none t) :=
      h.of_get (get_put_apart hstaged none t)
    refine Safely.require (fun _ => h) (fun left t' _ htorn => ?_) (fun _ => h₁) fun _ => ?_
    · exact h.of_get (Operation.torn_apart (by simpa [Operation.touches] using hstaged) htorn)
    show Safely _ _ _ _ (put (staged id target) none t)
    generalize put (staged id target) none t = t₁ at *
    have h₂ : Tame kind target ((Operation.copy (before id target) (staged id target)).exec t₁).2 :=
      h₁.of_get (Operation.exec_apart (by simpa [Operation.touches] using hstaged) t₁)
    refine Safely.require (fun _ => h₁) (fun left t' _ htorn => ?_) (fun _ => h₂) fun hdone => ?_
    · exact h₁.of_get (Operation.torn_apart (by simpa [Operation.touches] using hstaged) htorn)
    have hcopied := Operation.get_copy (by simp [staged]) hnone hdone
    rw [hbefore] at hcopied
    generalize ((Operation.copy (before id target) (staged id target)).exec t₁).2 = t₂ at *
    -- Neither `sh -n` nor making room touches the staged copy.
    have hparse := safely_still (P := P) (parse_touches device id target) t₂
    refine Safely.andThen (hparse.weaken fun t' heq => ?_) (fun n t' heq => ?_) fun _ t₃ heq => ?_
    · rw [heq]
      exact h₂
    · rw [heq]
      exact h₂
    subst heq
    have htouches : Touches (Apart · (staged id target)) (makeRoom id target).run :=
      makeRoom_touches hstaged.symm (staged_base ht id _).symm
    have hroom := htouches.safely (P := P) (Same.refl _ t₃)
    refine Safely.andThen ((hroom.and (tame_makeRoom ht h₂)).weaken fun _ h => h.2)
      (fun _ _ h => h.2) fun _ t₄ h₄ => ?_
    have hcopy₄ : get (staged id target) t₄ = get (before id target) t :=
      (h₄.1 _ fun _ hp => hp).trans hcopied
    refine Safely.require_last (fun _ => h₄.2) (fun _ _ _ htorn => htorn.elim) (fun hfail => ?_)
      fun hdone => ?_
    · have hsame : ((Operation.replace (staged id target) target).exec t₄).2 = t₄ :=
        rename_failed hfail
      rw [hsame]
      exact h₄.2
    · right
      have hget : get target ((Operation.replace (staged id target) target).exec t₄).2 =
          get (staged id target) t₄ :=
        Operation.get_rename (target_ne_nil ht) rfl hdone
      rw [hget, hcopy₄, hkind]
  · exact tame_removeAll ht _ h

end Tame

/-! ### The loop of `restore` -/

section Loop

variable {kind : Target → Bool} {id : String} {t : FileTree} {P : Cut Point → Prop}

/-- What a round works on. -/
def OfRound (id : String) (target : Target) (p : Path) : Prop :=
  p = staged id target ∨ p = target ∨ p = failed id target

/-- One round keeps the kinds of all targets. -/
theorem docile_restoreTarget (device : Device) {target : Target} (ht : target ∈ targets)
    (hcopy : (get (present id target) t).isFile = true →
      (get (before id target) t).isDirectory = kind target) (h : Docile kind t) :
    Safely P (Docile kind) (fun _ => Docile kind) (restoreTarget device id target).run t := by
  have htouches : Touches (OfRound id target) (restoreTarget device id target).run :=
    restoreTarget_touches device (.inl rfl) (.inr (.inl rfl)) (.inr (.inr rfl))
  have hboth := (tame_restoreTarget device ht hcopy (h target ht)).and
    (htouches.safely (P := P) (Same.refl _ t))
  have hdocile : ∀ t', Tame kind target t' ∧ Same (OfRound id target) t t' → Docile kind t' := by
    rintro t' ⟨htame, hsame⟩ other hother
    by_cases hne : target = other
    · rw [← hne]
      exact htame
    · rw [hsame other]
      · exact h other hother
      · rintro p (rfl | rfl | rfl)
        · exact staged_target ht hother id
        · exact target_apart ht hother hne
        · exact base_target hother _
  exact (hboth.weaken hdocile).mono fun _ t' h => hdocile t' h

theorem aside_staged {target : Target} (ht : target ∈ targets) : Aside id (staged id target) :=
  ⟨beside_staged ht, staged_base ht id ["lock"], staged_base ht id ["active"]⟩

theorem aside_target {target : Target} (ht : target ∈ targets) : Aside id target :=
  ⟨beside_target ht, target_base ht ["lock"], target_base ht ["active"]⟩

theorem aside_failed (hid : Unmarked id) {target : Target} (ht : target ∈ targets) :
    Aside id (failed id target) :=
  ⟨beside_failed hid ht, by simp [failed, lock, hid.lock], by simp [failed, active, hid.active]⟩

theorem quiet_restoreTarget (device : Device) (hid : Unmarked id) {target : Target}
    (ht : target ∈ targets) : Touches (Aside id) (restoreTarget device id target).run :=
  restoreTarget_touches device (aside_staged ht) (aside_target ht) (aside_failed hid ht)

theorem Quiet.trans {t t' t'' : FileTree} (h : Quiet id t t') (h' : Quiet id t' t'') :
    Quiet id t t'' := by
  obtain ⟨hsteady, hlock, hactive⟩ := h
  obtain ⟨hsteady', hlock', hactive'⟩ := h'
  exact ⟨hsteady.trans hsteady', hlock'.trans hlock, hactive'.trans hactive⟩

/-- The loop leaves the markers and the snapshots, and the targets their kinds. -/
theorem safely_restoreTargets (device : Device) (hid : Unmarked id) {identity : String}
    (hrecorded : Recorded kind id identity t) (h : Docile kind t) :
    Safely P (fun t' => Docile kind t' ∧ Quiet id t t') (fun _ t' => Docile kind t' ∧ Quiet id t t')
      (Script.each (restoreTarget device id) targets).run t := by
  have htouches : Touches (Aside id) (Script.each (restoreTarget device id) targets).run :=
    .each fun target ht => quiet_restoreTarget device hid ht
  have hquiet := safely_quiet (P := P) htouches t
  have hdocile : Safely P (Docile kind) (fun _ => Docile kind)
      (Script.each (restoreTarget device id) targets).run t := by
    let J : List Target → FileTree → Prop := fun _ t' => Docile kind t' ∧ Quiet id t t'
    have hJ : J [] t := ⟨h, .refl _ t, rfl, rfl⟩
    refine (Safely.each (J := J) (E := fun _ => Docile kind) targets ?_
      (List.nil_append targets) hJ).mono ?_
    · intro done target rest t₁ hall hJ₁
      have ht : target ∈ targets := hall ▸ List.mem_append_right done List.mem_cons_self
      have hcopy : (get (present id target) t₁).isFile = true →
          (get (before id target) t₁).isDirectory = kind target := fun hfile =>
        ((hrecorded.steady hJ₁.2.steady).copies target ht hfile).2.1
      have hround := (docile_restoreTarget (P := P) device ht hcopy hJ₁.1).and
        (safely_quiet (quiet_restoreTarget device hid ht) t₁)
      refine (hround.weaken fun _ h => h.1).mono fun r t' h' => ⟨fun _ => ?_, fun _ _ => h'.1⟩
      exact ⟨h'.1, hJ₁.2.trans h'.2⟩
    · intro r t' h'
      cases r with
      | error n => exact h'.2 n rfl
      | ok a => exact (h'.1 rfl).1
  exact hdocile.and hquiet

end Loop

/-! ### The commands on the markers -/

section Markers

variable {begun : List (String × String)} {id : String} {t : FileTree}

/-- Where there is a state, there is its transaction's directory, and that of all of them. -/
theorem directories_of_state (h : get (stateFile id) t ≠ none) :
    (get (transaction id) t).isDirectory = true ∧ (get base t).isDirectory = true := by
  have htransaction : (get (transaction id) t).isDirectory = true :=
    isDirectory_of_get (p := transaction id) (x := "state") h
  refine ⟨htransaction, isDirectory_of_get (p := base) (x := id) fun hnone => ?_⟩
  rw [transaction, hnone] at htransaction
  cases htransaction

/-- The owner is written into a new lock. -/
theorem locked_put_owner (hlock : get lock t = some (.directory [])) {c : String}
    (hc : contents [] (some (.file c)) = id) : Locked id (put owner (some (.file c)) t) := by
  refine ⟨c, ?_, hc⟩
  show get lock (put (lock ++ "owner" :: []) (some (.file c)) t) = _
  rw [get_put_append, hlock]
  rfl

/-- The active marker is written by the transaction that holds the lock. -/
theorem holds_put_active (hid : Unmarked id) (hvalid : validId id = true) (hlocked : Locked id t)
    (hstate : get (stateFile id) t ≠ none) {c : String} (hc : contents [] (some (.file c)) = id) :
    Holds begun id (put active (some (.file c)) t) := by
  have hself : get active (put active (some (.file c)) t) = some (.file c) :=
    get_put_self _ (by simp [active, base]) (directories_of_state hstate).2
  refine ⟨hid, hvalid, hlocked.of_same (get_put_apart (by simp [active, lock]) _ t),
    .inr ⟨?_, .inr ?_⟩⟩
  · rw [get_put_apart (by simp [active, stateFile, hid.active.symm])]
    exact hstate
  · rw [hself]
    refine ⟨rfl, ?_⟩
    rw [← hc]
    unfold contents
    rw [hself]
    rfl

/-- The lock is taken, unless it is held. -/
theorem marks_claimLock (x : Invocation) (hid : Unmarked x.id) (hvalid : validId x.id = true)
    (hstate : get (stateFile x.id) t ≠ none) (hactive : get active t = none)
    (h : Marks begun t) :
    Safely x.spares (Marks begun) (fun r t' => Marks begun t' ∧ (r = .ok () → Locked x.id t'))
      (claimLock x.id).run t := by
  refine Safely.ask (fun _ => h) ?_
  split
  · refine Safely.require_last (fun _ => h) (fun _ _ _ htorn => htorn.elim)
      (fun _ => ⟨h, by simp⟩) fun howner => ⟨h, fun _ => ?_⟩
    exact (h.of_owner (ne_empty_of_valid hvalid) (of_decide_eq_true howner)).locked
  · rename_i hunlocked
    refine Safely.require (fun _ => h) (fun _ _ hspares => (hspares.1 (by decide)).elim)
      (fun hfail => ⟨by rw [mkdir_failed hfail]; exact h, by simp⟩) fun hdone => ?_
    rw [Operation.exec_mkdir_one] at hdone ⊢
    obtain ⟨habove, -, hmade⟩ := Operation.makeDirectory_done hdone
    have hlock := Operation.get_makeDirectory (by simp [lock, base]) hdone
    rw [hmade] at hlock ⊢
    have hactive₁ : get active (put lock (some (.directory [])) t) = none := by
      rw [get_put_apart (by simp [lock, active]), hactive]
    have hstate₁ : get (stateFile x.id) (put lock (some (.directory [])) t) ≠ none := by
      rw [get_put_apart (by simp [lock, stateFile, hid.lock.symm])]
      exact hstate
    show Safely _ _ _ _ (put lock (some (.directory [])) t)
    generalize put lock (some (.directory [])) t = t₁ at *
    have howned : ∀ c, contents [] (some (.file c)) = x.id →
        Locked x.id (put owner (some (.file c)) t₁) ∧
          Marks begun (put owner (some (.file c)) t₁) := by
      intro c hc
      have hlocked := locked_put_owner hlock hc
      refine ⟨hlocked, .inr ⟨x.id, hid, hvalid, hlocked, .inr ⟨?_, .inl ?_⟩⟩⟩
      · rw [get_put_apart (by simp [owner, stateFile, hid.lock.symm])]
        exact hstate₁
      · rw [get_put_apart (by simp [owner, active])]
        exact hactive₁
    have hwritten : (Operation.write owner (line x.id)).exec t₁ =
        (true, put owner (some (.file (line x.id))) t₁) := by
      refine Operation.exec_write ?_ (.inl ?_)
      · show (get lock t₁).isDirectory = true
        rw [hlock]
        rfl
      · show get (lock ++ ["owner"]) t₁ = none
        rw [get_append, hlock]
        rfl
    refine Safely.require_last (fun hspares => (hspares (by decide)).elim)
      (fun left t' hspares htorn => ?_) (fun hfail => ?_) fun _ => ?_
    · -- A write that is cut off after its text is as good as done.
      obtain ⟨-, ⟨part, -, rfl⟩, rfl⟩ := htorn
      exact (howned part (hspares.2.1 x.id rfl)).2
    · rw [hwritten] at hfail
      cases hfail
    · rw [hwritten]
      obtain ⟨hlocked, hmarks⟩ := howned (line x.id) (contents_of_line hvalid rfl)
      exact ⟨hmarks, fun _ => hlocked⟩

/-- A transaction with a state becomes the active one, unless there is one. -/
theorem marks_markActive (x : Invocation) (hid : Unmarked x.id) (hvalid : validId x.id = true)
    (hstate : get (stateFile x.id) t ≠ none) (h : Marks begun t) :
    Safely x.spares (Marks begun) (fun _ => Marks begun) (markActive x.id).run t := by
  refine Safely.ask (fun _ => h) ?_
  split
  · exact Safely.pure h
  · rename_i hnone
    have hactive : get active t = none := by simpa using hnone
    have htouches : Touches (Beside x.id) (claimLock x.id).run :=
      claimLock_touches x.id (beside_marker hid (.inl rfl) ["owner"])
        (beside_marker hid (.inl rfl) [])
    have hclaim := (marks_claimLock x hid hvalid hstate hactive h).and
      (safely_beside htouches (.refl _ t))
    refine Safely.andThen (hclaim.weaken fun _ h => h.1) (fun _ _ h => h.1.1) fun _ t₁ h₁ => ?_
    obtain ⟨⟨hmarks, hlocked⟩, hsteady⟩ := h₁
    have hstate₁ : get (stateFile x.id) t₁ ≠ none := by
      rw [hsteady.same _ fun _ hp => hp.own.state]
      exact hstate
    refine Safely.require_last (fun _ => hmarks) (fun left t' hspares htorn => ?_) (fun hfail => ?_)
      fun hdone => ?_
    · obtain ⟨-, ⟨part, -, rfl⟩, rfl⟩ := htorn
      exact .inr ⟨x.id, holds_put_active hid hvalid (hlocked rfl) hstate₁ (hspares.2.1 x.id rfl)⟩
    · rw [write_failed hfail]
      exact hmarks
    · rw [(Operation.write_done hdone).2]
      exact .inr ⟨x.id, holds_put_active hid hvalid (hlocked rfl) hstate₁
        (contents_of_line hvalid rfl)⟩

/-- The markers of a transaction with a state are removed, the lock last. -/
theorem marks_release (x : Invocation) (h : Holds begun id t) (hstate : get (stateFile id) t ≠ none)
    (hactive : (get active t).isFile = true) :
    Safely x.spares (Marks begun) (fun r t' => r = .ok () ∧ Free t') release.run t := by
  have hunmarked : (Operation.remove active).exec t = (true, put active none t) := by
    rcases htree : get active t with _ | (c | c | es) <;> rw [htree] at hactive
    · cases hactive
    · rw [Operation.exec, htree]
    · cases hactive
    · cases hactive
  have hmarks : Marks begun t := .inr ⟨id, h⟩
  refine Safely.require (fun _ => hmarks) (fun _ _ _ htorn => htorn.elim)
    (fun hfail => by cases hfail) fun _ => ?_
  show Safely _ _ _ _ t
  refine Safely.require (fun _ => hmarks) (fun _ _ _ htorn => htorn.elim) (fun hfail => ?_)
    fun _ => ?_
  · rw [hunmarked] at hfail
    cases hfail
  rw [hunmarked]
  have hnone : get active (put active none t) = none := get_put_none active t
  have hlocked₁ : Locked id (put active none t) :=
    h.locked.of_same (get_put_apart (by simp [active, lock]) none t)
  -- The lock alone is left, and the state says what it is for.
  have hmarks₁ : Marks begun (put active none t) := by
    refine .inr ⟨id, h.unmarked, h.valid, hlocked₁, .inr ⟨?_, .inl hnone⟩⟩
    rw [get_put_apart (by simp [active, stateFile, h.unmarked.active.symm])]
    exact hstate
  show Safely _ _ _ _ (put active none t)
  generalize put active none t = t₁ at *
  obtain ⟨c, howner, -⟩ := hlocked₁.get_owner
  have hunowned : (Operation.remove owner).exec t₁ = (true, put owner none t₁) := by
    rw [Operation.exec, howner]
  refine Safely.require (fun _ => hmarks₁) (fun _ _ _ htorn => htorn.elim) (fun hfail => ?_)
    fun _ => ?_
  · rw [hunowned] at hfail
    cases hfail
  rw [hunowned]
  -- The lock had its owner alone.
  have hempty : get lock (put owner none t₁) = some (.directory []) := by
    obtain ⟨c, hlock, -⟩ := hlocked₁
    show get lock (put (lock ++ "owner" :: []) none t₁) = _
    rw [get_put_append, hlock]
    rfl
  have hnone₂ : get active (put owner none t₁) = none := by
    rw [get_put_apart (by simp [owner, active]), hnone]
  show Safely _ _ _ _ (put owner none t₁)
  generalize put owner none t₁ = t₂ at *
  have hunlocked : (Operation.rmdir lock).exec t₂ = (true, put lock none t₂) := by
    rw [Operation.exec, hempty]
  refine Safely.require (fun hspares => (hspares (by decide)).elim) (fun _ _ _ htorn => htorn.elim)
    (fun hfail => ?_) fun _ => ?_
  · rw [hunlocked] at hfail
    cases hfail
  rw [hunlocked]
  have hfree : Free (put lock none t₂) := by
    refine ⟨?_, get_put_none lock t₂⟩
    rw [get_put_apart (by simp [lock, active]), hnone₂]
  exact Safely.require_last (fun _ => .inl hfree) (fun _ _ _ htorn => htorn.elim)
    (fun hfail => by cases hfail) fun _ => ⟨rfl, hfree⟩

end Markers

/-! ### `restore` and `complete` -/

section Restore

variable {kind : Target → Bool} {begun : List (String × String)} {id : String} {t : FileTree}

/-- Both check the identity and the state first. -/
theorem safely_verify {P : Cut Point → Prop} (id identity : String) (t : FileTree) :
    Safely P (· = t) (fun r t' => t' = t ∧ (r = .ok () → contents (identityFile id) t = identity ∧
      contents (stateFile id) t ∈ knownStates)) (verify id identity).run t := by
  refine Safely.require (fun _ => rfl) (fun _ _ _ htorn => htorn.elim) (fun _ => ⟨rfl, by simp⟩)
    fun hsame => ?_
  refine Safely.ask (fun _ => rfl) ?_
  split
  · rename_i hknown
    exact Safely.pure ⟨rfl, fun _ => ⟨of_decide_eq_true hsame, of_decide_eq_true hknown⟩⟩
  · exact Safely.pure ⟨rfl, by simp⟩

theorem state_of_known (h : contents (stateFile id) t ∈ knownStates) :
    get (stateFile id) t ≠ none := by
  intro hnone
  rw [contents_of_none hnone] at h
  revert h
  decide

/-- What has a state was begun. -/
theorem begun_of_state (h : Stored kind begun t) (hid : Unmarked id)
    (hstate : get (stateFile id) t ≠ none) : id ∈ begun.map Prod.fst := by
  obtain ⟨-, identity, hmem, -⟩ := h.recorded id hid hstate
  exact List.mem_map.mpr ⟨(id, identity), hmem, rfl⟩

/-- What is put at a marker, or into this transaction, is beside the others. -/
theorem apiece_put {x : String} (hx : x = id ∨ x ∈ ["lock", "active", "active.new"]) (q : Path)
    (v t : FileTree) : Apiece id t (put (base ++ x :: q) v t) where
  other := by
    intro id' hid' hne
    have hother : x ≠ id' := by
      rintro rfl
      rcases hx with hx | hx
      · exact hne hx
      · simp [hid'.lock, hid'.active, hid'.activeNew] at hx
    exact get_put_apart (by simp [transaction, hother]) v t
  above := fun target ht => Operation.put_shallow Operation.shallow_isDirectory
    (clear_above ht (.inl (base_target ht _))) v

/-- A known state is written, in the place of another one or as the first. -/
theorem recoverable_put_state (h : Recoverable kind begun t) (hid : Unmarked id)
    (hdirectory : (get (transaction id) t).isDirectory = true)
    (hrecorded : ∃ identity, (id, identity) ∈ begun ∧ Recorded kind id identity t) {c : String}
    (hc : contents [] (some (.file c)) ∈ knownStates) :
    Recoverable kind begun (put (stateFile id) (some (.file c)) t) := by
  have hself : get (stateFile id) (put (stateFile id) (some (.file c)) t) = some (.file c) :=
    get_put_self _ (by simp [stateFile, base]) hdirectory
  have hone : Apiece id t (put (stateFile id) (some (.file c)) t) :=
    apiece_put (.inl rfl) ["state"] (some (.file c)) t
  obtain ⟨identity, hmem, hrecorded⟩ := hrecorded
  refine ⟨h.docile.of_same fun target ht => get_put_apart (base_target ht _) _ t, ?_, ?_, ?_⟩
  · refine h.stored.apiece hone (List.mem_map.mpr ⟨(id, identity), hmem, rfl⟩) fun _ => ⟨?_, ?_⟩
    · unfold contents at hc ⊢
      rw [hself]
      exact hc
    · refine ⟨identity, hmem, hrecorded.of_same ?_ ?_ ?_ hone.above⟩
      · exact get_put_apart (by simp [stateFile, transaction]) _ t
      · exact get_put_apart (by simp [stateFile, transaction]) _ t
      · exact get_put_apart (by simp [stateFile, identityFile]) _ t
  · rw [Announced, get_put_apart (by simp [stateFile, activeNew, hid.activeNew])]
    exact h.announced
  · have hlock : get lock (put (stateFile id) (some (.file c)) t) = get lock t :=
      get_put_apart (by simp [stateFile, lock, hid.lock]) _ t
    have hactive : get active (put (stateFile id) (some (.file c)) t) = get active t :=
      get_put_apart (by simp [stateFile, active, hid.active]) _ t
    -- Whoever has the lock keeps it. If it is this transaction, it is pending from now on.
    rcases h.marks with ⟨hnone, hfree⟩ | ⟨id', hholds⟩
    · exact .inl ⟨hactive.trans hnone, hlock.trans hfree⟩
    · right
      refine ⟨id', ?_⟩
      by_cases hne : id' = id
      · subst hne
        refine ⟨hid, hholds.valid, hholds.locked.of_same hlock, .inr ⟨?_, ?_⟩⟩
        · rw [hself]
          simp
        · rw [hactive, contents_congr hactive]
          rcases hholds.known with hun | hpending
          · exact .inl hun.active
          · exact hpending.active
      · have hbelow := fun q => get_below (hone.other id' hholds.unmarked hne) q
        exact hholds.of_same hlock hactive (hbelow ["state"]) (hbelow ["identity"])

/-- Nothing but the markers and this transaction is at stake. -/
theorem recoverable_of_steady {t' : FileTree} (h : Recoverable kind begun t) (hid : Unmarked id)
    (hbegun : id ∈ begun.map Prod.fst) (hsteady : Steady (Beside id) t t')
    (hdocile : Docile kind t') (hmarks : Marks begun t') : Recoverable kind begun t' :=
  ⟨hdocile, h.stored.steady hid hsteady hbegun, h.announced.steady hsteady, hmarks⟩

/-- A part of a script on the markers alone. -/
theorem safely_markers {P : Cut Point → Prop} {s : Script Point Unit}
    {Q : Except Nat Unit → FileTree → Prop} (hid : Unmarked id)
    (hs : ∀ {ok : Path → Prop}, ok active → ok owner → ok lock → Touches ok s.run)
    (hbegun : id ∈ begun.map Prod.fst) (h : Recoverable kind begun t)
    (hmarks : Safely P (Marks begun) Q s.run t) (hQ : ∀ r t', Q r t' → Marks begun t') :
    Safely P (Recoverable kind begun) (fun r t' => Recoverable kind begun t' ∧ Q r t' ∧
      Steady (Beside id) t t') s.run t := by
  have hbeside : Touches (Beside id) s.run :=
    hs (beside_marker hid (.inr rfl) []) (beside_marker hid (.inl rfl) ["owner"])
      (beside_marker hid (.inl rfl) [])
  have htargets : Touches (fun p => ∀ target ∈ targets, Apart p target) s.run :=
    hs (fun _ ht => base_target ht _) (fun _ ht => base_target ht _) (fun _ ht => base_target ht _)
  have hall := (safely_beside (P := P) hbeside (.refl _ t)).and
    ((htargets.safely (P := P) (Same.refl _ t)).and hmarks)
  have hkeep : ∀ t', Steady (Beside id) t t' →
      Same (fun p => ∀ target ∈ targets, Apart p target) t t' → Marks begun t' →
        Recoverable kind begun t' := by
    intro t' hsteady hsame hmarks'
    exact recoverable_of_steady h hid hbegun hsteady
      (h.docile.of_same fun target ht => hsame target fun _ hp => hp target ht) hmarks'
  refine (hall.weaken fun t' h' => hkeep t' h'.1 h'.2.1 h'.2.2).mono fun r t' h' => ?_
  exact ⟨hkeep t' h'.1 h'.2.1 (hQ r t' h'.2.2), h'.2.2, h'.1⟩

/-- The transaction is the active one, and it has a state. -/
structure Leads (begun : List (String × String)) (id : String) (t : FileTree) : Prop where
  holds : Holds begun id t
  state : get (stateFile id) t ≠ none
  active : (get active t).isFile = true

/-- The state is written. -/
theorem safely_state (x : Invocation) {point : Point} {text : String}
    (hpoint : x.text point = some text) (htext : text ∈ knownStates) (h : Recoverable kind begun t)
    (hleads : Leads begun x.id t) :
    Safely x.spares (Recoverable kind begun) (fun _ t' => Recoverable kind begun t' ∧
      Leads begun x.id t') (Script.require point (.write (stateFile x.id) (line text))).run t := by
  obtain ⟨hholds, hstate, hactive⟩ := hleads
  have hid := hholds.unmarked
  have hdirectory := (directories_of_state hstate).1
  have hrecorded := (h.stored.recorded x.id hid hstate).2
  -- Each of the states could be an id, so it is read as it was written.
  have hline : contents [] (some (.file (line text))) = text := by
    have hvalid : ∀ text ∈ knownStates, validId text = true := by decide
    exact contents_of_line (hvalid text htext) rfl
  refine Safely.require_last (fun _ => h) (fun left t' hspares htorn => ?_) (fun hfail => ?_)
    fun hdone => ?_
  · obtain ⟨-, ⟨part, -, rfl⟩, rfl⟩ := htorn
    refine recoverable_put_state h hid hdirectory hrecorded ?_
    rw [hspares.2.1 text hpoint]
    exact htext
  · rw [write_failed hfail]
    exact ⟨h, hholds, hstate, hactive⟩
  · rw [(Operation.write_done hdone).2]
    have hself : get (stateFile x.id) (put (stateFile x.id) (some (.file (line text))) t) =
        some (.file (line text)) :=
      get_put_self _ (by simp [stateFile, base]) hdirectory
    have hactive₁ : get OpenUI.Deploy.active (put (stateFile x.id) (some (.file (line text))) t) =
        get OpenUI.Deploy.active t := get_put_apart (by simp [stateFile, active, hid.active]) _ t
    have hstate₁ : get (stateFile x.id) (put (stateFile x.id) (some (.file (line text))) t) ≠
        none := by
      rw [hself]
      simp
    refine ⟨?_, ⟨hid, hholds.valid, hholds.locked.of_same ?_, .inr ⟨hstate₁, ?_⟩⟩, hstate₁, ?_⟩
    · refine recoverable_put_state h hid hdirectory hrecorded ?_
      rw [hline]
      exact htext
    · exact get_put_apart (by simp [stateFile, lock, hid.lock]) _ t
    · rw [hactive₁, contents_congr hactive₁]
      exact (hholds.known.resolve_left fun hun => hstate hun.state).active
    · rw [hactive₁]
      exact hactive

/-- The markers are removed. -/
theorem safely_release (x : Invocation) (h : Recoverable kind begun t)
    (hleads : Leads begun x.id t) :
    Safely x.spares (Recoverable kind begun) (fun _ => Recoverable kind begun) release.run t := by
  have hid := hleads.holds.unmarked
  have hmarks := marks_release x hleads.holds hleads.state hleads.active
  refine (safely_markers hid (fun ha ho hl => release_touches ha ho hl)
    (begun_of_state h.stored hid hleads.state) h hmarks fun _ _ hfree => .inl hfree.2).mono ?_
  exact fun _ _ h' => h'.1

theorem Leads.quiet {t' : FileTree} (h : Leads begun id t) (hquiet : Quiet id t t') :
    Leads begun id t' := by
  refine ⟨h.holds.quiet hquiet, ?_, ?_⟩
  · rw [hquiet.steady.same _ fun _ hp => hp.own.state]
    exact h.state
  · rw [hquiet.active]
    exact h.active

/-- The part of `restore` between the markers. -/
theorem safely_restoreFiles (device : Device) (x : Invocation) (h : Recoverable kind begun t)
    (hleads : Leads begun x.id t) :
    Safely x.spares (Recoverable kind begun) (fun _ t' => Recoverable kind begun t' ∧
      Leads begun x.id t') (restoreFiles device x.id).run t := by
  -- What stops and starts the services changes no file.
  have hstill : ∀ {α : Type} {s : Script Point α} {t : FileTree}, Touches (fun _ => False) s.run →
      Recoverable kind begun t → Leads begun x.id t →
      Safely x.spares (Recoverable kind begun) (fun _ t' => Recoverable kind begun t' ∧
        Leads begun x.id t') s.run t := by
    intro α s t hs h hleads
    refine ((safely_still hs t).weaken fun t' heq => ?_).mono fun _ t' heq => ?_
    · rw [heq]
      exact h
    · rw [heq]
      exact ⟨h, hleads⟩
  refine Safely.ask (fun _ => h) ?_
  refine Safely.andThen (hstill (stopServices_touches device) h hleads) (fun _ _ h => h)
    fun _ t₁ h₁ => ?_
  obtain ⟨h₁, hleads₁⟩ := h₁
  obtain ⟨-, identity, -, hrecorded⟩ := h₁.stored.recorded x.id hleads₁.holds.unmarked
    hleads₁.state
  have hbegun := begun_of_state h₁.stored hleads₁.holds.unmarked hleads₁.state
  have hloop := safely_restoreTargets (P := x.spares) device hleads₁.holds.unmarked hrecorded
    h₁.docile
  have hkeep : ∀ t', Docile kind t' ∧ Quiet x.id t₁ t' →
      Recoverable kind begun t' ∧ Leads begun x.id t' := by
    rintro t' ⟨hdocile, hquiet⟩
    exact ⟨recoverable_of_steady h₁ hleads₁.holds.unmarked hbegun hquiet.steady hdocile
      (h₁.marks.quiet hquiet), hleads₁.quiet hquiet⟩
  refine Safely.andThen (hloop.weaken fun t' h' => (hkeep t' h').1) (fun _ t' h' => hkeep t' h')
    fun _ t₂ h₂ => ?_
  obtain ⟨h₂, hleads₂⟩ := hkeep t₂ h₂
  refine Safely.andThen (hstill (startServices_touches device _) h₂ hleads₂) (fun _ _ h => h)
    fun _ t₃ h₃ => ?_
  exact safely_state x rfl (by simp [knownStates]) h₃.1 h₃.2

/-- `restore`. -/
theorem safely_restore (device : Device) (x : Invocation) (hid : Unmarked x.id)
    (hvalid : validId x.id = true) (h : Recoverable kind begun t) :
    Safely x.spares (Recoverable kind begun) (fun _ => Recoverable kind begun)
      (restore device x.id x.identity).run t := by
  have hverify := safely_verify (P := x.spares) x.id x.identity t
  refine Safely.andThen (hverify.weaken fun t' heq => by rw [heq]; exact h)
    (fun _ t' h' => by rw [h'.1]; exact h) fun _ t' h' => ?_
  obtain ⟨rfl, hknown⟩ := h'
  have hstate := state_of_known (hknown rfl).2
  have hmark := safely_markers hid (fun ha ho hl => markActive_touches x.id ha ho hl)
    (begun_of_state h.stored hid hstate) h (marks_markActive x hid hvalid hstate h.marks)
    fun _ _ hmarks => hmarks
  refine Safely.andThen hmark (fun _ _ h' => h'.1) fun _ t₁ h' => ?_
  obtain ⟨h₁, -, hsteady⟩ := h'
  have hstate₁ : get (stateFile x.id) t₁ ≠ none := by
    rw [hsteady.same _ fun _ hp => hp.own.state]
    exact hstate
  refine Safely.require (fun _ => h₁) (fun _ _ _ htorn => htorn.elim) (fun _ => h₁) fun hown => ?_
  obtain ⟨hholds, -, hactive⟩ := h₁.marks.of_active (ne_empty_of_valid hvalid)
    (of_decide_eq_true hown)
  refine Safely.andThen (safely_restoreFiles device x h₁ ⟨hholds, hstate₁, hactive⟩)
    (fun _ _ h' => h'.1) fun _ t₂ h' => ?_
  exact safely_release x h'.1 h'.2

/-- `complete`. -/
theorem safely_complete (x : Invocation) (hvalid : validId x.id = true)
    (h : Recoverable kind begun t) :
    Safely x.spares (Recoverable kind begun) (fun _ => Recoverable kind begun)
      (complete x.id x.identity).run t := by
  have hverify := safely_verify (P := x.spares) x.id x.identity t
  refine Safely.andThen (hverify.weaken fun t' heq => by rw [heq]; exact h)
    (fun _ t' h' => by rw [h'.1]; exact h) fun _ t' h' => ?_
  obtain ⟨rfl, hknown⟩ := h'
  have hstate := state_of_known (hknown rfl).2
  refine Safely.require (fun _ => h) (fun _ _ _ htorn => htorn.elim) (fun _ => h) fun hown => ?_
  obtain ⟨hholds, -, hactive⟩ := h.marks.of_active (ne_empty_of_valid hvalid)
    (of_decide_eq_true hown)
  refine Safely.require (fun _ => h) (fun _ _ _ htorn => htorn.elim) (fun _ => h) fun _ => ?_
  refine Safely.andThen (safely_state x rfl (by simp [knownStates]) h ⟨hholds, hstate, hactive⟩)
    (fun _ _ h' => h'.1) fun _ t₁ h' => ?_
  exact safely_release x h'.1 h'.2

end Restore

/-! ### `discard-incomplete` -/

section Discard

variable {kind : Target → Bool} {begun : List (String × String)} {t : FileTree}

/-- What `discard-incomplete` asks for. -/
def Discards (id identity : String) (t : FileTree) : Prop :=
  get active t = none ∧ get (stateFile id) t = none ∧ contents owner t = id ∧
    contents (identityFile id) t = identity

/-- With the snapshot the lock goes. -/
theorem recoverable_discarded {id : String} (h : Recoverable kind begun t) (hid : Unmarked id)
    (hbegun : id ∈ begun.map Prod.fst) (hactive : get active t = none) :
    Recoverable kind begun (put lock none (put owner none (put (transaction id) none t))) ∧
      Free (put lock none (put owner none (put (transaction id) none t))) ∧
      (get base (put lock none (put owner none (put (transaction id) none t)))).isDirectory =
        (get base t).isDirectory := by
  have hone : Apiece id t (put lock none (put owner none (put (transaction id) none t))) :=
    ((apiece_put (.inl rfl) [] none t).trans (apiece_put (.inr (by simp)) ["owner"] none _)).trans
      (apiece_put (.inr (by simp)) [] none _)
  have hapart : ∀ q, Apart lock q → Apart owner q → Apart (transaction id) q →
      get q (put lock none (put owner none (put (transaction id) none t))) = get q t := by
    intro q hl ho ht
    rw [get_put_apart hl, get_put_apart ho, get_put_apart ht]
  have hfree : Free (put lock none (put owner none (put (transaction id) none t))) := by
    refine ⟨?_, get_put_none lock _⟩
    rw [hapart active (by simp [lock, active]) (by simp [owner, active])
      (by simp [transaction, active, hid.active])]
    exact hactive
  have hgone : get (transaction id)
      (put lock none (put owner none (put (transaction id) none t))) = none := by
    rw [get_put_apart (by simp [lock, transaction, hid.lock.symm]),
      get_put_apart (by simp [owner, transaction, hid.lock.symm])]
    exact get_put_none _ t
  have hbase : (get base
      (put lock none (put owner none (put (transaction id) none t)))).isDirectory =
      (get base t).isDirectory := by
    show (get base (put (base ++ "lock" :: []) none (put (base ++ "lock" :: ["owner"]) none
      (put (base ++ id :: []) none t)))).isDirectory = _
    rw [isDirectory_get_put, isDirectory_get_put, isDirectory_get_put]
  refine ⟨⟨?_, h.stored.apiece hone hbegun fun hstate => ?_, ?_, .inl hfree⟩, hfree, hbase⟩
  · exact h.docile.of_same fun target ht =>
      hapart target (base_target ht _) (base_target ht _) (base_target ht _)
  · -- There is no state without its directory.
    refine absurd ?_ hstate
    show get (transaction id ++ ["state"]) _ = none
    rw [get_append, hgone, get_none]
  · rw [Announced, hapart activeNew (by simp [lock, activeNew]) (by simp [owner, activeNew])
      (by simp [transaction, activeNew, hid.activeNew])]
    exact h.announced

/-- A part of the snapshot is left, its identity with it. -/
theorem recoverable_discarding {id identity : String} {left : FileTree}
    (h : Recoverable kind begun t) (hholds : Holds begun id t) (hactive : get active t = none)
    (hstate : get (stateFile id) t = none) (hsame : contents (identityFile id) t = identity)
    (hleft : contents ["identity"] left = identity) (hnone : get ["state"] left = none) :
    Recoverable kind begun (put (transaction id) left t) := by
  have hid := hholds.unmarked
  obtain ⟨identity', hmem, hvalid, heq⟩ :=
    (hholds.known.resolve_right fun hpending => hpending.state hstate).identity
  obtain rfl : identity' = identity := heq.symm.trans hsame
  have hput : get (transaction id) (put (transaction id) left t) = left :=
    get_put_self left (by simp [transaction, base]) (by simpa [transaction, base] using hholds.locked.base)
  have hstate₁ : get (stateFile id) (put (transaction id) left t) = none := by
    show get (transaction id ++ ["state"]) _ = none
    rw [get_append, hput, hnone]
  have hidentity₁ : contents (identityFile id) (put (transaction id) left t) = identity' := by
    rw [← hleft]
    unfold contents
    have hget : get (identityFile id) (put (transaction id) left t) = get ["identity"] left := by
      show get (transaction id ++ ["identity"]) _ = _
      rw [get_append, hput]
    rw [hget]
  -- The snapshot is this transaction's alone.
  have hone : Apiece id t (put (transaction id) left t) := apiece_put (.inl rfl) [] left t
  refine ⟨?_, h.stored.apiece hone (List.mem_map.mpr ⟨(id, identity'), hmem, rfl⟩) fun hsome =>
    absurd hstate₁ hsome, ?_, .inr ⟨id, hid, hholds.valid, hholds.locked.of_same ?_, .inl ⟨?_,
      hstate₁, identity', hmem, hvalid, hidentity₁⟩⟩⟩
  · exact h.docile.of_same fun target ht => get_put_apart (base_target ht _) left t
  · rw [Announced, get_put_apart (by simp [transaction, activeNew, hid.activeNew])]
    exact h.announced
  · exact get_put_apart (by simp [transaction, lock, hid.lock]) left t
  · rw [get_put_apart (by simp [transaction, active, hid.active])]
    exact hactive

/-- A snapshot that was not finished is removed, then the lock. -/
theorem safely_discard (x : Invocation) (hvalid : validId x.id = true)
    (h : Recoverable kind begun t) :
    Safely x.spares (Recoverable kind begun) (fun r t' => Recoverable kind begun t' ∧
      (Discards x.id x.identity t → r = .ok () ∧ Free t' ∧
        (get base t').isDirectory = (get base t).isDirectory))
      (discardIncomplete x.id x.identity).run t := by
  -- A check that fails ends the script, and then something that it asks for is not so.
  have hsome : ∀ (holds : FileTree → Bool), ((Operation.test holds).exec t).1 = false →
      (Discards x.id x.identity t → holds t = true) → Recoverable kind begun t ∧
        (Discards x.id x.identity t → (.error 1 : Except Nat Unit) = .ok () ∧ Free t ∧
          (get base t).isDirectory = (get base t).isDirectory) := by
    intro holds hfail hmust
    refine ⟨h, fun hdiscards => ?_⟩
    have hfail' : holds t = false := hfail
    rw [hmust hdiscards] at hfail'
    cases hfail'
  refine Safely.require (fun _ => h) (fun _ _ _ htorn => htorn.elim)
    (fun hfail => hsome _ hfail fun hd => by simp [hd.1]) fun hactive => ?_
  refine Safely.require (fun _ => h) (fun _ _ _ htorn => htorn.elim)
    (fun hfail => hsome _ hfail fun hd => by simp [hd.2.1]) fun hstate => ?_
  refine Safely.require (fun _ => h) (fun _ _ _ htorn => htorn.elim)
    (fun hfail => hsome _ hfail fun hd => by simp [hd.2.2.1]) fun howner => ?_
  refine Safely.require (fun _ => h) (fun _ _ _ htorn => htorn.elim)
    (fun hfail => hsome _ hfail fun hd => by simp [hd.2.2.2]) fun hidentity => ?_
  show Safely _ _ _ _ t
  have hsame : contents (identityFile x.id) t = x.identity := of_decide_eq_true hidentity
  have hactive' : get active t = none := Option.isNone_iff_eq_none.mp hactive
  have hstate' : get (stateFile x.id) t = none := Option.isNone_iff_eq_none.mp hstate
  have hholds := h.marks.of_owner (ne_empty_of_valid hvalid) (of_decide_eq_true howner)
  have hid := hholds.unmarked
  have hbegun : x.id ∈ begun.map Prod.fst := by
    obtain ⟨identity, hmem, -⟩ :=
      (hholds.known.resolve_right fun hpending => hpending.state hstate').identity
    exact List.mem_map.mpr ⟨(x.id, identity), hmem, rfl⟩
  obtain ⟨hrecoverable, hfree, hbase⟩ := recoverable_discarded h hid hbegun hactive'
  refine Safely.require (fun _ => h) (fun left t' hspares htorn => ?_)
    (fun hfail => by cases hfail) fun _ => ?_
  · -- What is left can be discarded again as long as it has its identity.
    obtain ⟨hidentity, hstate⟩ := hspares.2.2 rfl
    obtain ⟨-, rfl⟩ := htorn
    exact recoverable_discarding h hholds hactive' hstate' hsame hidentity hstate
  show Safely _ _ _ _ (put (transaction x.id) none t)
  have hlocked₁ : Locked x.id (put (transaction x.id) none t) :=
    hholds.locked.of_same (get_put_apart (by simp [transaction, lock, hid.lock]) none t)
  obtain ⟨c, howner₁, -⟩ := hlocked₁.get_owner
  have hunowned : (Operation.remove owner).exec (put (transaction x.id) none t) =
      (true, put owner none (put (transaction x.id) none t)) := by
    rw [Operation.exec, howner₁]
  refine Safely.require (fun hspares => (hspares (by decide)).elim) (fun _ _ _ htorn => htorn.elim)
    (fun hfail => ?_) fun _ => ?_
  · rw [hunowned] at hfail
    cases hfail
  rw [hunowned]
  have hempty : get lock (put owner none (put (transaction x.id) none t)) =
      some (.directory []) := by
    obtain ⟨c, hlock, -⟩ := hlocked₁
    show get lock (put (lock ++ "owner" :: []) none _) = _
    rw [get_put_append, hlock]
    rfl
  have hunlocked : (Operation.rmdir lock).exec (put owner none (put (transaction x.id) none t)) =
      (true, put lock none (put owner none (put (transaction x.id) none t))) := by
    rw [Operation.exec, hempty]
  refine Safely.require (fun hspares => (hspares (by decide)).elim) (fun _ _ _ htorn => htorn.elim)
    (fun hfail => ?_) fun _ => ?_
  · rw [hunlocked] at hfail
    cases hfail
  rw [hunlocked]
  exact Safely.require_last (fun _ => hrecoverable) (fun _ _ _ htorn => htorn.elim)
    (fun hfail => by cases hfail) fun _ => ⟨hrecoverable, fun _ => ⟨rfl, hfree, hbase⟩⟩

end Discard

end OpenUI.Deploy
