import OpenUI.Concurrency.Mutex
import OpenUI.Deploy.Invocations
import OpenUI.Proofs.Deploy.Restore

/-!
# `OpenUI.Proofs.Deploy.Invocations`: one deployment at a time

`mkdir` makes the lock for one invocation only, and whoever goes by a marker instead reads its own
id there. An id is written to the lock's owner and to the active marker only under the lock, so
while one invocation is past its checks, the markers are its own or there are none.

* `Sound`: the invariant that ties the markers, the ids in use and the invocations together.
* `only_one_deployment`: in every run at most one invocation is past its checks, only the owner of
  lock and active marker changes a target, and none changes another's transaction.
-/

set_option autoImplicit false

namespace OpenUI.Deploy

open OpenUI.Concurrency OpenUI.Shell OpenUI.Shell.FileTree

/-! ### What the commands do to the markers -/

theorem contents_congr {p : Path} {t t' : FileTree} (h : get p t' = get p t) :
    contents p t' = contents p t := by
  unfold contents
  rw [h]

theorem contents_of_none {p : Path} {t : FileTree} (h : get p t = none) : contents p t = "" := by
  unfold contents
  rw [h]

theorem contents_of_directory {p : Path} {t : FileTree} (h : (get p t).isDirectory = true) :
    contents p t = "" := by
  obtain ⟨es, hes⟩ := isDirectory_iff.mp h
  unfold contents
  rw [hes]

/-- An id does not end in a newline. -/
theorem contents_of_line {id : String} (hid : validId id = true) {p : Path} {t : FileTree}
    (h : get p t = some (.file (line id))) : contents p t = id := by
  have hchars : (line id).toList.rdropWhile (· = '\n') = id.toList := by
    have hline : (line id).toList = id.toList ++ ['\n'] := String.toList_append
    rw [hline, List.rdropWhile_concat_pos _ _ _ (by simp)]
    rcases List.eq_nil_or_concat id.toList with hnil | ⟨cs, c, hcs⟩
    · rw [hnil]
      rfl
    · have hall : (id.toList.all fun c => c.isAlphanum || c == '-') = true :=
        ((Bool.and_eq_true _ _).mp hid).2
      have hc := List.all_eq_true.mp hall c (by simp [hcs])
      rw [hcs, List.concat_eq_append, List.rdropWhile_concat_neg]
      simp only [decide_eq_true_eq]
      rintro rfl
      revert hc
      decide
  unfold contents
  rw [h]
  simp only [hchars, String.ofList_toList]

theorem ne_empty_of_valid {id : String} (hid : validId id = true) : id ≠ "" := by
  have h := ((Bool.and_eq_true _ _).mp hid).1
  simpa using h

/-- What is below the directory of a `mkdir -p` stays as it is. -/
theorem ensure_below {p : Path} {x : String} {q : Path} {t t' : FileTree}
    (h : Operation.ensure p t = some t') : get (p ++ x :: q) t' = get (p ++ x :: q) t := by
  induction p generalizing t t' with
  | nil =>
    rcases t with _ | (_ | _ | es) <;> simp [Operation.ensure] at h <;> subst h <;> simp
  | cons y p ih =>
    rcases t with _ | (_ | _ | es)
    · rw [Operation.ensure, Option.map_eq_some_iff] at h
      obtain ⟨r, hr, rfl⟩ := h
      rw [List.cons_append, get_cons, lookup_setEntry_self, ih hr]
      simp
    · simp [Operation.ensure] at h
    · simp [Operation.ensure] at h
    · rw [Operation.ensure, Option.map_eq_some_iff] at h
      obtain ⟨r, hr, rfl⟩ := h
      rw [List.cons_append, get_cons, get_cons, lookup_setEntry_self, ih hr]

theorem mkdirs_below (p : Path) (x : String) (q : Path) (t : FileTree) :
    get (p ++ x :: q) ((Operation.mkdirs p).exec t).2 = get (p ++ x :: q) t := by
  simp only [Operation.exec]
  split
  · rfl
  · split
    · rename_i t' ht'
      exact ensure_below ht'
    · rfl

/-- A command that works at once and fails has not done anything. -/
theorem mkdir_failed {p : Path} {t : FileTree} (h : ((Operation.mkdir [p]).exec t).1 = false) :
    ((Operation.mkdir [p]).exec t).2 = t := by
  rw [Operation.exec_mkdir_one] at h ⊢
  unfold Operation.makeDirectory at h ⊢
  split
  · rename_i hp
    rw [if_pos hp] at h
    cases h
  · rfl

theorem write_failed {p : Path} {c : String} {t : FileTree}
    (h : ((Operation.write p c).exec t).1 = false) : ((Operation.write p c).exec t).2 = t := by
  simp only [Operation.exec] at h ⊢
  split
  · rfl
  · rename_i hp
    rw [if_neg hp] at h
    cases h

/-- What was removed is gone. -/
theorem get_remove {p : Path} {t : FileTree} (h : ((Operation.remove p).exec t).1 = true) :
    get p ((Operation.remove p).exec t).2 = none := by
  simp only [Operation.exec] at h ⊢
  split at h
  · assumption
  · cases h
  · exact get_put_none p t

theorem get_rmdir {p : Path} {t : FileTree} (h : ((Operation.rmdir p).exec t).1 = true) :
    get p ((Operation.rmdir p).exec t).2 = none := by
  simp only [Operation.exec] at h ⊢
  split at h
  · exact get_put_none p t
  · cases h

theorem remove_failed {p : Path} {t : FileTree} (h : ((Operation.remove p).exec t).1 = false) :
    ((Operation.remove p).exec t).2 = t := by
  simp only [Operation.exec] at h ⊢
  split at h
  · cases h
  · rfl
  · cases h

theorem rmdir_failed {p : Path} {t : FileTree} (h : ((Operation.rmdir p).exec t).1 = false) :
    ((Operation.rmdir p).exec t).2 = t := by
  simp only [Operation.exec] at h ⊢
  split at h
  · cases h
  · rfl

theorem rename_failed {s d : Path} {t : FileTree} (h : (Operation.rename s d t).1 = false) :
    (Operation.rename s d t).2 = t := by
  simp only [Operation.rename] at h ⊢
  split at h
  · rfl
  · split at h
    · cases h
    · rename_i hno
      rw [if_neg hno]

theorem move_failed {s d : Path} {t : FileTree} (h : ((Operation.move s d).exec t).1 = false) :
    ((Operation.move s d).exec t).2 = t := rename_failed h

/-! ### The order of the commands -/

/-- The command changes no marker and sees none of its own. -/
def Point.isPlain : Point → Bool
  | .lock | .relock | .owned | .own | .owner | .reowner => false
  | .activeNew | .active | .remark | .unmark => false
  | .undoOwner | .wipeOwner | .unown | .undoLock | .wipeLock | .unlock => false
  | _ => true

theorem passed_of_plain (c : Standing) {point : Point} (h : point.isPlain = true) :
    c.passed point = c := by
  cases point <;> first | rfl | cases h

/-- Nothing of the markers is the invocation's own. -/
structure Standing.Fresh (c : Standing) : Prop where
  live : c.live = true
  past : c.past = false
  owns : c.owns = false
  marked : c.marked = false
  cleared : c.cleared = false
  announced : c.announced = false

/-- Which commands an invocation may give where it stands. -/
inductive Standing.May (c : Standing) : Point → Operation → Prop where
  | look {point : Point} {holds : FileTree → Bool} (hp : point.isPlain = true) :
      May c point (.test holds)
  | idle {point : Point} (hp : point.isPlain = true) : May c point .idle
  | base : May c .base (.mkdirs base)
  | own {point : Point} {o : Operation} (hp : point.isPlain = true) (hid : Unmarked c.id)
      (hpast : c.past = true) (ho : ∀ p ∈ o.touches, ∃ q, p = Deploy.base ++ c.id :: q) :
        May c point o
  | target {point : Point} {o : Operation} (hp : point.isPlain = true) (hid : Unmarked c.id)
      (hpast : c.past = true) (howns : c.owns = true) (hmarked : c.marked = true)
      (ho : ∀ p ∈ o.touches, (∃ target ∈ targets, p = target ∨ p = staged c.id target) ∨
        ∃ q, p = Deploy.base ++ c.id :: q) : May c point o
  | lock (h : c.Fresh) : May c .lock (.mkdir [lock])
  | relock (h : c.Fresh) : May c .relock (.mkdir [Deploy.lock])
  | owned (h : c.Fresh) (hid : validId c.id = true) :
      May c .owned (.test fun t => contents Deploy.owner t = c.id)
  | ownFresh (h : c.Fresh) (hid : validId c.id = true) :
      May c .own (.test fun t => contents Deploy.active t = c.id)
  | ownAgain (hpast : c.past = true) (howns : c.owns = true) :
      May c .own (.test fun t => contents Deploy.active t = c.id)
  | owner (hid : validId c.id = true) (hpast : c.past = true) (hcleared : c.cleared = true) :
      May c .owner (.write owner (line c.id))
  | reowner (hid : validId c.id = true) (hpast : c.past = true) (hcleared : c.cleared = true) :
      May c .reowner (.write Deploy.owner (line c.id))
  | activeNew (hid : validId c.id = true) (hpast : c.past = true) :
      May c .activeNew (.write activeNew (line c.id))
  | active (hid : validId c.id = true) (hpast : c.past = true) (howns : c.owns = true)
      (hnew : c.announced = true) (hmarked : c.marked = false) :
      May c .active (.move Deploy.activeNew active)
  | remark (hid : validId c.id = true) (hpast : c.past = true) (howns : c.owns = true) :
      May c .remark (.write Deploy.active (line c.id))
  | unmark (hpast : c.past = true) : May c .unmark (.remove Deploy.active)
  | unown {point : Point} (hp : point = .unown ∨ point = .undoOwner ∨ point = .wipeOwner)
      (hpast : c.past = true) (hcleared : c.cleared = true) : May c point (.remove Deploy.owner)
  | unlock {point : Point} (hp : point = .unlock ∨ point = .undoLock ∨ point = .wipeLock)
      (hpast : c.past = true) (hcleared : c.cleared = true) : May c point (.rmdir Deploy.lock)

/-! ### The invariant -/

/-- An active marker is the lock's owner. -/
def Consistent (t : FileTree) : Prop :=
  contents active t = "" ∨
    ((get lock t).isDirectory = true ∧ contents owner t = contents active t)

/-- The markers have not changed. -/
structure SameMarks (t t' : FileTree) : Prop where
  lockSame : (get lock t').isDirectory = (get lock t).isDirectory
  ownerSame : contents owner t' = contents owner t
  activeSame : contents active t' = contents active t
  newSame : contents activeNew t' = contents activeNew t

theorem SameMarks.of_get {t t' : FileTree} (h : ∀ p ∈ [lock, owner, active, activeNew],
    get p t' = get p t) :
    SameMarks t t' where
  lockSame := by rw [h lock (by simp)]
  ownerSame := contents_congr (h owner (by simp))
  activeSame := contents_congr (h active (by simp))
  newSame := contents_congr (h activeNew (by simp))

/-- What an invocation past its checks says of the markers. -/
structure Sane (t : FileTree) (c : Standing) : Prop where
  live : c.past = true → c.live = true
  ownerIs : c.past = true → contents owner t = if c.owns then c.id else ""
  cleared : c.past = true → c.cleared = true → contents active t = ""
  marked : c.past = true → c.marked = true → contents active t = c.id
  announced : c.past = true → c.announced = true → contents activeNew t = c.id

/-- The invocation runs, with this id. -/
def Standing.isRunning (x : String) (c : Standing) : Bool := c.live && c.id == x

/-- The running invocations have different ids, and at most one of them is past its checks. -/
structure Sound (w : Files) (cs : List Standing) : Prop where
  ids : ∀ x, Exclusive (w.running.contains x) (Standing.isRunning x) cs
  mutex : Exclusive (get lock w.tree).isDirectory Standing.past cs
  sane : ∀ c ∈ cs, Sane w.tree c
  consistent : Consistent w.tree

theorem Consistent.congr {t t' : FileTree} (h : Consistent t) (hs : SameMarks t t') :
    Consistent t' := by
  unfold Consistent
  rw [hs.lockSame, hs.ownerSame, hs.activeSame]
  exact h

theorem Sane.congr {t t' : FileTree} {c : Standing} (h : Sane t c) (hs : SameMarks t t') :
    Sane t' c where
  live := h.live
  ownerIs hp := hs.ownerSame.trans (h.ownerIs hp)
  cleared hp hc := hs.activeSame.trans (h.cleared hp hc)
  marked hp hm := hs.activeSame.trans (h.marked hp hm)
  announced hp ha := hs.newSame.trans (h.announced hp ha)

/-- An invocation that is not past its checks says nothing. -/
theorem sane_of_not_past {t : FileTree} {c : Standing} (h : c.past = false) : Sane t c := by
  constructor <;> intro hp <;> rw [h] at hp <;> cases hp

section Step

variable {w : Files} {cs : List Standing} {i : Nat} {c c' : Standing} {t' : FileTree}

/-- The lock is there while an invocation is past its checks. -/
theorem Sound.locked (h : Sound w cs) (hc : cs[i]? = some c) (hpast : c.past = true) :
    (get lock w.tree).isDirectory = true := by
  by_contra hno
  have hfree := h.mutex.free (by simpa using hno) c (List.mem_of_getElem? hc)
  rw [hpast] at hfree
  cases hfree

/-- The ids after a step of a running invocation. -/
theorem Sound.ids_keep (h : Sound w cs) (hc : cs[i]? = some c) (hid : c'.id = c.id)
    (hlive : c'.live = c.live) (x : String) :
    Exclusive (w.running.contains x) (Standing.isRunning x) (cs.set i c' ++ []) := by
  refine (h.ids x).keep hc ?_ (by simp)
  simp only [Standing.isRunning, hid, hlive]

/-- A step that leaves the markers as they are. -/
theorem Sound.still (h : Sound w cs) (hc : cs[i]? = some c) (hs : SameMarks w.tree t') :
    Sound { w with tree := t' } (cs.set i c ++ []) where
  ids := h.ids_keep hc rfl rfl
  mutex := by
    rw [show (get lock t').isDirectory = (get lock w.tree).isDirectory from hs.lockSame]
    exact h.mutex.keep hc rfl (by simp)
  sane := Pool.forall_update (fun x hx => (h.sane x hx).congr hs)
    ((h.sane c (List.mem_of_getElem? hc)).congr hs) (by simp)
  consistent := h.consistent.congr hs

/-- The others say nothing while this one is past its checks. -/
theorem Sound.others (h : Sound w cs) (hc : cs[i]? = some c) (hpast : c.past = true)
    (hself : Sane t' c') : ∀ x ∈ cs.set i c' ++ [], Sane t' x := by
  intro x hx
  rcases Pool.mem_update hx with rfl | ⟨j, hj, hxj⟩ | hnew
  · exact hself
  · exact sane_of_not_past (Pool.others_not h.mutex.once hc hpast hj hxj)
  · cases hnew

/-- A step of the invocation that is past its checks, and stays so. -/
theorem Sound.work (h : Sound w cs) (hc : cs[i]? = some c) (hpast : c.past = true)
    (hid : c'.id = c.id) (hlive : c'.live = c.live) (hpast' : c'.past = true)
    (hlock : (get lock t').isDirectory = true) (hself : Sane t' c') (hcons : Consistent t') :
    Sound { w with tree := t' } (cs.set i c' ++ []) where
  ids := h.ids_keep hc hid hlive
  mutex := by
    have hheld := h.mutex
    rw [h.locked hc hpast] at hheld
    rw [show (get lock t').isDirectory = true from hlock]
    exact hheld.keep hc (hpast'.trans hpast.symm) (by simp)
  sane := h.others hc hpast hself
  consistent := hcons

/-- The lock is given up. -/
theorem Sound.giveUp (h : Sound w cs) (hc : cs[i]? = some c) (hpast : c.past = true)
    (hid : c'.id = c.id) (hlive : c'.live = c.live) (hpast' : c'.past = false)
    (hlock : (get lock t').isDirectory = false) (hcons : Consistent t') :
    Sound { w with tree := t' } (cs.set i c' ++ []) where
  ids := h.ids_keep hc hid hlive
  mutex := by
    rw [show (get lock t').isDirectory = false from hlock]
    exact h.mutex.release hc hpast hpast'
  sane := h.others hc hpast (sane_of_not_past hpast')
  consistent := hcons

/-- The lock is taken, where there was none. -/
theorem Sound.take (h : Sound w cs) (hc : cs[i]? = some c)
    (hfree : (get lock w.tree).isDirectory = false) (hid : c'.id = c.id)
    (hlive : c'.live = c.live) (hlock : (get lock t').isDirectory = true) (hself : Sane t' c')
    (hcons : Consistent t') : Sound { w with tree := t' } (cs.set i c' ++ []) where
  ids := h.ids_keep hc hid hlive
  mutex := by
    have hheld := h.mutex
    rw [hfree] at hheld
    rw [show (get lock t').isDirectory = true from hlock]
    exact hheld.take hc
  sane := Pool.forall_update (fun x hx => sane_of_not_past (h.mutex.free hfree x hx)) hself
    (by simp)
  consistent := hcons

/-- When the lock's owner is an invocation that is not past its checks, no other one is. -/
theorem Sound.nobody (h : Sound w cs) (hc : cs[i]? = some c) (hlive : c.live = true)
    (hid : c.id ≠ "") (hpast : c.past = false) (howner : contents owner w.tree = c.id) :
    ∀ x ∈ cs, x.past = false := by
  intro x hx
  obtain ⟨j, hj⟩ := List.mem_iff_getElem?.mp hx
  by_cases hij : j = i
  · subst hij
    rw [hj] at hc
    cases hc
    exact hpast
  · by_contra hne
    have hxpast : x.past = true := by simpa using hne
    have hsane := h.sane x hx
    have hx' := hsane.ownerIs hxpast
    rw [howner] at hx'
    split at hx'
    · -- It would have the same id, and both run.
      have hno := Pool.others_not (h.ids c.id).once hc (by simp [Standing.isRunning, hlive]) hij hj
      simp [Standing.isRunning, hsane.live hxpast, hx'] at hno
    · exact hid hx'

/-- The lock is there and nobody is past its checks: the owner goes on. -/
theorem Sound.claim (h : Sound w cs) (hc : cs[i]? = some c) (hnobody : ∀ x ∈ cs, x.past = false)
    (hid : c'.id = c.id) (hlive : c'.live = c.live) (hlock : (get lock w.tree).isDirectory = true)
    (hself : Sane w.tree c') : Sound w (cs.set i c' ++ []) where
  ids := h.ids_keep hc hid hlive
  mutex := by
    have hnone : Exclusive false Standing.past cs := by
      refine ⟨fun _ => hnobody, ?_⟩
      rw [List.countP_eq_zero.mpr fun x hx => by simp [hnobody x hx]]
      exact Nat.zero_le 1
    rw [hlock]
    exact hnone.take hc
  sane := Pool.forall_update (fun x hx => sane_of_not_past (hnobody x hx)) hself (by simp)
  consistent := h.consistent

/-! ### One command -/

/-- A command at its point, which fails without having done anything, or works. -/
theorem Sound.passed (h : Sound w cs) (hc : cs[i]? = some c) {point : Point} {o : Operation}
    (hfailed : (o.exec w.tree).1 = false → (o.exec w.tree).2 = w.tree)
    (hdone : (o.exec w.tree).1 = true →
      Sound { w with tree := (o.exec w.tree).2 } (cs.set i (c.passed point) ++ [])) :
    Sound { w with tree := (o.exec w.tree).2 }
      (cs.set i (if (o.exec w.tree).1 then c.passed point else c) ++ []) := by
  cases hr : (o.exec w.tree).1 with
  | true => exact hdone hr
  | false =>
    rw [hfailed hr]
    exact h.still hc ⟨rfl, rfl, rfl, rfl⟩

/-- A marker that is apart from what a command touches. -/
theorem contents_apart {o : Operation} {p : Path} (h : ∀ q ∈ o.touches, Apart q p) (t : FileTree) :
    contents p (o.exec t).2 = contents p t := contents_congr (Operation.exec_apart h t)

/-- The lock is made: there was none, and it has no owner yet. -/
theorem sound_mkdir (h : Sound w cs) (hc : cs[i]? = some c) (hfresh : c.Fresh) {point : Point}
    (hpassed : c.passed point = { c with past := true, cleared := true }) :
    Sound { w with tree := ((Operation.mkdir [lock]).exec w.tree).2 }
      (cs.set i (if ((Operation.mkdir [lock]).exec w.tree).1 then c.passed point else c) ++
        []) := by
  refine h.passed hc mkdir_failed fun hdone => ?_
  rw [Operation.exec_mkdir_one] at hdone ⊢
  obtain ⟨-, hnone, -⟩ := Operation.makeDirectory_done hdone
  have hmade := Operation.get_makeDirectory (by simp [lock, base]) hdone
  have hfree : (get lock w.tree).isDirectory = false := by rw [hnone]; rfl
  have hempty : contents active w.tree = "" := by
    rcases h.consistent with hempty | ⟨hlock, -⟩
    · exact hempty
    · rw [hfree] at hlock
      cases hlock
  have hactive : contents active (Operation.makeDirectory lock w.tree).2 = "" := by
    rw [contents_congr (Operation.makeDirectory_apart (by simp [lock, active]) w.tree)]
    exact hempty
  rw [hpassed]
  refine h.take hc hfree rfl rfl (by rw [hmade]; rfl) ?_ (.inl hactive)
  constructor
  · intro _
    exact hfresh.live
  · intro _
    rw [show owner = lock ++ ["owner"] from rfl]
    show contents _ _ = if c.owns then c.id else ""
    rw [hfresh.owns]
    refine contents_of_none ?_
    rw [get_append, hmade]
    rfl
  · intro _ _
    exact hactive
  · intro _ hm
    have hno := hfresh.marked
    rw [show c.marked = true from hm] at hno
    cases hno
  · intro _ ha
    have hno := hfresh.announced
    rw [show c.announced = true from ha] at hno
    cases hno

/-- The owner is written. -/
theorem sound_writeOwner (h : Sound w cs) (hc : cs[i]? = some c) (hid : validId c.id = true)
    (hpast : c.past = true) (hcleared : c.cleared = true) {point : Point}
    (hpassed : c.passed point = { c with owns := true }) :
    Sound { w with tree := ((Operation.write owner (line c.id)).exec w.tree).2 }
      (cs.set i (if ((Operation.write owner (line c.id)).exec w.tree).1 then c.passed
        point else c) ++
        []) := by
  refine h.passed hc write_failed fun hdone => ?_
  have hsane := h.sane c (List.mem_of_getElem? hc)
  have hactive : contents active ((Operation.write owner (line c.id)).exec w.tree).2 =
      contents active w.tree := contents_apart (by simp [Operation.touches, owner, active]) _
  have hnew : contents activeNew ((Operation.write owner (line c.id)).exec w.tree).2 =
      contents activeNew w.tree := contents_apart (by simp [Operation.touches, owner, activeNew]) _
  have hwritten := contents_of_line hid (Operation.get_write (by simp [owner, base]) hdone)
  rw [hpassed]
  refine h.work hc hpast rfl rfl hpast ?_ ?_ (.inl (hactive.trans (hsane.cleared hpast hcleared)))
  · rw [(Operation.write_done hdone).2]
    exact (isDirectory_get_put lock "owner" [] _ _).trans (h.locked hc hpast)
  · exact ⟨hsane.live, fun _ => hwritten, fun hp hcl => hactive.trans (hsane.cleared hp hcl),
      fun hp hm => hactive.trans (hsane.marked hp hm), fun hp ha =>
        hnew.trans (hsane.announced hp ha)⟩

/-- The owner is removed, when there is no active marker. -/
theorem sound_removeOwner (h : Sound w cs) (hc : cs[i]? = some c) (hpast : c.past = true)
    (hcleared : c.cleared = true) {point : Point} (hpassed : c.passed point =
      { c with owns := false }) :
    Sound { w with tree := ((Operation.remove owner).exec w.tree).2 }
      (cs.set i (if ((Operation.remove owner).exec w.tree).1 then c.passed point else c) ++
        []) := by
  refine h.passed hc remove_failed fun hdone => ?_
  have hsane := h.sane c (List.mem_of_getElem? hc)
  have hactive : contents active ((Operation.remove owner).exec w.tree).2 =
    contents active w.tree :=
    contents_apart (by simp [Operation.touches, owner, active]) _
  have hnew : contents activeNew ((Operation.remove owner).exec w.tree).2 =
    contents activeNew w.tree :=
    contents_apart (by simp [Operation.touches, owner, activeNew]) _
  have hlock : (get lock ((Operation.remove owner).exec w.tree).2).isDirectory = true := by
    rw [← h.locked hc hpast]
    simp only [Operation.exec]
    split
    · rfl
    · rfl
    · exact isDirectory_get_put lock "owner" [] _ _
  rw [hpassed]
  refine h.work hc hpast rfl rfl hpast hlock ?_
    (.inl (hactive.trans (hsane.cleared hpast hcleared)))
  exact ⟨hsane.live, fun _ => contents_of_none (get_remove hdone),
    fun hp hcl => hactive.trans (hsane.cleared hp hcl),
    fun hp hm => hactive.trans (hsane.marked hp hm), fun hp ha =>
      hnew.trans (hsane.announced hp ha)⟩

/-- The lock is removed, when there is no active marker. -/
theorem sound_rmdir (h : Sound w cs) (hc : cs[i]? = some c) (hpast : c.past = true)
    (hcleared : c.cleared = true) {point : Point} (hpassed : c.passed point =
      { c with past := false }) :
    Sound { w with tree := ((Operation.rmdir lock).exec w.tree).2 }
      (cs.set i (if ((Operation.rmdir lock).exec w.tree).1 then c.passed point else c) ++ []) := by
  refine h.passed hc rmdir_failed fun hdone => ?_
  have hsane := h.sane c (List.mem_of_getElem? hc)
  have hactive : contents active ((Operation.rmdir lock).exec w.tree).2 = contents active w.tree :=
    contents_apart (by simp [Operation.touches, lock, active]) _
  rw [hpassed]
  refine h.giveUp hc hpast rfl rfl rfl ?_ (.inl (hactive.trans (hsane.cleared hpast hcleared)))
  rw [get_rmdir hdone]
  rfl

/-- The active marker is written under the lock. -/
theorem sound_remark (h : Sound w cs) (hc : cs[i]? = some c) (hid : validId c.id = true)
    (hpast : c.past = true) (howns : c.owns = true) :
    Sound { w with tree := ((Operation.write active (line c.id)).exec w.tree).2 }
      (cs.set i (if ((Operation.write active (line c.id)).exec w.tree).1 then c.passed
        .remark else c) ++
        []) := by
  refine h.passed hc write_failed fun hdone => ?_
  have hsane := h.sane c (List.mem_of_getElem? hc)
  have howner : contents owner ((Operation.write active (line c.id)).exec w.tree).2 =
      contents owner w.tree := contents_apart (by simp [Operation.touches, owner, active]) _
  have hnew : contents activeNew ((Operation.write active (line c.id)).exec w.tree).2 =
      contents activeNew w.tree := contents_apart (by simp [Operation.touches, active, activeNew]) _
  have hlock : (get lock ((Operation.write active (line c.id)).exec w.tree).2).isDirectory =
    true := by
    rw [Operation.exec_apart (by simp [Operation.touches, active, lock])]
    exact h.locked hc hpast
  have hwritten := contents_of_line hid (Operation.get_write (by simp [active, base]) hdone)
  have hown := hsane.ownerIs hpast
  rw [if_pos howns] at hown
  refine h.work hc hpast rfl rfl hpast hlock ?_ (.inr ⟨hlock,
    (howner.trans hown).trans hwritten.symm⟩)
  exact ⟨hsane.live, fun hp => howner.trans (hsane.ownerIs hp), fun _ hcl => (by cases hcl),
    fun _ _ => hwritten, fun hp ha => hnew.trans (hsane.announced hp ha)⟩

/-- The new marker is written. -/
theorem sound_announce (h : Sound w cs) (hc : cs[i]? = some c) (hid : validId c.id = true)
    (hpast : c.past = true) :
    Sound { w with tree := ((Operation.write activeNew (line c.id)).exec w.tree).2 }
      (cs.set i (if ((Operation.write activeNew (line c.id)).exec w.tree).1 then c.passed .activeNew
        else c) ++ []) := by
  refine h.passed hc write_failed fun hdone => ?_
  have hsane := h.sane c (List.mem_of_getElem? hc)
  have hwritten := contents_of_line hid (Operation.get_write (by simp [activeNew, base]) hdone)
  have hsame : ∀ p ∈ [lock, owner, active],
    get p ((Operation.write activeNew (line c.id)).exec w.tree).2 =
      get p w.tree := by
    intro p hp
    refine Operation.exec_apart (fun q hq => ?_) _
    obtain rfl : q = activeNew := by simpa [Operation.touches] using hq
    revert p
    decide
  have howner := contents_congr (hsame owner (by simp))
  have hactive := contents_congr (hsame active (by simp))
  have hlock : (get lock ((Operation.write activeNew (line c.id)).exec w.tree).2).isDirectory =
    true := by
    rw [hsame lock (by simp)]
    exact h.locked hc hpast
  refine h.work hc hpast rfl rfl hpast hlock ?_ ?_
  · exact ⟨hsane.live, fun hp => howner.trans (hsane.ownerIs hp),
      fun hp hcl => hactive.trans (hsane.cleared hp hcl),
      fun hp hm => hactive.trans (hsane.marked hp hm), fun _ _ => hwritten⟩
  · unfold Consistent
    rw [howner, hactive, hsame lock (by simp)]
    exact h.consistent

/-- The active marker is removed. -/
theorem sound_unmark (h : Sound w cs) (hc : cs[i]? = some c) (hpast : c.past = true) :
    Sound { w with tree := ((Operation.remove active).exec w.tree).2 }
      (cs.set i (if ((Operation.remove active).exec w.tree).1 then c.passed .unmark else c) ++
        []) := by
  refine h.passed hc remove_failed fun hdone => ?_
  have hsane := h.sane c (List.mem_of_getElem? hc)
  have howner : contents owner ((Operation.remove active).exec w.tree).2 = contents owner w.tree :=
    contents_apart (by simp [Operation.touches, owner, active]) _
  have hnew : contents activeNew ((Operation.remove active).exec w.tree).2 =
    contents activeNew w.tree :=
    contents_apart (by simp [Operation.touches, active, activeNew]) _
  have hlock : (get lock ((Operation.remove active).exec w.tree).2).isDirectory = true := by
    rw [Operation.exec_apart (by simp [Operation.touches, active, lock])]
    exact h.locked hc hpast
  have hgone := contents_of_none (get_remove hdone)
  refine h.work hc hpast rfl rfl hpast hlock ?_ (.inl hgone)
  exact ⟨hsane.live, fun hp => howner.trans (hsane.ownerIs hp), fun _ _ => hgone,
    fun _ hm => (by cases hm), fun hp ha => hnew.trans (hsane.announced hp ha)⟩

/-- The new marker becomes the active one. -/
theorem sound_activate (h : Sound w cs) (hc : cs[i]? = some c) (hpast : c.past = true)
    (howns : c.owns = true) (hannounced : c.announced = true) (hmarked : c.marked = false) :
    Sound { w with tree := ((Operation.move activeNew active).exec w.tree).2 }
      (cs.set i (if ((Operation.move activeNew active).exec w.tree).1 then c.passed
        .active else c) ++
        []) := by
  refine h.passed hc move_failed fun hdone => ?_
  have hsane := h.sane c (List.mem_of_getElem? hc)
  have hsame : ∀ p ∈ [lock, owner], get p ((Operation.move activeNew active).exec w.tree).2 =
      get p w.tree := by
    intro p hp
    refine Operation.exec_apart (fun q hq => ?_) _
    simp only [Operation.touches, List.mem_cons, List.not_mem_nil, or_false] at hq
    rcases hq with rfl | rfl <;> revert p <;> decide
  have howner := contents_congr (hsame owner (by simp))
  have hlock : (get lock ((Operation.move activeNew active).exec w.tree).2).isDirectory = true := by
    rw [hsame lock (by simp)]
    exact h.locked hc hpast
  have hself : Sane ((Operation.move activeNew active).exec w.tree).2 (c.passed .active) := by
    refine ⟨hsane.live, fun hp => howner.trans (hsane.ownerIs hp), fun _ hcl => (by cases hcl),
      fun _ hm => ?_, fun _ ha => (by cases ha)⟩
    rw [show c.marked = true from hm] at hmarked
    cases hmarked
  refine h.work hc hpast rfl rfl hpast hlock hself ?_
  have hown := hsane.ownerIs hpast
  rw [if_pos howns] at hown
  cases hd : (get active w.tree).isDirectory with
  | true =>
    -- `mv` puts it into a directory that is in its way, which is no marker.
    have hwithin : Operation.within activeNew active w.tree = active ++ ["active.new"] := by
      unfold Operation.within
      rw [hd]
      rfl
    have hmoved := hdone
    simp only [Operation.exec, hwithin] at hmoved
    refine .inl (contents_of_directory ?_)
    simp only [Operation.exec, hwithin]
    rw [(Operation.rename_done hmoved).2]
    rw [isDirectory_get_put active "active.new" [], get_put_apart (by simp [active, activeNew])]
    exact hd
  | false =>
    have hwithin := Operation.within_of_not_directory hd activeNew
    have hmoved := hdone
    simp only [Operation.exec, hwithin] at hmoved
    have hget : get active ((Operation.move activeNew active).exec w.tree).2 =
      get activeNew w.tree := by
      simp only [Operation.exec, hwithin]
      exact Operation.get_rename (x := "active.new") (by simp [active, base]) rfl hmoved
    have hactive : contents active ((Operation.move activeNew active).exec w.tree).2 = c.id := by
      have hnew := hsane.announced hpast hannounced
      unfold contents at hnew ⊢
      rw [hget]
      exact hnew
    exact .inr ⟨hlock, (howner.trans hown).trans hactive.symm⟩

/-- The script finds its own id in the owner: nobody else is past its checks. -/
theorem sound_owned (h : Sound w cs) (hc : cs[i]? = some c) (hid : validId c.id = true)
    (hfresh : c.Fresh) (howner : contents owner w.tree = c.id) :
    Sound w (cs.set i (c.passed .owned) ++ []) := by
  have hnobody := h.nobody hc hfresh.live (ne_empty_of_valid hid) hfresh.past howner
  have hlock : (get lock w.tree).isDirectory = true := by
    refine isDirectory_of_get (p := lock) (x := "owner") fun hnone => ?_
    have hempty : contents owner w.tree = "" := contents_of_none hnone
    exact ne_empty_of_valid hid (howner.symm.trans hempty)
  have hself : Sane w.tree (c.passed .owned) := by
    refine ⟨fun _ => hfresh.live, fun _ => howner, fun _ hcl => ?_, fun _ hm => ?_, fun _ ha => ?_⟩
    · exact absurd (show c.cleared = true from hcl) (by simp [hfresh.cleared])
    · exact absurd (show c.marked = true from hm) (by simp [hfresh.marked])
    · exact absurd (show c.announced = true from ha) (by simp [hfresh.announced])
  exact h.claim hc hnobody rfl rfl hlock hself

/-- It finds its own id in the active marker, and so in the owner. -/
theorem sound_own (h : Sound w cs) (hc : cs[i]? = some c) (hid : validId c.id = true)
    (hfresh : c.Fresh) (hactive : contents active w.tree = c.id) :
    Sound w (cs.set i (c.passed .own) ++ []) := by
  have hkept : (get lock w.tree).isDirectory = true ∧ contents owner w.tree = c.id := by
    rcases h.consistent with hempty | ⟨hlock, hsame⟩
    · exact absurd (hactive.symm.trans hempty) (ne_empty_of_valid hid)
    · exact ⟨hlock, hsame.trans hactive⟩
  have hnobody := h.nobody hc hfresh.live (ne_empty_of_valid hid) hfresh.past hkept.2
  have hself : Sane w.tree (c.passed .own) := by
    refine ⟨fun _ => hfresh.live, fun _ => hkept.2, fun _ hcl => (by cases hcl), fun _ _ => hactive,
      fun _ ha => ?_⟩
    exact absurd (show c.announced = true from ha) (by simp [hfresh.announced])
  exact h.claim hc hnobody rfl rfl hkept.1 hself

/-- It has written the marker itself. -/
theorem sound_ownAgain (h : Sound w cs) (hc : cs[i]? = some c) (hpast : c.past = true)
    (howns : c.owns = true) (hactive : contents active w.tree = c.id) :
    Sound w (cs.set i (c.passed .own) ++ []) := by
  have hsane := h.sane c (List.mem_of_getElem? hc)
  have hown := hsane.ownerIs hpast
  rw [if_pos howns] at hown
  have hself : Sane w.tree (c.passed .own) :=
    ⟨fun _ => hsane.live hpast, fun _ => hown, fun _ hcl => (by cases hcl), fun _ _ => hactive,
      fun _ ha => hsane.announced hpast ha⟩
  exact h.work hc hpast rfl rfl rfl (h.locked hc hpast) hself h.consistent

/-! ### Commands that are apart from the markers -/

/-- The transaction's own files are not the markers. -/
theorem own_apart {id : String} (hid : Unmarked id) (q : Path) :
    ∀ p ∈ [lock, owner, active, activeNew], Apart (base ++ id :: q) p := by
  intro p hp
  simp only [List.mem_cons, List.not_mem_nil, or_false] at hp
  rcases hp with rfl | rfl | rfl | rfl
  · simp [lock, hid.lock]
  · simp [owner, hid.lock]
  · simp [active, hid.active]
  · simp [activeNew, hid.activeNew]

/-- Nor are the targets and what is staged for them. -/
theorem target_marks (id : String) {target : Target} (ht : target ∈ targets) :
    ∀ p ∈ [lock, owner, active, activeNew], Apart target p ∧ Apart (staged id target) p := by
  intro p hp
  have hbelow : ∃ q, p = base ++ q := by
    simp only [List.mem_cons, List.not_mem_nil, or_false] at hp
    rcases hp with rfl | rfl | rfl | rfl
    · exact ⟨["lock"], rfl⟩
    · exact ⟨["lock", "owner"], rfl⟩
    · exact ⟨["active"], rfl⟩
    · exact ⟨["active.new"], rfl⟩
  obtain ⟨q, rfl⟩ := hbelow
  exact ⟨target_base ht q, staged_base ht id q⟩

/-- A plain command leaves the markers as they are. -/
theorem plain_marks {point : Point} {o : Operation} {t : FileTree} (hmay : c.May point o)
    (hp : point.isPlain = true) : SameMarks t (o.exec t).2 := by
  cases hmay with
  | look => exact ⟨rfl, rfl, rfl, rfl⟩
  | idle => exact ⟨rfl, rfl, rfl, rfl⟩
  | base =>
    refine SameMarks.of_get fun p hp => ?_
    simp only [List.mem_cons, List.not_mem_nil, or_false] at hp
    rcases hp with rfl | rfl | rfl | rfl
    · exact mkdirs_below base "lock" [] t
    · exact mkdirs_below base "lock" ["owner"] t
    · exact mkdirs_below base "active" [] t
    · exact mkdirs_below base "active.new" [] t
  | own _ hid _ ho =>
    refine SameMarks.of_get fun p hp => Operation.exec_apart (fun q hq => ?_) t
    obtain ⟨r, rfl⟩ := ho q hq
    exact own_apart hid r p hp
  | target _ hid _ _ _ ho =>
    refine SameMarks.of_get fun p hp => Operation.exec_apart (fun q hq => ?_) t
    rcases ho q hq with ⟨target, ht, rfl | rfl⟩ | ⟨r, rfl⟩
    · exact (target_marks c.id ht p hp).1
    · exact (target_marks c.id ht p hp).2
    · exact own_apart hid r p hp
  | unown hp' => rcases hp' with rfl | rfl | rfl <;> cases hp
  | unlock hp' => rcases hp' with rfl | rfl | rfl <;> cases hp
  | _ => cases hp

/-- Every command that an invocation may give keeps the invariant. -/
theorem sound_command (h : Sound w cs) (hc : cs[i]? = some c) {point : Point} {o : Operation}
    (hmay : c.May point o) :
    Sound { w with tree := (o.exec w.tree).2 }
      (cs.set i (if (o.exec w.tree).1 then c.passed point else c) ++ []) := by
  cases hp : point.isPlain with
  | true =>
    rw [passed_of_plain c hp, ite_self]
    exact h.still hc (plain_marks hmay hp)
  | false =>
    cases hmay with
    | look hp' => rw [hp] at hp'; cases hp'
    | idle hp' => rw [hp] at hp'; cases hp'
    | base => cases hp
    | own hp' => rw [hp] at hp'; cases hp'
    | target hp' => rw [hp] at hp'; cases hp'
    | lock hfresh => exact sound_mkdir h hc hfresh rfl
    | relock hfresh => exact sound_mkdir h hc hfresh rfl
    | owned hfresh hid =>
      show Sound w (cs.set i (if decide (contents owner w.tree = c.id) then c.passed
        .owned else c) ++ [])
      split
      · rename_i hyes
        exact sound_owned h hc hid hfresh (of_decide_eq_true hyes)
      · exact h.still hc ⟨rfl, rfl, rfl, rfl⟩
    | ownFresh hfresh hid =>
      show Sound w (cs.set i (if decide (contents active w.tree = c.id) then c.passed
        .own else c) ++ [])
      split
      · rename_i hyes
        exact sound_own h hc hid hfresh (of_decide_eq_true hyes)
      · exact h.still hc ⟨rfl, rfl, rfl, rfl⟩
    | ownAgain hpast howns =>
      show Sound w (cs.set i (if decide (contents active w.tree = c.id) then c.passed
        .own else c) ++ [])
      split
      · rename_i hyes
        exact sound_ownAgain h hc hpast howns (of_decide_eq_true hyes)
      · exact h.still hc ⟨rfl, rfl, rfl, rfl⟩
    | owner hid hpast hcleared => exact sound_writeOwner h hc hid hpast hcleared rfl
    | reowner hid hpast hcleared => exact sound_writeOwner h hc hid hpast hcleared rfl
    | activeNew hid hpast => exact sound_announce h hc hid hpast
    | active hid hpast howns hnew hmarked => exact sound_activate h hc hpast howns hnew hmarked
    | remark hid hpast howns => exact sound_remark h hc hid hpast howns
    | unmark hpast => exact sound_unmark h hc hpast
    | unown hp' hpast hcleared =>
      refine sound_removeOwner h hc hpast hcleared ?_
      rcases hp' with rfl | rfl | rfl <;> rfl
    | unlock hp' hpast hcleared =>
      refine sound_rmdir h hc hpast hcleared ?_
      rcases hp' with rfl | rfl | rfl <;> rfl

/-- An invocation ends. The lock stays as it is. -/
theorem sound_exit (h : Sound w cs) (hc : cs[i]? = some c) (hlive : c.live = true) :
    Sound { w with running := w.running.filter (· ≠ c.id) }
      (cs.set i { c with live := false, past := false } ++ []) where
  ids x := by
    have hrun := h.ids x
    by_cases hx : x = c.id
    · subst hx
      have hnone : (w.running.filter (· ≠ c.id)).contains c.id = false := by simp
      rw [hnone]
      exact hrun.release hc (by simp [Standing.isRunning, hlive]) (by simp [Standing.isRunning])
    · have hsame : (w.running.filter (· ≠ c.id)).contains x = w.running.contains x := by
        simp [List.contains_eq_mem, List.mem_filter, hx]
      rw [hsame]
      refine hrun.keep hc ?_ (by simp)
      have hne : (c.id == x) = false := by simpa using fun heq => hx heq.symm
      simp [Standing.isRunning, hne]
  mutex := h.mutex.leave hc rfl
  sane := Pool.forall_update h.sane (sane_of_not_past rfl) (by simp)
  consistent := h.consistent

/-- An invocation begins, with an id that is not in use. -/
theorem sound_start (h : Sound w cs) {x : Invocation} (hx : x.admitted w = true) :
    Sound { w with running := x.id :: w.running } (cs ++ [{ id := x.id }]) where
  ids y := by
    have hfree : w.running.contains x.id = false := by
      have hboth := (Bool.and_eq_true _ _).mp ((Bool.and_eq_true _ _).mp hx).1
      simpa using hboth.2
    by_cases hy : y = x.id
    · subst hy
      have hids := h.ids x.id
      rw [hfree] at hids
      rw [show (x.id :: w.running).contains x.id = true by simp]
      exact hids.enter _
    · rw [show (x.id :: w.running).contains y = w.running.contains y by simp [hy]]
      refine (h.ids y).spawn fun c hc => ?_
      rw [List.mem_singleton.mp hc]
      simpa [Standing.isRunning] using fun heq => hy heq.symm
  mutex := h.mutex.spawn (by simp)
  sane c hc := by
    rcases List.mem_append.mp hc with hc | hc
    · exact h.sane c hc
    · rw [List.mem_singleton.mp hc]
      exact sane_of_not_past rfl
  consistent := h.consistent

end Step

/-! ### The scripts -/

/-- Which turns an invocation may take where it stands. -/
def Standing.allows (c : Standing) {β : Type} : Turn Point β → Prop
  | .call (.run point o) => c.May point o
  | .call (.trap _ _) => True
  | .exit => c.live = true

/-- What an invocation may rely on: nothing stops a command that changes no file. -/
def learns {β : Type} : Turn Point β → β → Prop
  | .call (.run _ .idle), done => done = true
  | _, _ => True

/-- The rules of an invocation. -/
def regime (device : Device) : (invocations device).Regime where
  ok c a := c.allows a
  facts _ a r := learns a r
  pre x c := c = { id := x.id } ∧ x.action ≠ .discardIncomplete ∧
    ["lock", "active"].contains x.id = false
  fin _ := True

/-- The invocation may end here: it has no trap, or the trap's action may run. -/
structure Standing.Closing (c : Standing) : Prop where
  live : c.live = true
  trap : c.trap = none ∨ (c.trap = some (cleanup c.id) ∧ Unmarked c.id ∧ c.past = true ∧
    c.cleared = true)

/-- The invocation is past its checks, and the markers are its own. -/
structure Standing.Working (c : Standing) : Prop where
  live : c.live = true
  trap : c.trap = none
  past : c.past = true
  owns : c.owns = true
  marked : c.marked = true

theorem Standing.Working.closing {c : Standing} (h : c.Working) : c.Closing := ⟨h.live, .inl h.trap⟩

section Scripts

variable {device : Device} {α : Type} {c : Standing}

/-- The rest of a script keeps the rules. -/
abbrev Keeps (device : Device) (s : Script Point α) (Q : Standing → α → Prop)
    (E : Standing → Nat → Prop) (c : Standing) : Prop :=
  (commands (regime device).discipline).wpExcept s Q E c

/-- It keeps them, and may end wherever it does. -/
abbrev Closes (device : Device) (s : Script Point α) (c : Standing) : Prop :=
  Keeps device s (fun c' _ => c'.Closing) (fun c' _ => c'.Closing) c

/-- A part that leaves the record as it is. -/
abbrev Stays (device : Device) (s : Script Point α) (c : Standing) : Prop :=
  Keeps device s (fun c' _ => c' = c) (fun c' _ => c' = c) c

/-- The trap's action, and the end. -/
theorem keeps_close (hc : c.Closing) :
    (regime device).discipline.wp (close c.trap) (fun _ _ => True) c := by
  rcases hc.trap with hnone | ⟨hclean, hid, hpast, hcleared⟩
  · rw [hnone]
    exact ⟨hc.live, fun _ _ _ => trivial⟩
  · rw [hclean]
    refine ⟨.own rfl hid hpast (by simp [Operation.touches, transaction]), fun wiped _ _ => ?_⟩
    cases wiped with
    | false => exact ⟨hc.live, fun _ _ _ => trivial⟩
    | true =>
      refine ⟨.unown (.inr (.inr rfl)) hpast hcleared, fun removed _ _ => ?_⟩
      cases removed with
      | false => exact ⟨hc.live, fun _ _ _ => trivial⟩
      | true =>
        refine ⟨.unlock (.inr (.inr rfl)) hpast hcleared, fun unlocked _ _ => ?_⟩
        cases unlocked with
        | false => exact ⟨hc.live, fun _ _ _ => trivial⟩
        | true => exact ⟨hc.live, fun _ _ _ => trivial⟩

/-- A part that leaves the record as it is, and what comes after it. -/
theorem stays_bind {β : Type} {s : Script Point β} {f : β → Script Point α}
    {Q : Standing → α → Prop} {E : Standing → Nat → Prop} (hs : Stays device s c) (hE : ∀ n, E c n)
    (hf : ∀ b, Keeps device (f b) Q E c) : Keeps device (s >>= f) Q E c := by
  refine (Discipline.wpExcept_bind _ _).mpr ?_
  refine Discipline.wp_mono _ hs fun c' r hr => ?_
  cases r with
  | ok b =>
    obtain rfl : c' = c := hr
    exact hf b
  | error n =>
    obtain rfl : c' = c := hr
    exact hE n

/-- A plain command. -/
theorem stays_require {point : Point} {o : Operation} (hp : point.isPlain = true)
    (hmay : c.May point o) : Stays device (Script.require point o) c := by
  refine wpExcept_require hmay (fun w _ => ?_) fun w _ => rfl
  exact passed_of_plain c hp

theorem stays_ask {point : Point} {holds : FileTree → Bool} (hp : point.isPlain = true) :
    Stays device (Script.ask point holds) c := by
  refine ⟨.look hp, fun yes w _ => ?_⟩
  cases yes with
  | true => exact passed_of_plain c hp
  | false => exact rfl

/-! ### `begin` -/

theorem stays_snapshot (hid : Unmarked c.id) (hpast : c.past = true) (target : Target) :
    Stays device (snapshot c.id target) c := by
  refine stays_bind (stays_require rfl (.idle rfl)) (fun _ => rfl) fun _ => ?_
  refine stays_bind (stays_ask rfl) (fun _ => rfl) fun there => ?_
  cases there with
  | false => exact rfl
  | true =>
    refine stays_bind (stays_require rfl (.own rfl hid hpast ?_)) (fun _ => rfl) fun _ => ?_
    · intro p hp
      exact ⟨["before", name target], List.mem_singleton.mp hp⟩
    · refine stays_require rfl (.own rfl hid hpast ?_)
      intro p hp
      exact ⟨["present", name target], List.mem_singleton.mp hp⟩

/-- The snapshot becomes the active one; after the move nothing can fail. -/
theorem keeps_activate (hc : c.Closing) (hvalid : validId c.id = true) (hpast : c.past = true)
    (howns : c.owns = true) (hmarked : c.marked = false) : Closes device (activate c.id) c := by
  refine stays_bind (stays_require rfl (.idle rfl)) (fun _ => hc) fun _ => ?_
  refine wpExcept_require_bind (.activeNew hvalid hpast) (fun w _ => ?_) fun w _ => hc
  refine wpExcept_require_bind (.active hvalid hpast howns rfl hmarked) (fun w' _ => ?_)
    fun w' _ => ?_
  · refine wpExcept_require_bind (.idle rfl) (fun _ _ => ?_) fun _ hno => ?_
    · exact wpExcept_trap trivial fun _ => ⟨hc.live, .inl rfl⟩
    · cases hno
  · exact ⟨hc.live, hc.trap⟩

/-- While the snapshot is made the trap is set. -/
theorem keeps_prepare {identity : String} (hc : c.Closing) (hid : Unmarked c.id)
    (hvalid : validId c.id = true) (hpast : c.past = true) (howns : c.owns = true)
    (hmarked : c.marked = false) : Closes device (prepare c.id identity) c := by
  refine stays_bind (stays_require rfl (.own rfl hid hpast ?_)) (fun _ => hc) fun _ => ?_
  · intro p hp
    simp only [Operation.touches, List.mem_cons, List.not_mem_nil, or_false] at hp
    rcases hp with rfl | rfl
    · exact ⟨["before"], rfl⟩
    · exact ⟨["present"], rfl⟩
  refine stays_bind (stays_require rfl (.own rfl hid hpast ?_)) (fun _ => hc) fun _ => ?_
  · intro p hp
    exact ⟨["identity"], List.mem_singleton.mp hp⟩
  have hloop : Stays device (Script.each (snapshot c.id) targets) c :=
    wpExcept_each fun target _ => stays_snapshot hid hpast target
  refine stays_bind hloop (fun _ => hc) fun _ => ?_
  refine stays_bind (stays_require rfl (.idle rfl)) (fun _ => hc) fun _ => ?_
  refine stays_bind (stays_require rfl (.own rfl hid hpast ?_)) (fun _ => hc) fun _ => ?_
  · intro p hp
    exact ⟨["state"], List.mem_singleton.mp hp⟩
  exact keeps_activate hc hvalid hpast howns hmarked

theorem keeps_begin {identity : String} (hc : c.Fresh) (htrap : c.trap = none) (hid : Unmarked c.id)
    (hvalid : validId c.id = true) : Closes device (begin c.id identity) c := by
  have hend : c.Closing := ⟨hc.live, .inl htrap⟩
  refine stays_bind (stays_require rfl .base) (fun _ => hend) fun _ => ?_
  refine wpExcept_status_bind (.lock hc) fun taken w _ => ?_
  cases taken with
  | false => exact hend
  | true =>
    refine wpExcept_require_bind (.owner hvalid rfl rfl) (fun w _ => ?_) fun w _ => ⟨hc.live,
      .inl htrap⟩
    refine wpExcept_status_bind (.own rfl hid rfl ?_) fun made w _ => ?_
    · intro p hp
      exact ⟨[], List.mem_singleton.mp hp⟩
    cases made with
    | false =>
      refine wpExcept_require_bind (.unown (.inr (.inl rfl)) rfl rfl) (fun w _ => ?_)
        fun w _ => ⟨hc.live, .inl htrap⟩
      refine wpExcept_require_bind (.unlock (.inr (.inl rfl)) rfl rfl) (fun w _ => ?_)
        fun w _ => ⟨hc.live, .inl htrap⟩
      exact ⟨hc.live, .inl htrap⟩
    | true =>
      refine wpExcept_trap_bind trivial fun w => ?_
      exact keeps_prepare ⟨hc.live, .inr ⟨rfl, hid, rfl, rfl⟩⟩ hid hvalid rfl rfl hc.marked

/-! ### `restore` and `complete` -/

theorem stays_verify {id identity : String} : Stays device (verify id identity) c := by
  refine stays_bind (stays_require rfl (.look rfl)) (fun _ => rfl) fun _ => ?_
  refine stays_bind (stays_ask rfl) (fun _ => rfl) fun known => ?_
  cases known with
  | true => exact rfl
  | false => exact rfl

/-- The markers are given up, the lock last. -/
theorem keeps_release (hc : c.Working) : Closes device release c := by
  refine stays_bind (stays_require rfl (.idle rfl)) (fun _ => hc.closing) fun _ => ?_
  refine wpExcept_require_bind (.unmark hc.past) (fun w _ => ?_) fun w _ => hc.closing
  refine wpExcept_require_bind (.unown (.inl rfl) hc.past rfl) (fun w _ => ?_)
    fun w _ => ⟨hc.live, .inl hc.trap⟩
  refine wpExcept_require_bind (.unlock (.inl rfl) hc.past rfl) (fun w _ => ?_)
    fun w _ => ⟨hc.live, .inl hc.trap⟩
  exact wpExcept_require (.idle rfl) (fun w _ => ⟨hc.live, .inl hc.trap⟩)
    fun w _ => ⟨hc.live, .inl hc.trap⟩

theorem keeps_complete {identity : String} (hc : c.Fresh) (htrap : c.trap = none)
    (hid : Unmarked c.id)
    (hvalid : validId c.id = true) : Closes device (complete c.id identity) c := by
  have hend : c.Closing := ⟨hc.live, .inl htrap⟩
  refine stays_bind stays_verify (fun _ => hend) fun _ => ?_
  refine wpExcept_require_bind (.ownFresh hc hvalid) (fun w _ => ?_) fun w _ => hend
  have hwork : (c.passed .own).Working := ⟨hc.live, htrap, rfl, rfl, rfl⟩
  refine stays_bind (stays_require rfl (.look rfl)) (fun _ => hwork.closing) fun _ => ?_
  refine stays_bind (stays_require rfl (.own rfl hid rfl ?_)) (fun _ => hwork.closing) fun _ => ?_
  · intro p hp
    exact ⟨["state"], List.mem_singleton.mp hp⟩
  exact keeps_release hwork

/-- What a restoration may touch between the markers. -/
theorem may_target {point : Point} {o : Operation} (hid : Unmarked c.id) (hc : c.Working)
    (hp : point.isPlain = true) {target : Target} (ht : target ∈ targets)
    (ho : ∀ p ∈ o.touches, p = target ∨ p = staged c.id target ∨ p = failed c.id target) :
    c.May point o := by
  refine .target hp hid hc.past hc.owns hc.marked fun p hpo => ?_
  rcases ho p hpo with rfl | rfl | rfl
  · exact .inl ⟨p, ht, .inl rfl⟩
  · exact .inl ⟨target, ht, .inr rfl⟩
  · exact .inr ⟨["failed-" ++ name target], rfl⟩

theorem stays_restoreTarget (hid : Unmarked c.id) (hc : c.Working) {target : Target}
    (ht : target ∈ targets) : Stays device (restoreTarget device c.id target) c := by
  refine stays_bind (stays_ask rfl) (fun _ => rfl) fun kept => ?_
  cases kept with
  | false => exact stays_require rfl (may_target hid hc rfl ht (by simp [Operation.touches]))
  | true =>
    refine stays_bind (stays_require rfl (may_target hid hc rfl ht (by simp [Operation.touches])))
      (fun _ => rfl) fun _ => ?_
    refine stays_bind (stays_require rfl (may_target hid hc rfl ht (by simp [Operation.touches])))
      (fun _ => rfl) fun _ => ?_
    have hparse : Stays device (parse device c.id target) c := by
      unfold parse
      split
      · exact stays_require rfl (.look rfl)
      · exact rfl
    have hroom : Stays device (makeRoom c.id target) c := by
      refine stays_bind (stays_ask rfl) (fun _ => rfl) fun occupied => ?_
      cases occupied with
      | false => exact rfl
      | true =>
        refine stays_bind (stays_ask rfl) (fun _ => rfl) fun before => ?_
        cases before with
        | true => exact stays_require rfl (may_target hid hc rfl ht (by simp [Operation.touches]))
        | false => exact stays_require rfl (may_target hid hc rfl ht (by simp [Operation.touches]))
    refine stays_bind hparse (fun _ => rfl) fun _ => ?_
    refine stays_bind hroom (fun _ => rfl) fun _ => ?_
    exact stays_require rfl (may_target hid hc rfl ht (by simp [Operation.touches]))

/-- The services are stopped and started; that changes no file. -/
theorem stays_services {services : List String} {point : String → Point} {holds : String →
    FileTree → Bool}
    (hp : ∀ service, (point service).isPlain = true) :
    Stays device (Script.each (fun service => Script.require (point service)
      (.test (holds service)))
      services) c :=
  wpExcept_each fun service _ => stays_require (hp service) (.look (hp service))

theorem stays_startServices {reload : Bool} : Stays device (startServices device reload) c := by
  unfold startServices
  split
  · refine stays_bind ?_ (fun _ => rfl) fun _ => stays_services fun _ => rfl
    unfold restartStock
    split
    · exact stays_require rfl (.look rfl)
    · exact rfl
  · exact rfl

theorem stays_restoreFiles (hid : Unmarked c.id) (hc : c.Working) :
    Stays device (restoreFiles device c.id) c := by
  refine stays_bind (stays_ask rfl) (fun _ => rfl) fun reload => ?_
  have hstop : Stays device (stopServices device) c := by
    unfold stopServices
    split
    · exact stays_services fun _ => rfl
    · exact rfl
  have hloop : Stays device (Script.each (restoreTarget device c.id) targets) c :=
    wpExcept_each fun target ht => stays_restoreTarget hid hc ht
  refine stays_bind hstop (fun _ => rfl) fun _ => ?_
  refine stays_bind hloop (fun _ => rfl) fun _ => ?_
  refine stays_bind stays_startServices (fun _ => rfl) fun _ => ?_
  refine stays_require rfl (.own rfl hid hc.past ?_)
  intro p hp
  exact ⟨["state"], List.mem_singleton.mp hp⟩

/-- From the ownership check of a restoration on. -/
theorem keeps_restoreOwned (hid : Unmarked c.id) (hlive : c.live = true) (htrap : c.trap = none)
    (hmay : c.May .own (.test fun t => contents active t = c.id)) :
    Closes device (do
      Script.require .own (.test fun t => contents active t = c.id)
      restoreFiles device c.id
      release) c := by
  refine wpExcept_require_bind hmay (fun w _ => ?_) fun w _ => ⟨hlive, .inl htrap⟩
  have hwork : (c.passed .own).Working := ⟨hlive, htrap, rfl, rfl, rfl⟩
  refine stays_bind (stays_restoreFiles hid hwork) (fun _ => hwork.closing) fun _ => ?_
  exact keeps_release hwork

theorem keeps_restore {identity : String} (hc : c.Fresh) (htrap : c.trap = none)
    (hid : Unmarked c.id)
    (hvalid : validId c.id = true) : Closes device (restore device c.id identity) c := by
  have hend : c.Closing := ⟨hc.live, .inl htrap⟩
  refine stays_bind stays_verify (fun _ => hend) fun _ => ?_
  refine (Discipline.wpExcept_bind _ _).mpr ?_
  refine wpExcept_ask_bind (.look rfl) fun marked w => ?_
  cases marked with
  | true => exact keeps_restoreOwned hid hc.live htrap (.ownFresh hc hvalid)
  | false =>
    refine (Discipline.wpExcept_bind _ _).mpr ?_
    refine wpExcept_ask_bind (.look rfl) fun locked w => ?_
    cases locked with
    | true =>
      refine wpExcept_require (.owned hc hvalid) (fun w _ => ?_) fun w _ => hend
      refine wpExcept_require (.remark hvalid rfl rfl) (fun w _ => ?_) fun w _ => ⟨hc.live,
        .inl htrap⟩
      exact keeps_restoreOwned (c := (c.passed .owned).passed .remark) hid hc.live htrap
        (.ownAgain rfl rfl)
    | false =>
      refine wpExcept_require_bind (.relock hc) (fun w _ => ?_) fun w _ => hend
      refine wpExcept_require (.reowner hvalid rfl rfl) (fun w _ => ?_) fun w _ => ⟨hc.live,
        .inl htrap⟩
      refine wpExcept_require (.remark hvalid rfl rfl) (fun w _ => ?_) fun w _ => ⟨hc.live,
        .inl htrap⟩
      exact keeps_restoreOwned (c := ((c.passed .relock).passed .reowner).passed .remark)
        hid hc.live htrap
        (.ownAgain rfl rfl)

/-! ### The whole script -/

theorem keeps_run (device : Device) (action : Action) (identity : String) (hc : c.Fresh)
    (htrap : c.trap = none) (hid : Unmarked c.id) (hvalid : validId c.id = true)
    (haction : action ≠ .discardIncomplete) :
    Closes device (run device action c.id identity) c := by
  cases action with
  | begin => exact keeps_begin hc htrap hid hvalid
  | discardIncomplete => exact absurd rfl haction
  | restore => exact keeps_restore hc htrap hid hvalid
  | complete => exact keeps_complete hc htrap hid hvalid

/-- Every invocation keeps the rules, up to its exit. -/
theorem bodies (device : Device) : (regime device).Bodies := by
  intro x c hpre
  obtain ⟨rfl, haction, hmarker⟩ := hpre
  have hfresh : Standing.Fresh { id := x.id } := ⟨rfl, rfl, rfl, rfl, rfl, rfl⟩
  have hscript : Closes device (invoke device x.action x.id x.identity) { id := x.id } := by
    unfold invoke
    split
    · rename_i hargs
      have hvalid : validId x.id = true := ((Bool.and_eq_true _ _).mp hargs).1
      have hid : Unmarked x.id := by
        simp only [List.contains_eq_mem, decide_eq_false_iff_not, List.mem_cons, List.not_mem_nil,
          or_false, not_or] at hmarker
        exact Unmarked.of_valid hvalid hmarker.1 hmarker.2
      have hkeeps := keeps_run (c := { id := x.id }) device x.action x.identity hfresh
        rfl hid hvalid
        haction
      exact hkeeps
    · exact ⟨rfl, .inl rfl⟩
  show (regime device).discipline.wp
    (process (invoke device x.action x.id x.identity).run none >>= fun _ => pure Next.stop) _ _
  rw [Discipline.wp_bind]
  refine wp_process Standing.trap (fun c a r w => ?_) hscript fun c r hr => ?_
  · cases a with
    | trap point action => rfl
    | run point o =>
      show (if r then c.passed point else c).trap = c.trap
      split
      · cases point <;> rfl
      · rfl
  · cases r with
    | ok u => exact keeps_close hr
    | error n => exact keeps_close hr

end Scripts

/-! ### Every run -/

section Runs

variable {device : Device} {K : Condition (Turn Point) Standing Files Unit Invocation}
  {t₀ : FileTree} {s s' : State (Turn Point) Standing Files Invocation}

/-- One turn that the rules allow keeps the invariant. -/
theorem sound_turn {β : Type} {w w' : Files} {cs : List Standing} {i : Nat} {c : Standing}
    {a : Turn Point β} {r : β} (h : Sound w cs) (hc : cs[i]? = some c) (hok : c.allows a)
    (he : turn a c () w = some (r, w')) :
    learns a r ∧ Sound w' (cs.set i (c.after a r w) ++ []) := by
  cases a with
  | exit =>
    cases he
    exact ⟨trivial, sound_exit h hc hok⟩
  | call call =>
    cases call with
    | trap point action =>
      cases he
      have hsane := h.sane c (List.mem_of_getElem? hc)
      have hself : Sane w.tree { c with trap := action } :=
        ⟨hsane.live, hsane.ownerIs, hsane.cleared, hsane.marked, hsane.announced⟩
      exact ⟨trivial, h.ids_keep hc rfl rfl, h.mutex.keep hc rfl (by simp),
        Pool.forall_update h.sane hself (by simp), h.consistent⟩
    | run point o =>
      cases he
      refine ⟨?_, sound_command h hc hok⟩
      cases o with
      | idle => exact rfl
      | _ => trivial

/-- In every state of every run the invariant holds, and whoever runs keeps the rules. -/
theorem run_sound (h₀ : Consistent t₀) (h : (invocations device).Run K (device₀ t₀) s) :
    Sound s.world s.ctxs ∧ ∀ t ∈ s.threads, (regime device).Keeps t := by
  refine Machine.sound (regime device) (bodies device) ?_ ?_ ?_ ?_ h
  · intro β w w' cs i c a e r hsound hc hok _ he
    obtain ⟨hlearns, hkept⟩ := sound_turn hsound hc hok he
    exact ⟨hlearns, by simp [invocations], hkept⟩
  · intro w cs x o hsound _ ho
    simp only [invocations] at ho
    split at ho
    · rename_i hadmitted
      cases ho
      refine ⟨fun bc hbc => ?_, sound_start hsound hadmitted⟩
      obtain rfl := List.mem_singleton.mp hbc
      simp only [Invocation.admitted, Bool.and_eq_true, bne_iff_ne, ne_eq,
        Bool.not_eq_true'] at hadmitted
      exact ⟨rfl, hadmitted.1.1, hadmitted.2⟩
    · cases ho
  · refine ⟨fun x => ?_, ?_, ?_, h₀⟩
    · exact ⟨fun _ _ hc => absurd hc List.not_mem_nil, Nat.zero_le 1⟩
    · exact ⟨fun _ _ hc => absurd hc List.not_mem_nil, Nat.zero_le 1⟩
    · intro c hc
      exact absurd hc List.not_mem_nil
  · intro t ht
    exact absurd ht List.not_mem_nil

/-- Where a command works: on a marker, in the invocation's own transaction, or on a target, which
takes both markers. -/
theorem may_touched {c : Standing} {point : Point} {o : Operation} (h : c.May point o) :
    o = .mkdirs base ∨ ∀ p ∈ o.touches, p ∈ [lock, owner, active, activeNew] ∨
      (∃ q, p = base ++ c.id :: q) ∨
      ((c.past = true ∧ c.owns = true ∧ c.marked = true) ∧
        ∃ target ∈ targets, p = target ∨ p = staged c.id target) := by
  cases h with
  | base => exact .inl rfl
  | own _ _ _ ho => exact .inr fun p hp => .inr (.inl (ho p hp))
  | target _ _ hpast howns hmarked ho =>
    refine .inr fun p hp => ?_
    rcases ho p hp with htarget | hown
    · exact .inr (.inr ⟨⟨hpast, howns, hmarked⟩, htarget⟩)
    · exact .inr (.inl hown)
  | _ => exact .inr (by simp [Operation.touches])

/-- Another's transaction stays as it is, whatever the markers say. -/
theorem others_kept {c : Standing} {point : Point} {o : Operation} (h : c.May point o)
    {other : String} (hother : other ≠ c.id) (hid : Unmarked other) (t : FileTree) :
    get (transaction other) (o.exec t).2 = get (transaction other) t := by
  rcases may_touched h with rfl | hapart
  · exact mkdirs_below base other [] t
  · refine Operation.exec_apart (fun p hp => ?_) t
    rcases hapart p hp with hmarker | ⟨q, rfl⟩ | ⟨-, target, ht, rfl | rfl⟩
    · exact (own_apart hid [] p hmarker).symm
    · simp [transaction, hother.symm]
    · exact target_base ht [other]
    · exact staged_base ht c.id [other]

/-- Without both markers no target changes. -/
theorem targets_kept {c : Standing} {point : Point} {o : Operation} {t : FileTree}
    (h : c.May point o) (hsane : Sane t c)
    (hno : ¬(contents owner t = c.id ∧ contents active t = c.id)) {target : Target}
    (ht : target ∈ targets) : get target (o.exec t).2 = get target t := by
  rcases may_touched h with rfl | hapart
  · exact Operation.exec_apart (by simpa [Operation.touches] using base_target ht []) t
  · refine Operation.exec_apart (fun p hp => ?_) t
    rcases hapart p hp with hmarker | ⟨q, rfl⟩ | ⟨⟨hpast, howns, hmarked⟩, -⟩
    · exact ((target_marks c.id ht p hmarker).1).symm
    · exact base_target ht (c.id :: q)
    · -- It is past its checks, and the markers are its own.
      have howner := hsane.ownerIs hpast
      rw [if_pos howns] at howner
      exact absurd ⟨howner, hsane.marked hpast hmarked⟩ hno

/-- **One deployment at a time.** The invocations run concurrently, each with an id of its own. An
active marker that is on the device from before is the lock's owner, as it is wherever the
invocations leave off. In every state that their commands lead to, at most one of them is past its
lock and ownership checks. The next command of an invocation changes no target unless the lock's
owner and the active marker are its id, and it never changes what is in the transaction of another
id. -/
theorem only_one_deployment (h₀ : Consistent t₀)
    (h : (invocations device).Run K (device₀ t₀) s) :
    Consistent s.world.tree ∧ s.ctxs.countP Standing.past ≤ 1 ∧
      ∀ (i : Nat) (c : Standing) (s' : State (Turn Point) Standing Files Invocation),
        s.ctxs[i]? = some c → (invocations device).step s (.thread i ()) = some s' →
        (¬(contents owner s.world.tree = c.id ∧ contents active s.world.tree = c.id) →
          ∀ target ∈ targets, get target s'.world.tree = get target s.world.tree) ∧
        ∀ other, other ≠ c.id → Unmarked other →
          get (transaction other) s'.world.tree = get (transaction other) s.world.tree := by
  obtain ⟨hsound, hkeeps⟩ := run_sound h₀ h
  refine ⟨hsound.consistent, hsound.mutex.once, fun i c s' hc hstep => ?_⟩
  have hsane := hsound.sane c (List.mem_of_getElem? hc)
  cases Machine.step_cases hstep with
  | goto ht hp => exact ⟨fun _ _ _ => rfl, fun _ _ _ => rfl⟩
  | @act _ _ t β a k r w ht hp he =>
    obtain rfl : t.ctx = c := Option.some.inj ((Machine.ctxs_getElem? ht).symm.trans hc)
    have hok : t.ctx.allows a := (Machine.Regime.keeps_act (hkeeps t (List.mem_of_getElem? ht))
      hp).1
    cases a with
    | exit =>
      cases he
      exact ⟨fun _ _ _ => rfl, fun _ _ _ => rfl⟩
    | call call =>
      cases call with
      | trap point action =>
        cases he
        exact ⟨fun _ _ _ => rfl, fun _ _ _ => rfl⟩
      | run point o =>
        cases he
        have hmay : t.ctx.May point o := hok
        exact ⟨fun hno target htarget => targets_kept hmay hsane hno htarget,
          fun other hother hid => others_kept hmay hother hid s.world.tree⟩

end Runs

/-! ### A deployment, and a restoration beside it -/

namespace Beside

/-- A device with the transaction `b`, of an earlier deployment. -/
def files : FileTree := some (.directory [
  ("data", .directory [("zte-agent", .file "binary"), ("local", .directory [("tmp", .directory [
    ("open-u60-transactions", .directory [("b", .directory [("before", .directory []),
      ("present", .directory []), ("identity", .file "bb\n"),
        ("state", .file "committed\n")])])])])])])

/-- `a` takes the lock; `b` finds its own transaction, no active marker, and the lock. -/
def events : List (Event Unit Invocation) :=
  [.outside ⟨.begin, "a", "aa"⟩, .outside ⟨.restore, "b", "bb"⟩,
    .thread 0 (), .thread 1 (), .thread 0 (), .thread 1 (), .thread 0 (), .thread 1 (),
      .thread 1 ()]

/-- `a` is past its checks; `b` may ask for the owner. -/
def reached (s : State (Turn Point) Standing Files Invocation) : Bool :=
  (s.ctxs.map fun c => (c.id, c.past)) == [("a", true), ("b", false)] &&
    contents owner s.world.tree == "a" && ((invocations Failed.device).step s (.thread 1 ())).isSome

end Beside

/-- The restoration is not past its checks beside the deployment, and its next command changes
neither a target nor the deployment's transaction. -/
theorem restoration_beside_deployment :
    ∃ s s', (invocations Failed.device).Run .any (device₀ Beside.files) s ∧
      (s.ctxs.map fun c => (c.id, c.past)) = [("a", true), ("b", false)] ∧
      s.ctxs.countP Standing.past ≤ 1 ∧
      (invocations Failed.device).step s (.thread 1 ()) = some s' ∧
      (∀ target ∈ targets, get target s'.world.tree = get target s.world.tree) ∧
      get (transaction "a") s'.world.tree = get (transaction "a") s.world.tree := by
  have hrun : ((invocations Failed.device).run .any (device₀ Beside.files) Beside.events).any
      Beside.reached = true := by decide +kernel
  obtain ⟨s, hs, hreached⟩ := Machine.Run.exists_of_run hrun
  simp only [Beside.reached, Bool.and_eq_true, beq_iff_eq] at hreached
  obtain ⟨⟨hstanding, howner⟩, hnext⟩ := hreached
  obtain ⟨s', hstep⟩ := Option.isSome_iff_exists.mp hnext
  obtain ⟨c, hc, hid⟩ : ∃ c, s.ctxs[1]? = some c ∧ (c.id, c.past) = ("b", false) := by
    have hsecond : (s.ctxs.map fun c => (c.id, c.past))[1]? = some ("b", false) := by
      rw [hstanding]
      rfl
    rwa [List.getElem?_map, Option.map_eq_some_iff] at hsecond
  have hb : c.id = "b" := congrArg Prod.fst hid
  obtain ⟨-, honce, hsteps⟩ := only_one_deployment (.inl (by decide +kernel)) hs
  obtain ⟨htargets, hothers⟩ := hsteps 1 c s' hc hstep
  refine ⟨s, s', hs, hstanding, honce, hstep, htargets ?_, hothers "a" ?_ ?_⟩
  · rw [howner, hb]
    exact fun hboth => absurd hboth.1 (by decide)
  · rw [hb]
    decide
  · exact ⟨by decide, by decide, by decide⟩

end OpenUI.Deploy
