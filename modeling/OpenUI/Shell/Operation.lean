import OpenUI.Shell.FileTree
import Mathlib.Data.List.DropRight

/-!
# `OpenUI.Shell.Operation`: the commands of a shell script

The commands on files that scripts are made of, as functions on the file tree: the exit status and
the tree afterwards. A command of which only the exit status counts is a `test`. `Torn` says what
a command may leave that is cut off inside (power loss), and `spoil` what it leaves when it fails.

* `exec_apart`, `torn_apart`, `spoil_apart`: a path that is apart from all a command touches does
  not change.
* `exec_shallow`, `torn_shallow`, `spoil_shallow`: above all it touches, nothing comes and no
  directory goes.
-/

set_option autoImplicit false

namespace OpenUI.Shell

open FileTree

-- The equations are stated here once, before the proofs that rewrite with them.
section
attribute [local simp] FileTree.isFile FileTree.isLink
end

/-- A command. -/
inductive Operation where
  /-- `mkdir paths`. -/
  | mkdir (paths : List Path)
  /-- `mkdir -p path`. -/
  | mkdirs (path : Path)
  /-- `rmdir path`. -/
  | rmdir (path : Path)
  /-- `rm -f path`. -/
  | remove (path : Path)
  /-- `rm -rf path`. -/
  | removeAll (path : Path)
  /-- `cp -a source target`. -/
  | copy (source target : Path)
  /-- `mv source target`. -/
  | move (source target : Path)
  /-- `mv -Tf source target`. -/
  | replace (source target : Path)
  /-- `printf … > path`. -/
  | write (path : Path) (content : String)
  /-- A question to the files, or a command of which only the exit status counts. -/
  | test (holds : FileTree → Bool)
  /-- A command that changes no file and does what it is for: `sync`, or a variable's value. -/
  | idle

/-- The directory a path is in. -/
def above (p : Path) : Path := p.dropLast

/-- Its last name. -/
def nameOf (p : Path) : String := p.getLastD ""

/-- `cat path`, as `$(…)` gives it: without the newlines at its end, and nothing when there is no
such file. -/
def contents (p : Path) (t : FileTree) : String :=
  match get p t with
  | some (.file c) => String.ofList (c.toList.rdropWhile (· = '\n'))
  | _ => ""

/-- `printf '%s\n'`. -/
def line (s : String) : String := s ++ "\n"

namespace Operation

/-! ### What the commands do -/

/-- `mkdir` of one directory. -/
def makeDirectory (p : Path) (t : FileTree) : Bool × FileTree :=
  if (get (above p) t).isDirectory ∧ get p t = none then (true, put p (some (.directory [])) t)
  else (false, t)

/-- `mkdir` of several, one after the other. -/
def makeDirectories : List Path → FileTree → Bool × FileTree
  | [], t => (true, t)
  | p :: ps, t =>
    let made := makeDirectory p t
    let rest := makeDirectories ps made.2
    (made.1 && rest.1, rest.2)

/-- `mkdir -p`: the tree with a directory at the path, unless something else is in the way. -/
def ensure : Path → FileTree → Option FileTree
  | [], none => some (some (.directory []))
  | [], some (.directory es) => some (some (.directory es))
  | [], some _ => none
  | x :: p, none => (ensure p none).map fun r => some (.directory (setEntry x r []))
  | x :: p, some (.directory es) =>
    (ensure p (es.lookup x)).map fun r => some (.directory (setEntry x r es))
  | _ :: _, some _ => none

/-- `rename`: a directory takes the place of nothing or of an empty one, anything else that of
anything but a directory. -/
def fits (n : Node) (old : FileTree) : Bool :=
  match n, old with
  | .directory _, none => true
  | .directory _, some (.directory []) => true
  | .directory _, some _ => false
  | _, old => !old.isDirectory

/-- Something moves to a path in its full length. -/
def rename (source target : Path) (t : FileTree) : Bool × FileTree :=
  match get source t with
  | none => (false, t)
  | some n =>
    if (get (above target) t).isDirectory ∧ fits n (get target t) = true then
      (true, put target (some n) (put source none t))
    else (false, t)

/-- `cp` and `mv` put something into a directory that is already there. -/
def within (source target : Path) (t : FileTree) : Path :=
  if (get target t).isDirectory then target ++ [nameOf source] else target

/-- What a command does: whether it succeeds, and the tree. -/
def exec : Operation → FileTree → Bool × FileTree
  | mkdir ps, t => makeDirectories ps t
  | mkdirs p, t =>
    if (get p t).isDirectory then (true, t)
    else match ensure p t with
      | some t' => (true, t')
      | none => (false, t)
  | rmdir p, t => match get p t with
    | some (.directory []) => (true, put p none t)
    | _ => (false, t)
  | remove p, t => match get p t with
    | none => (true, t)
    | some (.directory _) => (false, t)
    | some _ => (true, put p none t)
  | removeAll p, t => (true, put p none t)
  | copy s d, t => match get s t with
    | none => (false, t)
    | some n =>
      if (get (above (within s d t)) t).isDirectory then (true, put (within s d t) (some n) t)
      else (false, t)
  | move s d, t => rename s (within s d t) t
  | replace s d, t => rename s d t
  -- a redirection follows a link; where the path is one, it is not looked any further
  | write p c, t =>
    if (get p t).isDirectory ∨ (get p t).isLink ∨ (get (above p) t).isDirectory = false then
      (false, t)
    else (true, put p (some (.file c)) t)
  | test holds, t => (holds t, t)
  | idle, t => (true, t)

/-- What there is of something: a directory if that is one, and nothing of nothing. -/
def Alike (old new : FileTree) : Prop :=
  new ≠ none → old ≠ none ∧ new.isDirectory = old.isDirectory

/-- What a command that is cut off inside may leave, `left` being what remains at the path it was
working on: the beginning of the text it wrote, a part of a copy or what is left of something it
removes. `mv` copies and removes when it moves from one file system to another; within a directory
it renames at once. -/
def Torn : Operation → FileTree → FileTree → FileTree → Prop
  | write p c, left, t, t' => ((write p c).exec t).1 = true ∧
      (∃ part, part.toList <+: c.toList ∧ left = some (.file part)) ∧ t' = put p left t
  | copy s d, left, t, t' => Alike (get s t) left ∧ t' = put (within s d t) left t
  | removeAll p, left, t, t' => Alike (get p t) left ∧ t' = put p left t
  | move s d, left, t, t' => ((move s d).exec t).1 = true ∧ above s ≠ above (within s d t) ∧
      Alike (get s t) left ∧
      (t' = put (within s d t) left t ∨ t' = put s left (put (within s d t) (get s t) t))
  | mkdir ps, _, t, t' => ∃ ps', ps' <+: ps ∧ t' = (makeDirectories ps' t).2
  | _, _, _, _ => False

/-- What a command leaves that fails: `left`, at the path it was working on. A command that does
its work at once has not done anything. -/
def spoil : Operation → FileTree → FileTree → FileTree
  | write p _, left, t => put p left t
  | copy s d, left, t => put (within s d t) left t
  | removeAll p, left, t => put p left t
  | mkdir ps, _, t => (makeDirectories ps.dropLast t).2
  | _, _, t => t

/-! ### What the commands do where they succeed -/

theorem makeDirectory_done {p : Path} {t : FileTree} (h : (makeDirectory p t).1 = true) :
    (get (above p) t).isDirectory = true ∧ get p t = none ∧
      makeDirectory p t = (true, put p (some (.directory [])) t) := by
  unfold makeDirectory at h ⊢
  split
  · rename_i hp
    exact ⟨hp.1, hp.2, rfl⟩
  · rename_i hp
    rw [if_neg hp] at h
    cases h

theorem makeDirectory_of_none {p : Path} {t : FileTree} (h : (get (above p) t).isDirectory = true)
    (hp : get p t = none) : makeDirectory p t = (true, put p (some (.directory [])) t) :=
  if_pos ⟨h, hp⟩

theorem makeDirectory_of_some {p : Path} {t : FileTree} (hp : get p t ≠ none) :
    makeDirectory p t = (false, t) := if_neg fun h => hp h.2

/-- A new directory is empty. -/
theorem get_makeDirectory {p : Path} {t : FileTree} (hp : p ≠ [])
    (h : (makeDirectory p t).1 = true) :
    get p (makeDirectory p t).2 = some (.directory []) := by
  obtain ⟨habove, -, heq⟩ := makeDirectory_done h
  rw [heq]
  exact get_put_self _ hp habove

theorem exec_mkdir_one (p : Path) (t : FileTree) : (mkdir [p]).exec t = makeDirectory p t := by
  show ((makeDirectory p t).1 && true, (makeDirectory p t).2) = makeDirectory p t
  rw [Bool.and_true]

/-- A file can be written where nothing or a file is. -/
theorem exec_write {p : Path} {c : String} {t : FileTree} (h : (get (above p) t).isDirectory = true)
    (hp : get p t = none ∨ (get p t).isFile = true) :
    (write p c).exec t = (true, put p (some (.file c)) t) := by
  refine if_neg ?_
  rintro (hd | hl | ha)
  · rcases hp with hp | hp
    · simp [hp] at hd
    · rcases htree : get p t with _ | (_ | _ | es) <;> simp [htree] at hd hp
  · rcases hp with hp | hp
    · simp [hp, isLink] at hl
    · rcases htree : get p t with _ | (_ | _ | es) <;> simp [htree, isLink, isFile] at hl hp
  · rw [h] at ha
    cases ha

theorem write_done {p : Path} {c : String} {t : FileTree} (h : ((write p c).exec t).1 = true) :
    (get (above p) t).isDirectory = true ∧
      (write p c).exec t = (true, put p (some (.file c)) t) := by
  simp only [exec] at h ⊢
  split
  · rename_i hp
    rw [if_pos hp] at h
    cases h
  · rename_i hp
    refine ⟨?_, rfl⟩
    by_contra ha
    exact hp (Or.inr (Or.inr (by simpa using ha)))

/-- What was written can be read. -/
theorem get_write {p : Path} {c : String} {t : FileTree} (hp : p ≠ [])
    (h : ((write p c).exec t).1 = true) : get p ((write p c).exec t).2 = some (.file c) := by
  obtain ⟨habove, heq⟩ := write_done h
  rw [heq]
  exact get_put_self _ hp habove

theorem within_of_not_directory {d : Path} {t : FileTree} (h : (get d t).isDirectory = false)
    (s : Path) : within s d t = d := by
  unfold within
  rw [h]
  rfl

/-- A copy to where nothing is. -/
theorem exec_copy {s d : Path} {n : Node} {t : FileTree} (hd : get d t = none)
    (hs : get s t = some n) (h : (get (above d) t).isDirectory = true) :
    (copy s d).exec t = (true, put d (some n) t) := by
  have hw : within s d t = d := within_of_not_directory (by simp [hd]) s
  simp only [exec, hs, hw, h, if_true]

theorem copy_done {s d : Path} {t : FileTree} (hd : get d t = none)
    (h : ((copy s d).exec t).1 = true) : get s t ≠ none ∧
      (get (above d) t).isDirectory = true ∧ (copy s d).exec t = (true, put d (get s t) t) := by
  have hw : within s d t = d := within_of_not_directory (by simp [hd]) s
  simp only [exec, hw] at h ⊢
  cases hs : get s t with
  | none => simp [hs] at h
  | some n =>
    simp only [hs] at h ⊢
    split
    · rename_i ha
      exact ⟨by simp, ha, rfl⟩
    · rename_i ha
      rw [if_neg ha] at h
      cases h

/-- The copy is what was copied. -/
theorem get_copy {s d : Path} {t : FileTree} (hp : d ≠ []) (hd : get d t = none)
    (h : ((copy s d).exec t).1 = true) : get d ((copy s d).exec t).2 = get s t := by
  obtain ⟨-, habove, heq⟩ := copy_done hd h
  rw [heq]
  exact get_put_self _ hp habove

theorem rename_done {s d : Path} {t : FileTree} (h : (rename s d t).1 = true) :
    (get (above d) t).isDirectory = true ∧ rename s d t =
      (true, put d (get s t) (put s none t)) := by
  unfold rename at h ⊢
  cases hs : get s t with
  | none => simp [hs] at h
  | some n =>
    simp only [hs] at h ⊢
    split
    · rename_i ha
      exact ⟨ha.1, rfl⟩
    · rename_i ha
      rw [if_neg ha] at h
      cases h

/-- What was renamed within a directory is under its new name. -/
theorem get_rename {s d : Path} {x : String} {t : FileTree} (hp : d ≠ []) (hs : s = above d ++ [x])
    (h : (rename s d t).1 = true) : get d (rename s d t).2 = get s t := by
  obtain ⟨habove, heq⟩ := rename_done h
  rw [heq]
  refine get_put_self _ hp ?_
  rw [hs]
  exact (isDirectory_get_put (above d) x [] none t).trans habove

/-! ### What the commands touch -/

/-- The paths at or below which a command may change something. -/
def touches : Operation → List Path
  | mkdir ps => ps
  | mkdirs p => [p]
  | rmdir p => [p]
  | remove p => [p]
  | removeAll p => [p]
  | copy _ d => [d]
  | move s d => [s, d]
  | replace s d => [s, d]
  | write p _ => [p]
  | test _ => []
  | idle => []

theorem within_apart {d q : Path} (h : Apart d q) (s : Path) (t : FileTree) :
    Apart (within s d t) q := by
  unfold within
  split
  · exact h.append_left [nameOf s]
  · exact h

theorem makeDirectory_apart {p q : Path} (h : Apart p q) (t : FileTree) :
    get q (makeDirectory p t).2 = get q t := by
  unfold makeDirectory
  split
  · exact get_put_apart h _ t
  · rfl

theorem makeDirectories_apart {ps : List Path} {q : Path} (h : ∀ p ∈ ps, Apart p q) (t : FileTree) :
    get q (makeDirectories ps t).2 = get q t := by
  induction ps generalizing t with
  | nil => rfl
  | cons p ps ih =>
    show get q (makeDirectories ps (makeDirectory p t).2).2 = get q t
    rw [ih fun p' hp' => h p' (List.mem_cons_of_mem p hp')]
    exact makeDirectory_apart (h p List.mem_cons_self) t

/-- Where a path parts from the new directory, nothing was and nothing is. -/
theorem ensure_apart {p q : Path} (h : Apart p q) {t t' : FileTree} (he : ensure p t = some t') :
    get q t' = get q t := by
  induction p generalizing q t t' with
  | nil => simp at h
  | cons x p ih =>
    cases q with
    | nil => simp at h
    | cons y q =>
      have key : ∀ (old : FileTree) (es : List (String × Node)) (r : FileTree),
          es.lookup x = old → ensure p old = some r →
          get (y :: q) (some (.directory (setEntry x r es))) = get q (es.lookup y) := by
        intro old es r hold hr
        by_cases hxy : y = x
        · subst hxy
          rw [get_cons, lookup_setEntry_self, hold]
          exact ih (h.resolve_left (by simp)) hr
        · rw [get_cons, lookup_setEntry_ne hxy]
      rcases t with _ | (_ | _ | es)
      · rw [ensure, Option.map_eq_some_iff] at he
        obtain ⟨r, hr, rfl⟩ := he
        rw [key none [] r rfl hr]
        simp
      · simp [ensure] at he
      · simp [ensure] at he
      · rw [ensure, Option.map_eq_some_iff] at he
        obtain ⟨r, hr, rfl⟩ := he
        exact key (es.lookup x) es r rfl hr

/-- What `mkdir -p` makes is a directory. -/
theorem ensure_isDirectory {p : Path} {t t' : FileTree} (he : ensure p t = some t') :
    (get p t').isDirectory = true := by
  induction p generalizing t t' with
  | nil =>
    rcases t with _ | (_ | _ | es) <;> simp [ensure] at he <;> subst he <;> rfl
  | cons x p ih =>
    rcases t with _ | (_ | _ | es)
    · rw [ensure, Option.map_eq_some_iff] at he
      obtain ⟨r, hr, rfl⟩ := he
      rw [get_cons, lookup_setEntry_self]
      exact ih hr
    · simp [ensure] at he
    · simp [ensure] at he
    · rw [ensure, Option.map_eq_some_iff] at he
      obtain ⟨r, hr, rfl⟩ := he
      rw [get_cons, lookup_setEntry_self]
      exact ih hr

/-- `mkdir -p` leaves the directories that are there. -/
theorem ensure_keeps {p q : Path} {t t' : FileTree} (he : ensure p t = some t')
    (h : (get q t).isDirectory = true) : (get q t').isDirectory = true := by
  induction p generalizing q t t' with
  | nil =>
    rcases t with _ | (_ | _ | es) <;> simp [ensure] at he <;> subst he
    · simp at h
    · exact h
  | cons x p ih =>
    rcases t with _ | (_ | _ | es)
    · simp at h
    · simp [ensure] at he
    · simp [ensure] at he
    · rw [ensure, Option.map_eq_some_iff] at he
      obtain ⟨r, hr, rfl⟩ := he
      cases q with
      | nil => rfl
      | cons y q =>
        rw [get_cons] at h ⊢
        by_cases hxy : y = x
        · subst hxy
          rw [lookup_setEntry_self]
          exact ih hr h
        · rw [lookup_setEntry_ne hxy]
          exact h

theorem rename_apart {s d q : Path} (hs : Apart s q) (hd : Apart d q) (t : FileTree) :
    get q (rename s d t).2 = get q t := by
  unfold rename
  split
  · rfl
  · split
    · rw [get_put_apart hd, get_put_apart hs]
    · rfl

/-- A path that is apart from all a command touches keeps what is there. -/
theorem exec_apart {o : Operation} {q : Path} (h : ∀ p ∈ o.touches, Apart p q) (t : FileTree) :
    get q (o.exec t).2 = get q t := by
  cases o with
  | mkdir ps => exact makeDirectories_apart h t
  | mkdirs p =>
    simp only [exec]
    split
    · rfl
    · split
      · rename_i t' he
        exact ensure_apart (h p List.mem_cons_self) he
      · rfl
  | rmdir p =>
    simp only [exec]
    split
    · exact get_put_apart (h p List.mem_cons_self) _ t
    · rfl
  | remove p =>
    simp only [exec]
    split
    · rfl
    · rfl
    · exact get_put_apart (h p List.mem_cons_self) _ t
  | removeAll p => exact get_put_apart (h p List.mem_cons_self) _ t
  | copy s d =>
    simp only [exec]
    split
    · rfl
    · split
      · exact get_put_apart (within_apart (h d List.mem_cons_self) s t) _ t
      · rfl
  | move s d =>
    have hd : Apart d q := h d (List.mem_cons_of_mem s List.mem_cons_self)
    exact rename_apart (h s List.mem_cons_self) (within_apart hd s t) t
  | replace s d =>
    exact rename_apart (h s List.mem_cons_self) (h d (List.mem_cons_of_mem s List.mem_cons_self)) t
  | write p c =>
    simp only [exec]
    split
    · rfl
    · exact get_put_apart (h p List.mem_cons_self) _ t
  | test holds => rfl
  | idle => rfl

/-- So does it when the command is cut off inside. -/
theorem torn_apart {o : Operation} {q : Path} {left t t' : FileTree}
    (h : ∀ p ∈ o.touches, Apart p q) (ht : o.Torn left t t') : get q t' = get q t := by
  cases o with
  | mkdir ps =>
    obtain ⟨ps', hps, rfl⟩ := ht
    exact makeDirectories_apart (fun p hp => h p (hps.subset hp)) t
  | mkdirs p => cases ht
  | rmdir p => cases ht
  | remove p => cases ht
  | removeAll p =>
    obtain ⟨-, rfl⟩ := ht
    exact get_put_apart (h p List.mem_cons_self) left t
  | copy s d =>
    obtain ⟨-, rfl⟩ := ht
    exact get_put_apart (within_apart (h d List.mem_cons_self) s t) left t
  | move s d =>
    have hs : Apart s q := h s List.mem_cons_self
    have hd : Apart (within s d t) q :=
      within_apart (h d (List.mem_cons_of_mem s List.mem_cons_self)) s t
    obtain ⟨-, -, -, rfl | rfl⟩ := ht
    · exact get_put_apart hd left t
    · rw [get_put_apart hs, get_put_apart hd]
  | replace s d => cases ht
  | write p c =>
    obtain ⟨-, -, rfl⟩ := ht
    exact get_put_apart (h p List.mem_cons_self) left t
  | test holds => cases ht
  | idle => cases ht

/-- And when it fails. -/
theorem spoil_apart {o : Operation} {q : Path} (h : ∀ p ∈ o.touches, Apart p q)
    (left t : FileTree) : get q (o.spoil left t) = get q t := by
  cases o with
  | mkdir ps => exact makeDirectories_apart (fun p hp => h p (List.dropLast_subset ps hp)) t
  | removeAll p => exact get_put_apart (h p List.mem_cons_self) left t
  | copy s d => exact get_put_apart (within_apart (h d List.mem_cons_self) s t) left t
  | write p c => exact get_put_apart (h p List.mem_cons_self) left t
  | _ => rfl

/-! ### What is above all they touch -/

/-- The second path is apart from the first, or above it. -/
def Clear (p q : Path) : Prop := Apart p q ∨ ∃ x r, p = q ++ x :: r

theorem Clear.append_left {p q : Path} (h : Clear p q) (r : Path) : Clear (p ++ r) q := by
  rcases h with h | ⟨x, s, rfl⟩
  · exact .inl (h.append_left r)
  · exact .inr ⟨x, s ++ r, by simp⟩

/-- What is apart from a path is clear of all that is above it. -/
theorem clear_of_apart {p q r : Path} (h : Apart p (q ++ r)) : Clear p q := by
  induction q generalizing p with
  | nil =>
    cases p with
    | nil => exact False.elim h
    | cons x p => exact .inr ⟨x, p, rfl⟩
  | cons y q ih =>
    cases p with
    | nil => exact False.elim h
    | cons x p =>
      by_cases hxy : x = y
      · subst hxy
        rcases ih (h.resolve_left (by simp)) with happ | ⟨z, s, rfl⟩
        · exact .inl (.inr happ)
        · exact .inr ⟨z, s, rfl⟩
      · exact .inl (.inl hxy)

/-- A property of what is at a path that does not depend on what is further down. -/
def Shallow (φ : FileTree → Prop) : Prop := ∀ x r v t, φ t → φ (put (x :: r) v t)

theorem shallow_none : Shallow (· = none) := by
  rintro x r v _ rfl
  rfl

theorem shallow_isDirectory : Shallow (·.isDirectory = true) := by
  intro x r v t h
  rw [isDirectory_put]
  exact h

section Shallow

variable {φ : FileTree → Prop} {q : Path} {t : FileTree}

theorem put_shallow (hφ : Shallow φ) {p : Path} (hp : Clear p q) (v : FileTree)
    (h : φ (get q t)) : φ (get q (put p v t)) := by
  rcases hp with hp | ⟨x, r, rfl⟩
  · rw [get_put_apart hp]
    exact h
  · rw [get_put_append]
    exact hφ x r v _ h

theorem within_clear {d : Path} (hd : Clear d q) (s : Path) (t : FileTree) :
    Clear (within s d t) q := by
  unfold within
  split
  · exact hd.append_left [nameOf s]
  · exact hd

theorem makeDirectories_shallow (hφ : Shallow φ) {ps : List Path} (hps : ∀ p ∈ ps, Clear p q)
    (h : φ (get q t)) : φ (get q (makeDirectories ps t).2) := by
  induction ps generalizing t with
  | nil => exact h
  | cons p ps ih =>
    refine ih (fun p' hp' => hps p' (List.mem_cons_of_mem p hp')) ?_
    unfold makeDirectory
    split
    · exact put_shallow hφ (hps p List.mem_cons_self) _ h
    · exact h

theorem rename_shallow (hφ : Shallow φ) {s d : Path} (hs : Clear s q) (hd : Clear d q)
    (h : φ (get q t)) : φ (get q (rename s d t).2) := by
  unfold rename
  split
  · exact h
  · split
    · exact put_shallow hφ hd _ (put_shallow hφ hs none h)
    · exact h

/-- A command below a path, other than `mkdir -p`, keeps what does not depend on that. -/
theorem exec_shallow (hφ : Shallow φ) {o : Operation} (hclear : ∀ p ∈ o.touches, Clear p q)
    (hmkdirs : ∀ p, o ≠ .mkdirs p) (h : φ (get q t)) : φ (get q (o.exec t).2) := by
  cases o with
  | mkdir ps => exact makeDirectories_shallow hφ hclear h
  | mkdirs p => exact absurd rfl (hmkdirs p)
  | rmdir p =>
    simp only [exec]
    split
    · exact put_shallow hφ (hclear p List.mem_cons_self) none h
    · exact h
  | remove p =>
    simp only [exec]
    split
    · exact h
    · exact h
    · exact put_shallow hφ (hclear p List.mem_cons_self) none h
  | removeAll p => exact put_shallow hφ (hclear p List.mem_cons_self) none h
  | copy s d =>
    simp only [exec]
    split
    · exact h
    · split
      · exact put_shallow hφ (within_clear (hclear d List.mem_cons_self) s t) _ h
      · exact h
  | move s d =>
    have hd : Clear d q := hclear d (List.mem_cons_of_mem s List.mem_cons_self)
    exact rename_shallow hφ (hclear s List.mem_cons_self) (within_clear hd s t) h
  | replace s d =>
    exact rename_shallow hφ (hclear s List.mem_cons_self)
      (hclear d (List.mem_cons_of_mem s List.mem_cons_self)) h
  | write p c =>
    simp only [exec]
    split
    · exact h
    · exact put_shallow hφ (hclear p List.mem_cons_self) _ h
  | test holds => exact h
  | idle => exact h

/-- Above all it touches, a command leaves the directories. -/
theorem exec_isDirectory {o : Operation} (hclear : ∀ p ∈ o.touches, Clear p q)
    (h : (get q t).isDirectory = true) : (get q (o.exec t).2).isDirectory = true := by
  by_cases hmkdirs : ∃ p, o = .mkdirs p
  · obtain ⟨p, rfl⟩ := hmkdirs
    simp only [exec]
    split
    · exact h
    · split
      · rename_i t' he
        exact ensure_keeps he h
      · exact h
  · refine exec_shallow shallow_isDirectory hclear (fun p hp => hmkdirs ⟨p, hp⟩) h

/-- So does one that is cut off inside. -/
theorem torn_shallow (hφ : Shallow φ) {o : Operation} {left t' : FileTree}
    (hclear : ∀ p ∈ o.touches, Clear p q) (ht : o.Torn left t t') (h : φ (get q t)) :
    φ (get q t') := by
  cases o with
  | mkdir ps =>
    obtain ⟨ps', hps, rfl⟩ := ht
    exact makeDirectories_shallow hφ (fun p hp => hclear p (hps.subset hp)) h
  | removeAll p =>
    obtain ⟨-, rfl⟩ := ht
    exact put_shallow hφ (hclear p List.mem_cons_self) left h
  | copy s d =>
    obtain ⟨-, rfl⟩ := ht
    exact put_shallow hφ (within_clear (hclear d List.mem_cons_self) s t) left h
  | move s d =>
    have hs : Clear s q := hclear s List.mem_cons_self
    have hd : Clear (within s d t) q :=
      within_clear (hclear d (List.mem_cons_of_mem s List.mem_cons_self)) s t
    obtain ⟨-, -, -, rfl | rfl⟩ := ht
    · exact put_shallow hφ hd left h
    · exact put_shallow hφ hs left (put_shallow hφ hd _ h)
  | write p c =>
    obtain ⟨-, -, rfl⟩ := ht
    exact put_shallow hφ (hclear p List.mem_cons_self) left h
  | _ => cases ht

/-- And one that fails. -/
theorem spoil_shallow (hφ : Shallow φ) {o : Operation} (hclear : ∀ p ∈ o.touches, Clear p q)
    (left : FileTree) (h : φ (get q t)) : φ (get q (o.spoil left t)) := by
  cases o with
  | mkdir ps => exact makeDirectories_shallow hφ (fun p hp => hclear p (List.dropLast_subset ps hp)) h
  | removeAll p => exact put_shallow hφ (hclear p List.mem_cons_self) left h
  | copy s d => exact put_shallow hφ (within_clear (hclear d List.mem_cons_self) s t) left h
  | write p c => exact put_shallow hφ (hclear p List.mem_cons_self) left h
  | _ => exact h

end Shallow

end Operation

end OpenUI.Shell
