import Mathlib.Data.List.Basic

/-!
# `OpenUI.Shell.FileTree`: file trees

A tree is what a path leads to: nothing, a file, a symbolic link or a directory with its entries.
`get` reads what is at a path below it and `put` replaces it. What goes with a file besides its
bytes, such as its owner and its mode, counts as part of its content. A path is walked through
directories only, never through a link.

* `get_append`: a path is walked one part after the other.
* `get_put_append`: what is put below a path is put there.
* `get_put_child`, `get_put_none`: what was put is there, what was taken away is not.
* `get_put_apart`: paths that part from each other do not see each other.
-/

set_option autoImplicit false

namespace OpenUI.Shell

/-- A path from some directory down, one name after the other. -/
abbrev Path := List String

/-- What a name stands for. -/
inductive Node where
  | file (content : String)
  | link (target : String)
  | directory (entries : List (String × Node))
  deriving Repr

/-- What is at a path, if anything is. -/
abbrev FileTree := Option Node

namespace FileTree

/-- `-d`, of what is no link. -/
def isDirectory : FileTree → Bool
  | some (.directory _) => true
  | _ => false

/-- `-f`, of what is no link. -/
def isFile : FileTree → Bool
  | some (.file _) => true
  | _ => false

/-- `-L`. -/
def isLink : FileTree → Bool
  | some (.link _) => true
  | _ => false

@[simp] theorem isDirectory_directory (es : List (String × Node)) :
    isDirectory (some (.directory es)) = true := rfl

@[simp] theorem isDirectory_file (c : String) : isDirectory (some (.file c)) = false := rfl

@[simp] theorem isDirectory_link (l : String) : isDirectory (some (.link l)) = false := rfl

@[simp] theorem isDirectory_none : isDirectory none = false := rfl

@[simp] theorem isFile_file (c : String) : isFile (some (.file c)) = true := rfl

@[simp] theorem isFile_none : isFile none = false := rfl

@[simp] theorem isFile_directory (es : List (String × Node)) :
    isFile (some (.directory es)) = false := rfl

theorem isDirectory_iff {t : FileTree} : t.isDirectory = true ↔ ∃ es, t = some (.directory es) := by
  rcases t with _ | (_ | _ | es) <;> simp

/-! ### The entries of a directory -/

/-- A directory's entries with the name `x` set to what is given. -/
def setEntry (x : String) : FileTree → List (String × Node) → List (String × Node)
  | some n, es => (x, n) :: es.filter (·.1 ≠ x)
  | none, es => es.filter (·.1 ≠ x)

section
attribute [local simp] setEntry
end

theorem lookup_filter (x y : String) (es : List (String × Node)) :
    (es.filter (·.1 ≠ x)).lookup y = if y = x then none else es.lookup y := by
  induction es with
  | nil => simp
  | cons e es ih =>
    obtain ⟨z, n⟩ := e
    by_cases hz : z = x
    · rw [List.filter_cons_of_neg (by simp [hz]), ih]
      split
      · rfl
      · rename_i hy
        have : (y == z) = false := by simp [hz, hy]
        simp [List.lookup_cons, this]
    · rw [List.filter_cons_of_pos (by simp [hz])]
      simp only [List.lookup_cons, ih]
      by_cases hyz : y = z
      · subst hyz
        simp [hz]
      · have : (y == z) = false := by simp [hyz]
        simp [this]

@[simp] theorem lookup_setEntry_self (x : String) (t : FileTree) (es : List (String × Node)) :
    (setEntry x t es).lookup x = t := by
  cases t with
  | none => rw [setEntry, lookup_filter, if_pos rfl]
  | some n => simp [setEntry]

theorem lookup_setEntry_ne {x y : String} (h : y ≠ x) (t : FileTree) (es : List (String × Node)) :
    (setEntry x t es).lookup y = es.lookup y := by
  have hxy : (y == x) = false := by simp [h]
  cases t with
  | none => rw [setEntry, lookup_filter, if_neg h]
  | some n => rw [setEntry, List.lookup_cons, hxy, lookup_filter, if_neg h]

/-! ### Reading and writing at a path -/

/-- What is at a path. -/
def get : Path → FileTree → FileTree
  | [], t => t
  | x :: p, some (.directory es) => get p (es.lookup x)
  | _ :: _, _ => none

/-- The tree with something else at a path; the directories above it have to be there. -/
def put : Path → FileTree → FileTree → FileTree
  | [], v, _ => v
  | x :: p, v, some (.directory es) => some (.directory (setEntry x (put p v (es.lookup x)) es))
  | _ :: _, _, t => t

@[simp] theorem get_nil (t : FileTree) : get [] t = t := rfl

@[simp] theorem get_none (p : Path) : get p none = none := by
  cases p <;> rfl

@[simp] theorem get_cons (x : String) (p : Path) (es : List (String × Node)) :
    get (x :: p) (some (.directory es)) = get p (es.lookup x) := rfl

/-- What is below something that is no directory: nothing. -/
theorem get_cons_of_not_directory {x : String} {p : Path} {t : FileTree}
    (h : t.isDirectory = false) :
    get (x :: p) t = none := by
  rcases t with _ | (_ | _ | es)
  · rfl
  · rfl
  · rfl
  · simp at h

@[simp] theorem put_nil (v t : FileTree) : put [] v t = v := rfl

@[simp] theorem put_cons (x : String) (p : Path) (v : FileTree) (es : List (String × Node)) :
    put (x :: p) v (some (.directory es)) =
      some (.directory (setEntry x (put p v (es.lookup x)) es)) := rfl

theorem put_cons_of_not_directory {x : String} {p : Path} {v t : FileTree}
    (h : t.isDirectory = false) : put (x :: p) v t = t := by
  rcases t with _ | (_ | _ | es)
  · rfl
  · rfl
  · rfl
  · simp at h

/-- A path is walked one part after the other. -/
theorem get_append (p q : Path) (t : FileTree) : get (p ++ q) t = get q (get p t) := by
  induction p generalizing t with
  | nil => rfl
  | cons x p ih =>
    cases ht : t.isDirectory with
    | false => rw [List.cons_append, get_cons_of_not_directory ht, get_cons_of_not_directory ht,
        get_none]
    | true =>
      obtain ⟨es, rfl⟩ := isDirectory_iff.mp ht
      exact ih (es.lookup x)

/-- Where there is something further down, there is a directory. -/
theorem isDirectory_of_get {p : Path} {x : String} {t : FileTree} (h : get (p ++ [x]) t ≠ none) :
    (get p t).isDirectory = true := by
  by_contra hd
  rw [get_append] at h
  exact h (get_cons_of_not_directory (by simpa using hd))

/-- What is put below a path is put there. -/
theorem get_put_append (p : Path) (x : String) (q : Path) (v t : FileTree) :
    get p (put (p ++ x :: q) v t) = put (x :: q) v (get p t) := by
  induction p generalizing t with
  | nil => rfl
  | cons y p ih =>
    cases ht : t.isDirectory with
    | false => rw [List.cons_append, put_cons_of_not_directory ht, get_cons_of_not_directory ht,
        put_cons_of_not_directory isDirectory_none]
    | true =>
      obtain ⟨es, rfl⟩ := isDirectory_iff.mp ht
      rw [List.cons_append, put_cons, get_cons, get_cons, lookup_setEntry_self]
      exact ih (es.lookup y)

/-- A directory stays one, whatever is put below it. -/
theorem isDirectory_put (x : String) (q : Path) (v t : FileTree) :
    (put (x :: q) v t).isDirectory = t.isDirectory := by
  rcases t with _ | (_ | _ | es) <;> rfl

theorem isDirectory_get_put (p : Path) (x : String) (q : Path) (v t : FileTree) :
    (get p (put (p ++ x :: q) v t)).isDirectory = (get p t).isDirectory := by
  rw [get_put_append, isDirectory_put]

/-- What was put into a directory is there. -/
theorem get_put_child {p : Path} {x : String} {t : FileTree} (v : FileTree)
    (h : (get p t).isDirectory = true) : get (p ++ [x]) (put (p ++ [x]) v t) = v := by
  obtain ⟨es, hes⟩ := isDirectory_iff.mp h
  rw [get_append, get_put_append, hes]
  simp

/-- The same, of a path with a name at its end. -/
theorem get_put_self {p : Path} {t : FileTree} (v : FileTree) (hp : p ≠ [])
    (h : (get p.dropLast t).isDirectory = true) : get p (put p v t) = v := by
  have hlast : p.dropLast ++ [p.getLast hp] = p := List.dropLast_append_getLast hp
  rw [← hlast]
  exact get_put_child v h

/-- What was taken away is not there. -/
@[simp] theorem get_put_none (p : Path) (t : FileTree) : get p (put p none t) = none := by
  induction p generalizing t with
  | nil => rfl
  | cons x p ih =>
    cases ht : t.isDirectory with
    | false => rw [put_cons_of_not_directory ht, get_cons_of_not_directory ht]
    | true =>
      obtain ⟨es, rfl⟩ := isDirectory_iff.mp ht
      rw [put_cons, get_cons, lookup_setEntry_self]
      exact ih (es.lookup x)

/-! ### Paths that part from each other -/

/-- The paths differ at some name before either of them ends. -/
def Apart : Path → Path → Prop
  | x :: p, y :: q => x ≠ y ∨ Apart p q
  | _, _ => False

instance decidableApart : (p q : Path) → Decidable (Apart p q)
  | x :: p, y :: q => @instDecidableOr (x ≠ y) (Apart p q) _ (decidableApart p q)
  | [], _ => isFalse id
  | _ :: _, [] => isFalse id

@[simp] theorem apart_nil (p : Path) : Apart p [] = False := by
  cases p <;> rfl

@[simp] theorem nil_apart (p : Path) : Apart [] p = False := rfl

@[simp] theorem apart_cons (x y : String) (p q : Path) :
    Apart (x :: p) (y :: q) = (x ≠ y ∨ Apart p q) := rfl

theorem Apart.symm {p q : Path} (h : Apart p q) : Apart q p := by
  induction p generalizing q with
  | nil => simp at h
  | cons x p ih =>
    cases q with
    | nil => simp at h
    | cons y q => exact h.imp Ne.symm ih

/-- Below the same path, and apart from there on. -/
@[simp] theorem apart_append (p q q' : Path) : Apart (p ++ q) (p ++ q') = Apart q q' := by
  induction p with
  | nil => rfl
  | cons x p ih => simp [ih]

/-- Further down they stay apart. -/
theorem Apart.append_right {p q : Path} (h : Apart p q) (r : Path) : Apart p (q ++ r) := by
  induction p generalizing q with
  | nil => simp at h
  | cons x p ih =>
    cases q with
    | nil => simp at h
    | cons y q => exact h.imp id ih

theorem Apart.append_left {p q : Path} (h : Apart p q) (r : Path) : Apart (p ++ r) q :=
  (h.symm.append_right r).symm

/-- What is put at one of them is not seen at the other. -/
theorem get_put_apart {p q : Path} (h : Apart p q) (v t : FileTree) :
    get q (put p v t) = get q t := by
  induction p generalizing q t with
  | nil => simp at h
  | cons x p ih =>
    cases q with
    | nil => simp at h
    | cons y q =>
      cases ht : t.isDirectory with
      | false => rw [put_cons_of_not_directory ht]
      | true =>
        obtain ⟨es, rfl⟩ := isDirectory_iff.mp ht
        rw [put_cons, get_cons, get_cons]
        by_cases hxy : y = x
        · subst hxy
          rw [lookup_setEntry_self]
          exact ih (h.resolve_left (by simp)) _
        · rw [lookup_setEntry_ne hxy]

end FileTree

end OpenUI.Shell
