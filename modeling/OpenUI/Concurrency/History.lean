import Mathlib.Data.List.Count

/-!
# `OpenUI.Concurrency.History`: what a record of a run says

A run that notes what it does, the latest first, leaves a list. `Each φ` says that every note stood
in the relation `φ` to the notes that were there when it was made. It is kept note by note, so an
invariant of single steps becomes a statement about whole histories.

* `each_append`: several notes at once.
* `Each.at`: what it says of one note.
-/

set_option autoImplicit false

universe u

namespace OpenUI.Concurrency

variable {N : Type u}

/-- Every note stood in this relation to the notes before it. -/
def Each (φ : N → List N → Prop) : List N → Prop
  | [] => True
  | n :: earlier => φ n earlier ∧ Each φ earlier

variable {φ : N → List N → Prop}

theorem Each.cons {n : N} {earlier : List N} (h : Each φ earlier) (hn : φ n earlier) :
    Each φ (n :: earlier) := ⟨hn, h⟩

theorem each_append {later earlier : List N} :
    Each φ (later ++ earlier) ↔ Each (fun n before => φ n (before ++ earlier)) later ∧
      Each φ earlier := by
  induction later with
  | nil => simp [Each]
  | cons n later ih =>
    rw [List.cons_append, Each, ih, Each, and_assoc]

/-- What holds of a note and the ones before it. -/
theorem Each.at {later earlier : List N} {n : N} (h : Each φ (later ++ n :: earlier)) :
    φ n earlier := (each_append.mp h).2.1

end OpenUI.Concurrency
