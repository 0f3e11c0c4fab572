import OpenUI.Deploy.Transaction
import OpenUI.Proofs.Text

/-!
# `OpenUI.Proofs.Deploy.Paths`: the files of a transaction do not meet

The script works on four kinds of paths: the targets, the staged copies beside them, the markers of
the transactions' directory, and what is below one transaction. The commands on one of them leave
the others alone, since their paths part.

* `target_apart`, `target_base`: two targets, and a target and the transactions.
* `staged_target`, `staged_base`: the same for the staged copies.
* `name_injective`: the copies in a snapshot.

An id is never the name of a marker: the installer's ids are UUIDs (`Unmarked`).
-/

set_option autoImplicit false

namespace OpenUI.Deploy

open OpenUI.Shell OpenUI.Shell.FileTree

/-- The id is not the name of a file that the script keeps beside the transactions. -/
structure Unmarked (id : String) : Prop where
  lock : id ≠ "lock"
  active : id ≠ "active"
  activeNew : id ≠ "active.new"

/-- An id has no dots. -/
theorem Unmarked.of_valid {id : String} (hvalid : validId id = true) (hlock : id ≠ "lock")
    (hactive : id ≠ "active") : Unmarked id := by
  refine ⟨hlock, hactive, ?_⟩
  rintro rfl
  revert hvalid
  decide

/-- No target lies below another one, or below the transactions, nor they below it. -/
theorem targets_apart : ∀ t ∈ targets, (∀ t' ∈ targets, t = t' ∨ Apart t t') ∧ Apart t base := by
  decide +kernel

theorem target_apart {t t' : Target} (ht : t ∈ targets) (ht' : t' ∈ targets) (h : t ≠ t') :
    Apart t t' := ((targets_apart t ht).1 t' ht').resolve_left h

theorem target_base {t : Target} (ht : t ∈ targets) (q : Path) : Apart t (base ++ q) :=
  (targets_apart t ht).2.append_right q

theorem base_target {t : Target} (ht : t ∈ targets) (q : Path) : Apart (base ++ q) t :=
  (target_base ht q).symm

/-- A path with its first name below `p`, if it is below. -/
def nextName (p q : Path) : String := (q.drop p.length).headD ""

/-- The staged copy of the target has another name than the path, or lies elsewhere. -/
def stagedElsewhere (t q : Path) : Bool :=
  decide (Apart (above t) q) ||
    (decide (q = above t ++ nextName (above t) q :: q.drop (t.length)) &&
      !(nameOf t ++ ".restore-").toList.isPrefixOf (nextName (above t) q).toList)

theorem staged_elsewhere :
    (targets.all fun t => (base :: targets).all fun q => stagedElsewhere t q) = true := by
  simp only [stagedElsewhere, Text.toList_eq_asciiChars]
  decide +kernel

theorem staged_apart {t q : Path} (ht : t ∈ targets) (hq : q ∈ base :: targets) (id : String) :
    Apart (staged id t) q := by
  have h := List.all_eq_true.mp (List.all_eq_true.mp staged_elsewhere t ht) q hq
  simp only [stagedElsewhere, Bool.or_eq_true, decide_eq_true_eq, Bool.and_eq_true,
    Bool.not_eq_true'] at h
  rcases h with h | ⟨hq', hname⟩
  · exact h.append_left [nameOf t ++ ".restore-" ++ id]
  · rw [hq', staged, apart_append, apart_cons]
    left
    intro heq
    have hstart : (nameOf t ++ ".restore-").toList <+: (nextName (above t) q).toList := by
      have happend : (nameOf t ++ ".restore-" ++ id).toList =
          (nameOf t ++ ".restore-").toList ++ id.toList := String.toList_append
      rw [← heq, happend]
      exact List.prefix_append _ _
    rw [← List.isPrefixOf_iff_prefix] at hstart
    rw [hstart] at hname
    cases hname

theorem staged_target {t t' : Target} (ht : t ∈ targets) (ht' : t' ∈ targets) (id : String) :
    Apart (staged id t) t' := staged_apart ht (List.mem_cons_of_mem base ht') id

theorem staged_base {t : Target} (ht : t ∈ targets) (id : String) (q : Path) :
    Apart (staged id t) (base ++ q) := (staged_apart ht List.mem_cons_self id).append_right q

/-- Two targets have two names. -/
theorem name_injective : ∀ t ∈ targets, ∀ t' ∈ targets, name t = name t' → t = t' := by
  decide +kernel

/-- The name under which a directory is set aside is not that of another part of a transaction. -/
theorem failed_name : ∀ t ∈ targets,
    "failed-" ++ name t ∉ ["before", "present", "identity", "state"] := by
  decide +kernel

theorem failed_apart {t : Target} (ht : t ∈ targets) (id : String) {x : String}
    (hx : x ∈ ["before", "present", "identity", "state"]) (q : Path) :
    Apart (failed id t) (base ++ id :: x :: q) := by
  rw [failed, apart_append]
  simp only [apart_cons, ne_eq, not_true_eq_false, nil_apart, or_false, false_or]
  intro heq
  exact failed_name t ht (heq ▸ hx)

end OpenUI.Deploy
