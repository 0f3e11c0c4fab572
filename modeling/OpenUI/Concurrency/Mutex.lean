import OpenUI.Concurrency.Machine

/-!
# `OpenUI.Concurrency.Mutex`: who holds a mutex

A mutex is a flag of the world; `p` says of a thread's context that it holds it. `Exclusive` is what
ties the two together, and the lemmas say how taking the mutex, giving it back and any other step
keep it.
-/

set_option autoImplicit false

namespace OpenUI.Concurrency

variable {C : Type}

/-- At most one thread holds the mutex, and none if it is free. -/
structure Exclusive (held : Bool) (p : C → Bool) (cs : List C) : Prop where
  free : held = false → ∀ c ∈ cs, p c = false
  once : cs.countP p ≤ 1

namespace Exclusive

variable {held : Bool} {p : C → Bool} {cs new : List C} {i : Nat} {c c' : C}

theorem nil : Exclusive false p ([] : List C) := ⟨fun _ _ h => absurd h List.not_mem_nil, by simp⟩

/-- A step that has nothing to do with the mutex. -/
theorem keep (h : Exclusive held p cs) (hc : cs[i]? = some c) (hsame : p c' = p c)
    (hnew : ∀ x ∈ new, p x = false) : Exclusive held p (cs.set i c' ++ new) where
  free hfree := Pool.forall_update (h.free hfree)
    (hsame.trans (h.free hfree c (List.mem_of_getElem? hc))) hnew
  once := by
    have hcount := Pool.countP_update p c' new hc
    have hnone : new.countP p = 0 := List.countP_eq_zero.mpr fun x hx => by simp [hnew x hx]
    have honce := h.once
    rw [hsame, hnone] at hcount
    omega

/-- New threads hold nothing. -/
theorem spawn (h : Exclusive held p cs) (hnew : ∀ x ∈ new, p x = false) :
    Exclusive held p (cs ++ new) where
  free hfree x hx := by
    rcases List.mem_append.mp hx with hx | hx
    · exact h.free hfree x hx
    · exact hnew x hx
  once := by
    have hnone : new.countP p = 0 := List.countP_eq_zero.mpr fun x hx => by simp [hnew x hx]
    rw [List.countP_append, hnone]
    exact h.once

/-- A new thread takes it from the start. -/
theorem enter (h : Exclusive false p cs) (c : C) : Exclusive true p (cs ++ [c]) where
  free hfree := by cases hfree
  once := by
    have hnone : cs.countP p = 0 := List.countP_eq_zero.mpr fun x hx => by simp [h.free rfl x hx]
    rw [List.countP_append, hnone, Nat.zero_add]
    exact List.countP_le_length

/-- A thread goes away. Whether it was the one that held it, the flag stays. -/
theorem leave (h : Exclusive held p cs) (hc : cs[i]? = some c) (hgone : p c' = false) :
    Exclusive held p (cs.set i c' ++ []) where
  free hfree := Pool.forall_update (h.free hfree) hgone (by simp)
  once := by
    have hcount := Pool.countP_update p c' [] hc
    have honce := h.once
    simp only [hgone, Bool.false_eq_true, if_false, List.countP_nil] at hcount
    omega

/-- A free mutex is taken. -/
theorem take (h : Exclusive false p cs) (hc : cs[i]? = some c) :
    Exclusive true p (cs.set i c' ++ []) where
  free hfree := by cases hfree
  once := by
    have hcount := Pool.countP_update p c' [] hc
    have hnone : cs.countP p = 0 := List.countP_eq_zero.mpr fun x hx => by simp [h.free rfl x hx]
    rw [hnone, List.countP_nil] at hcount
    split at hcount <;> split at hcount <;> omega

/-- The thread that holds it gives it back. -/
theorem release (h : Exclusive held p cs) (hc : cs[i]? = some c) (hold : p c = true)
    (hgone : p c' = false) : Exclusive false p (cs.set i c' ++ []) := by
  have hcount := Pool.countP_update p c' [] hc
  have honce := h.once
  rw [if_pos hold, if_neg (by simp [hgone]), List.countP_nil] at hcount
  have hnone : (cs.set i c' ++ []).countP p = 0 := by omega
  refine ⟨fun _ x hx => ?_, ?_⟩
  · simpa using List.countP_eq_zero.mp hnone x hx
  · omega

end Exclusive

end OpenUI.Concurrency
