import Mathlib.Data.List.ReduceOption

/-!
# `OpenUI.Attempts`: steps that are all tried

A sequence of steps that goes on to its end whatever fails: each is tried on the state that the one
before it left, and the errors are collected. `Bench` is a state that keeps a record of what was
done on it, and a step on it may do as it likes with the number of the steps before
it.

* `attempts_act`: the errors, the state and the record of a sequence on a bench.
* `succeeds_iff`: when no step of a sequence fails, and what it leaves then.
* `ending_frame`: what a sequence does not touch.
-/

set_option autoImplicit false

namespace OpenUI.Attempts

variable {ε σ τ α β ι : Type}

/-- The error of a result. -/
def error? : Except ε α → Option ε
  | .ok _ => none
  | .error e => some e

/-- One more step: its error joins those before. -/
def attempt (tried : List ε × σ) (step : σ → Except ε Unit × σ) : List ε × σ :=
  (tried.1 ++ (error? (step tried.2).1).toList, (step tried.2).2)

/-- All of them. -/
def attempts (steps : List (σ → Except ε Unit × σ)) (tried : List ε × σ) : List ε × σ :=
  steps.foldl attempt tried

/-- A sequence with one step in its middle. -/
theorem attempts_append_cons (first second : List (σ → Except ε Unit × σ))
    (step : σ → Except ε Unit × σ) (tried : List ε × σ) :
    attempts (first ++ step :: second) tried =
      attempts second (attempt (attempts first tried) step) := by
  simp only [attempts, List.foldl_append, List.foldl_cons]

/-- A state, and what was done on it: each action with its error. -/
structure Bench (α ε σ : Type) where
  state : σ
  log : List (α × Option ε)

/-- An action on a bench, which may go by its number. -/
def act (action : α) (op : Nat → σ → Except ε β × σ) (b : Bench α ε σ) :
    Except ε β × Bench α ε σ :=
  let answer := op b.log.length b.state
  (answer.1, { state := answer.2, log := b.log ++ [(action, error? answer.1)] })

section Numbered

variable (op : ι → Nat → σ → Except ε Unit × σ)

/-- The state after operations that are numbered from `n` on. -/
def ending : List ι → Nat → σ → σ
  | [], _, s => s
  | i :: rest, n, s => ending rest (n + 1) (op i n s).2

section
attribute [local simp] ending
end

/-- The error of each. -/
def outcomes : List ι → Nat → σ → List (Option ε)
  | [], _, _ => []
  | i :: rest, n, s => error? (op i n s).1 :: outcomes rest (n + 1) (op i n s).2

section
attribute [local simp] outcomes
end

/-- None of them fails. -/
def Succeeds (items : List ι) (n : Nat) (s : σ) : Prop := ∀ r ∈ outcomes op items n s, r = none

/-- `Succeeds`, one operation after the other. -/
theorem succeeds_cons (i : ι) (rest : List ι) (n : Nat) (s : σ) :
    Succeeds op (i :: rest) n s ↔
      error? (op i n s).1 = none ∧ Succeeds op rest (n + 1) (op i n s).2 := by
  simp only [Succeeds, outcomes, List.mem_cons, forall_eq_or_imp]

/-- `Succeeds` of one operation. -/
theorem succeeds_singleton (i : ι) (n : Nat) (s : σ) :
    Succeeds op [i] n s ↔ error? (op i n s).1 = none := by
  rw [succeeds_cons]
  exact and_iff_left (by rintro r ⟨⟩)

@[simp] theorem length_outcomes (items : List ι) (n : Nat) (s : σ) :
    (outcomes op items n s).length = items.length := by
  induction items generalizing n s with
  | nil => rfl
  | cons i rest ih => rw [outcomes, List.length_cons, List.length_cons, ih]

/-- What was tried of numbered operations on a bench. -/
theorem attempts_act (name : ι → α) (items : List ι) (errors : List ε) (b : Bench α ε σ) :
    attempts (items.map fun i => act (name i) (op i)) (errors, b) =
      (errors ++ (outcomes op items b.log.length b.state).reduceOption,
        { state := ending op items b.log.length b.state
          log := b.log ++ (items.map name).zip (outcomes op items b.log.length b.state) }) := by
  induction items generalizing errors b with
  | nil =>
    simp only [attempts, List.map_nil, List.foldl_nil, outcomes, ending, List.zip_nil_left,
      List.append_nil, List.reduceOption_nil]
  | cons i rest ih =>
    have hnext : attempts ((i :: rest).map fun i => act (name i) (op i)) (errors, b) =
        attempts (rest.map fun i => act (name i) (op i))
          (errors ++ (error? (op i b.log.length b.state).1).toList,
            { state := (op i b.log.length b.state).2
              log := b.log ++ [(name i, error? (op i b.log.length b.state).1)] }) := rfl
    rw [hnext, ih]
    simp only [List.length_append, List.length_singleton, outcomes, ending, List.map_cons,
      List.zip_cons_cons, List.append_assoc, List.singleton_append]
    cases error? (op i b.log.length b.state).1 with
    | none => rfl
    | some e => rfl

/-- No error is collected when no operation fails. -/
theorem reduceOption_outcomes_eq_nil (items : List ι) (n : Nat) (s : σ) :
    (outcomes op items n s).reduceOption = [] ↔ Succeeds op items n s := by
  rw [List.reduceOption, List.filterMap_eq_nil_iff]
  rfl

/-- Two sequences, one after the other. -/
theorem succeeds_append (first second : List ι) (n : Nat) (s : σ) :
    Succeeds op (first ++ second) n s ↔
      Succeeds op first n s ∧
        Succeeds op second (n + first.length) (ending op first n s) := by
  induction first generalizing n s with
  | nil => simp only [Succeeds, List.nil_append, outcomes, ending, List.length_nil, Nat.add_zero,
      List.not_mem_nil, false_implies, implies_true, true_and]
  | cons i rest ih =>
    rw [List.cons_append, succeeds_cons, succeeds_cons, ih, and_assoc, ending, List.length_cons,
      Nat.add_right_comm, Nat.add_assoc]

/-- What they leave. -/
theorem ending_append (first second : List ι) (n : Nat) (s : σ) :
    ending op (first ++ second) n s =
      ending op second (n + first.length) (ending op first n s) := by
  induction first generalizing n s with
  | nil => rfl
  | cons i rest ih =>
    rw [List.cons_append, ending, ih, ending, List.length_cons, Nat.add_right_comm, Nat.add_assoc]

/-- The rule for a sequence: when it succeeds, and what it leaves then. `Inv` is what the state
says about the operations that are still to come; whether one of them succeeds goes by that and its
number alone. -/
theorem succeeds_iff (name : α → ι) (Inv : List α → σ → Prop) (good : ι → Nat → Prop)
    (hgood : ∀ a rest n s, Inv (a :: rest) s →
      (error? (op (name a) n s).1 = none ↔ good (name a) n))
    (hstep : ∀ a rest n s, Inv (a :: rest) s → error? (op (name a) n s).1 = none →
      Inv rest (op (name a) n s).2)
    (items : List α) (n : Nat) (s : σ) (hinv : Inv items s) :
    (Succeeds op (items.map name) n s ↔ ∀ p ∈ (items.map name).zipIdx n, good p.1 p.2) ∧
      (Succeeds op (items.map name) n s → Inv [] (ending op (items.map name) n s)) := by
  induction items generalizing n s with
  | nil =>
    refine ⟨?_, fun _ => hinv⟩
    simp only [Succeeds, List.map_nil, outcomes, List.zipIdx_nil, List.not_mem_nil, false_implies,
      implies_true]
  | cons a rest ih =>
    have hrest := fun hok => ih (n + 1) _ (hstep a rest n s hinv hok)
    rw [List.map_cons, succeeds_cons, List.zipIdx_cons, List.forall_mem_cons,
      ← hgood a rest n s hinv]
    exact ⟨and_congr_right fun hok => (hrest hok).1, fun h => (hrest h.1).2 h.2⟩

/-- What no operation touches. -/
theorem ending_frame (part : σ → τ) (items : List ι)
    (hstep : ∀ i ∈ items, ∀ n s, part (op i n s).2 = part s) (n : Nat) (s : σ) :
    part (ending op items n s) = part s := by
  induction items generalizing n s with
  | nil => rfl
  | cons i rest ih =>
    rw [ending, ih fun j hj => hstep j (List.mem_cons_of_mem _ hj),
      hstep i List.mem_cons_self]

end Numbered

end OpenUI.Attempts
