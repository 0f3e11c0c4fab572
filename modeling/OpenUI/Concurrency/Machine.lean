import Mathlib.Data.List.Count
import Mathlib.Data.List.Perm.Basic
import OpenUI.Concurrency.Program

/-!
# `OpenUI.Concurrency.Machine`: thread pools, runs and the invariant rule

A `Machine` gives the actions of a program their meaning on a shared world: `exec` runs one
action to its result, `spawns` names the threads an action starts, `body` is the program of each
thread, and `occur` is what happens from outside (a request arrives, the process dies). The
scheduler is the list of events of a run, so a theorem about every run is a theorem about every
interleaving.

Every thread carries a context `C`. It is a history variable: `after` computes it from the
actions the thread performed, and no action reads it to decide what to do to the world other
than to note it. Theorems use it to say where a thread stands.

* `Machine.sound` is the invariant rule. If every thread body keeps a discipline and every
  action that keeps the discipline keeps `I`, then `I` holds in every state of every run.
* `Machine.sound_relative` proves a further invariant on top of one already established.
* The `Pool` lemmas say what one step does to the list of contexts.
-/

set_option autoImplicit false

universe u

namespace OpenUI.Concurrency

/-- What a program does when it returns: it ends, or goes on with another thread body (a loop
goes on with itself). -/
inductive Next (B : Type) where
  | stop
  | goto (b : B)

/-- A live or ended thread. -/
structure Thread (A : Type → Type u) (C B : Type) where
  ctx : C
  prog : Program A (Next B)

/-- The shared world and the threads, in the order they were started. -/
structure State (A : Type → Type u) (C W B : Type) where
  world : W
  threads : List (Thread A C B)

/-- The contexts of a state's threads. -/
def State.ctxs {A : Type → Type u} {C W B : Type} (s : State A C W B) : List C :=
  s.threads.map Thread.ctx

/-- One turn: thread `i` runs, with the environment's answer `e`, or `x` happens outside. -/
inductive Event (E X : Type) where
  | thread (i : Nat) (e : E)
  | outside (x : X)

/-- What an outside event does: the world after it, whether every thread is lost, and the
threads it starts. -/
structure Occurrence (C W B : Type) where
  world : W
  kill : Bool
  starts : List (B × C)

/-- The meaning of a family of actions. -/
structure Machine (A : Type → Type u) (C W B E X : Type) where
  exec : {β : Type} → A β → C → E → W → Option (β × W)
  after : {β : Type} → C → A β → β → W → C
  spawns : {β : Type} → C → A β → β → List (B × C)
  body : B → Program A (Next B)
  occur : X → W → Option (Occurrence C W B)

variable {A : Type → Type u} {C W B E X : Type}

namespace Machine

variable (M : Machine A C W B E X)

/-- A new thread at the start of its body. -/
def start (bc : B × C) : Thread A C B := ⟨bc.2, M.body bc.1⟩

/-- Thread `t` at place `i` takes its turn. `none` when the action is not enabled, or the thread
has ended. -/
def turn (s : State A C W B) (i : Nat) (t : Thread A C B) (e : E) : Option (State A C W B) :=
  match t.prog with
  | .pure .stop => none
  | .pure (.goto b) => some { s with threads := s.threads.set i ⟨t.ctx, M.body b⟩ }
  | .act a k =>
    match M.exec a t.ctx e s.world with
    | none => none
    | some (r, w) =>
      some ⟨w, s.threads.set i ⟨M.after t.ctx a r s.world, k r⟩
        ++ (M.spawns t.ctx a r).map M.start⟩

/-- One event of a run. -/
def step (s : State A C W B) : Event E X → Option (State A C W B)
  | .thread i e =>
    match s.threads[i]? with
    | none => none
    | some t => M.turn s i t e
  | .outside x =>
    match M.occur x s.world with
    | none => none
    | some o => some ⟨o.world, (if o.kill then [] else s.threads) ++ o.starts.map M.start⟩

end Machine

/-- A condition on the steps of a run: on the action about to be performed, in the state before
it, and on the events from outside. -/
structure Condition (A : Type → Type u) (C W E X : Type) where
  act : {β : Type} → W → List C → C → A β → E → Bool
  outside : W → X → Bool

namespace Condition

/-- No condition at all. -/
def any : Condition A C W E X := ⟨fun _ _ _ _ _ => true, fun _ _ => true⟩

/-- The condition holds of the event `ev` in the state `s`. -/
def check (K : Condition A C W E X) (s : State A C W B) : Event E X → Bool
  | .thread i e => match s.threads[i]? with
    | none => true
    | some t => match t.prog with
      | .pure _ => true
      | .act a _ => K.act s.world s.ctxs t.ctx a e
  | .outside x => K.outside s.world x

end Condition

namespace Machine

variable (M : Machine A C W B E X)

/-- `M.Run K s₀ s`: some run from `s₀`, all of whose steps meet `K`, ends in `s`. -/
inductive Run (K : Condition A C W E X) (s₀ : State A C W B) : State A C W B → Prop where
  | refl : Run K s₀ s₀
  | step {s s' : State A C W B} (ev : Event E X) (h : Run K s₀ s) (hK : K.check s ev = true)
      (hs : M.step s ev = some s') : Run K s₀ s'

/-- A list of events, one after another, as long as they meet `K`. -/
def run (K : Condition A C W E X) : State A C W B → List (Event E X) → Option (State A C W B)
  | s, [] => some s
  | s, ev :: evs => if K.check s ev then (M.step s ev).bind fun s' => run K s' evs else none

variable {M}

/-- An executed list of events is a run. -/
theorem Run.of_run {K : Condition A C W E X} {s₀ s s' : State A C W B} {evs : List (Event E X)}
    (h : M.Run K s₀ s) (he : M.run K s evs = some s') : M.Run K s₀ s' := by
  induction evs generalizing s with
  | nil => cases he; exact h
  | cons ev evs ih =>
      rw [run] at he
      split at he
      · rename_i hK
        obtain ⟨s₁, h₁, h₂⟩ := Option.bind_eq_some_iff.mp he
        exact ih (.step ev h hK h₁) h₂
      · cases he

/-- A property of the state a list of events leads to holds in some state of some run. -/
theorem Run.exists_of_run {K : Condition A C W E X} {s₀ : State A C W B}
    {evs : List (Event E X)} {p : State A C W B → Bool} (h : (M.run K s₀ evs).any p = true) :
    ∃ s, M.Run K s₀ s ∧ p s = true := by
  rw [Option.any_eq_true] at h
  obtain ⟨s, hs, hp⟩ := h
  exact ⟨s, .of_run .refl hs, hp⟩

/-- What one step is: a thread goes on with another body, a thread performs an action, or
something happens outside. -/
inductive StepCase (M : Machine A C W B E X) (s : State A C W B) :
    Event E X → State A C W B → Prop where
  | goto {i : Nat} {e : E} {t : Thread A C B} {b : B} (ht : s.threads[i]? = some t)
      (hp : t.prog = .pure (.goto b)) :
      StepCase M s (.thread i e) { s with threads := s.threads.set i ⟨t.ctx, M.body b⟩ }
  | act {i : Nat} {e : E} {t : Thread A C B} {β : Type} {a : A β}
      {k : β → Program A (Next B)} {r : β} {w : W} (ht : s.threads[i]? = some t)
      (hp : t.prog = .act a k) (he : M.exec a t.ctx e s.world = some (r, w)) :
      StepCase M s (.thread i e) ⟨w, s.threads.set i ⟨M.after t.ctx a r s.world, k r⟩
        ++ (M.spawns t.ctx a r).map M.start⟩
  | outside {x : X} {o : Occurrence C W B} (ho : M.occur x s.world = some o) :
      StepCase M s (.outside x)
        ⟨o.world, (if o.kill then [] else s.threads) ++ o.starts.map M.start⟩

theorem step_cases {s s' : State A C W B} {ev : Event E X} (h : M.step s ev = some s') :
    StepCase M s ev s' := by
  cases ev with
  | outside x =>
      simp only [step] at h
      split at h
      · cases h
      · rename_i o ho
        cases h
        exact .outside ho
  | thread i e =>
      simp only [step] at h
      split at h
      · cases h
      · rename_i t ht
        unfold turn at h
        split at h
        · cases h
        · rename_i b hp
          cases h
          exact .goto ht hp
        · rename_i β a k hp
          split at h
          · cases h
          · rename_i r w he
            cases h
            exact .act ht hp he

end Machine

/-! ### One step and the list of contexts -/

namespace Pool

variable {l new : List C} {i : Nat} {c c' : C}

/-- A context after a step is the acting thread's, another thread's as it was, or a new one. -/
theorem mem_update {x : C} (h : x ∈ l.set i c' ++ new) :
    x = c' ∨ (∃ j, j ≠ i ∧ l[j]? = some x) ∨ x ∈ new := by
  rcases List.mem_append.mp h with h | h
  · obtain ⟨j, hj⟩ := List.mem_iff_getElem?.mp h
    rw [List.getElem?_set] at hj
    split at hj
    · split at hj
      · cases hj; exact .inl rfl
      · cases hj
    · exact .inr (.inl ⟨j, fun h => by simp_all, hj⟩)
  · exact .inr (.inr h)

/-- A property of every context survives a step when the acting thread and the new threads have
it. -/
theorem forall_update {P : C → Prop} (hl : ∀ x ∈ l, P x) (hc : P c')
    (hnew : ∀ x ∈ new, P x) : ∀ x ∈ l.set i c' ++ new, P x := by
  intro x hx
  rcases mem_update hx with rfl | ⟨j, _, hj⟩ | hx
  · exact hc
  · exact hl x (List.mem_of_getElem? hj)
  · exact hnew x hx

/-- A step that changes no context changes nothing. -/
theorem set_self (h : l[i]? = some c) : l.set i c ++ [] = l := by
  obtain ⟨hi, rfl⟩ := List.getElem?_eq_some_iff.mp h
  rw [List.append_nil, List.set_getElem_self]

/-- The acting thread's context after the step is there. -/
theorem self_mem (h : l[i]? = some c) : c' ∈ l.set i c' ++ new := by
  refine List.mem_append_left _ (List.mem_of_getElem? (i := i) ?_)
  rw [List.getElem?_set_self (List.getElem?_eq_some_iff.mp h).1]

/-- Another thread's context is still there. -/
theorem other_mem {x : C} {j : Nat} (hj : j ≠ i) (h : l[j]? = some x) :
    x ∈ l.set i c' ++ new := by
  refine List.mem_append_left _ (List.mem_of_getElem? (i := j) ?_)
  rw [List.getElem?_set_ne hj.symm]
  exact h

/-- A context with a property is still found, when the acting thread does not lose it. -/
theorem exists_update {P : C → Prop} (h : l[i]? = some c) (hkeep : P c → P c')
    (hex : ∃ x ∈ l, P x) : ∃ x ∈ l.set i c' ++ new, P x := by
  obtain ⟨x, hx, hp⟩ := hex
  obtain ⟨j, hj⟩ := List.mem_iff_getElem?.mp hx
  by_cases hij : j = i
  · subst hij
    obtain rfl : c = x := Option.some.inj (h.symm.trans hj)
    exact ⟨c', self_mem h, hkeep hp⟩
  · exact ⟨x, other_mem hij hj, hp⟩

/-- The census of a step: the acting thread leaves its old column and enters its new one. -/
theorem countP_update (p : C → Bool) (c' : C) (new : List C) (h : l[i]? = some c) :
    (l.set i c' ++ new).countP p + (if p c then 1 else 0)
      = l.countP p + (if p c' then 1 else 0) + new.countP p := by
  obtain ⟨hi, hc⟩ := List.getElem?_eq_some_iff.mp h
  rw [List.countP_append, List.countP_set hi, hc]
  have hpos : p c = true → 0 < l.countP p := fun hp =>
    List.countP_pos_iff.mpr ⟨c, List.mem_of_getElem? h, hp⟩
  split
  · have := hpos ‹_›; omega
  · omega

/-- When `c` is the only context with `p`, no other thread has it. -/
theorem others_not {p : C → Bool} (hle : l.countP p ≤ 1) (h : l[i]? = some c) (hp : p c = true)
    {j : Nat} {x : C} (hj : j ≠ i) (hx : l[j]? = some x) : p x = false := by
  by_contra hne
  have hpx : p x = true := by simpa using hne
  obtain ⟨hi, hc⟩ := List.getElem?_eq_some_iff.mp h
  have hset : ((l.eraseIdx i).countP p) + 1 = l.countP p := by
    have := (List.getElem_cons_eraseIdx_perm hi).countP_eq p
    rw [← this, List.countP_cons, hc, if_pos hp]
  have hmem : x ∈ l.eraseIdx i := by
    rw [List.mem_eraseIdx_iff_getElem?]
    exact ⟨j, hj, hx⟩
  have := List.countP_pos_iff.mpr ⟨x, hmem, hpx⟩
  omega

/-- With no context in `p`, the acting thread is not in `p` either. -/
theorem not_of_countP_eq_zero {p : C → Bool} (h0 : l.countP p = 0) {x : C} (hx : x ∈ l) :
    p x = false := by
  have := List.countP_eq_zero.mp h0 x hx
  simpa using this

end Pool

/-! ### The invariant rule -/

namespace Machine

/-- Threads just started have the contexts they were started with. -/
theorem ctxs_start (M : Machine A C W B E X) (bcs : List (B × C)) :
    (bcs.map M.start).map Thread.ctx = bcs.map Prod.snd := by
  rw [List.map_map]
  rfl

/-- A thread that goes on with another body keeps its context. -/
theorem ctxs_goto {s : State A C W B} {i : Nat} {t : Thread A C B} (ht : s.threads[i]? = some t)
    (p : Program A (Next B)) : (s.threads.set i ⟨t.ctx, p⟩).map Thread.ctx = s.ctxs := by
  obtain ⟨hi, hti⟩ := List.getElem?_eq_some_iff.mp ht
  rw [List.map_set, State.ctxs]
  refine List.ext_getElem? fun j => ?_
  rw [List.getElem?_set]
  split
  · subst ‹i = j›
    simp [hi, hti]
  · rfl

/-- A thread's context stands at the thread's place. -/
theorem ctxs_getElem? {s : State A C W B} {i : Nat} {t : Thread A C B}
    (ht : s.threads[i]? = some t) : s.ctxs[i]? = some t.ctx := by
  rw [State.ctxs, List.getElem?_map, ht]
  rfl

/-- The condition on a step, read at the action the thread is about to perform. -/
theorem check_act {K : Condition A C W E X} {s : State A C W B} {i : Nat} {e : E}
    {t : Thread A C B} {β : Type} {a : A β} {k : β → Program A (Next B)}
    (hK : K.check s (.thread i e) = true) (ht : s.threads[i]? = some t) (hp : t.prog = .act a k) :
    K.act s.world s.ctxs t.ctx a e = true := by
  simpa only [Condition.check, ht, hp] using hK

/-- A discipline for a machine's threads: what a body needs of its context at the start, and what
the context must be when a thread ends. -/
structure Regime (M : Machine A C W B E X) where
  ok : {β : Type} → C → A β → Prop
  facts : {β : Type} → C → A β → β → Prop
  pre : B → C → Prop
  fin : C → Prop

namespace Regime

variable {M : Machine A C W B E X} (R : M.Regime)

/-- The discipline of a regime. Contexts move as in the machine. -/
def discipline : Discipline A C W := ⟨R.ok, R.facts, M.after⟩

/-- A thread that returns may end, or go on with a body whose precondition it meets. -/
def ends (c : C) : Next B → Prop
  | .stop => R.fin c
  | .goto b => R.pre b c

/-- The rest of the thread's program keeps the discipline. -/
def Keeps (t : Thread A C B) : Prop := R.discipline.wp t.prog R.ends t.ctx

/-- A thread about to perform an action is allowed to, and keeps the regime after it. -/
theorem keeps_act {R : M.Regime} {t : Thread A C B} {β : Type} {a : A β}
    {k : β → Program A (Next B)} (h : R.Keeps t) (hp : t.prog = .act a k) :
    R.ok t.ctx a ∧ ∀ r w, R.facts t.ctx a r → R.Keeps ⟨M.after t.ctx a r w, k r⟩ := by
  rw [Keeps, hp] at h
  exact h

/-- Every thread body keeps the discipline from its precondition on. -/
def Bodies : Prop := ∀ b, R.discipline.Triple (R.pre b) (M.body b) R.ends

end Regime

variable {M : Machine A C W B E X}

/-- **The invariant rule.** Suppose every thread body keeps the regime. Suppose every action that
the regime allows keeps `I`, returns what the regime promises, and starts threads only in their
preconditions; and so does every event from outside. Then `I` holds in every state of every run,
and the rest of every thread's program keeps the regime. -/
theorem sound (R : M.Regime) {K : Condition A C W E X} {I : W → List C → Prop}
    (hbody : R.Bodies)
    (hact : ∀ {β : Type} {w w' : W} {cs : List C} {i : Nat} {c : C} {a : A β} {e : E} {r : β},
      I w cs → cs[i]? = some c → R.ok c a → K.act w cs c a e → M.exec a c e w = some (r, w') →
        R.facts c a r ∧ (∀ bc ∈ M.spawns c a r, R.pre bc.1 bc.2) ∧
        I w' (cs.set i (M.after c a r w) ++ (M.spawns c a r).map Prod.snd))
    (hout : ∀ {w : W} {cs : List C} {x : X} {o : Occurrence C W B},
      I w cs → K.outside w x → M.occur x w = some o →
        (∀ bc ∈ o.starts, R.pre bc.1 bc.2) ∧
        I o.world ((if o.kill then [] else cs) ++ o.starts.map Prod.snd))
    {s₀ s : State A C W B} (hI : I s₀.world s₀.ctxs) (hkeeps : ∀ t ∈ s₀.threads, R.Keeps t)
    (h : M.Run K s₀ s) : I s.world s.ctxs ∧ ∀ t ∈ s.threads, R.Keeps t := by
  have hstart : ∀ bcs : List (B × C), (∀ bc ∈ bcs, R.pre bc.1 bc.2) →
      ∀ t ∈ bcs.map M.start, R.Keeps t := by
    intro bcs hpre t ht
    obtain ⟨bc, hbc, rfl⟩ := List.mem_map.mp ht
    exact hbody bc.1 bc.2 (hpre bc hbc)
  induction h with
  | refl => exact ⟨hI, hkeeps⟩
  | @step s s' ev _ hK hs ih =>
      obtain ⟨hIs, hks⟩ := ih
      cases step_cases hs with
      | @goto i e t b ht hp =>
          have hkt : R.pre b t.ctx := by
            have := hks t (List.mem_of_getElem? ht)
            rw [Regime.Keeps, hp] at this
            exact this
          refine ⟨?_, ?_⟩
          · show I s.world ((s.threads.set i _).map Thread.ctx)
            rw [ctxs_goto ht]
            exact hIs
          · intro t' ht'
            rcases List.mem_or_eq_of_mem_set ht' with h | rfl
            · exact hks t' h
            · exact hbody b t.ctx hkt
      | @act i e t β a k r w ht hp he =>
          obtain ⟨hok, hrest⟩ := Regime.keeps_act (hks t (List.mem_of_getElem? ht)) hp
          obtain ⟨hfacts, hspawn, hI'⟩ := hact hIs (ctxs_getElem? ht) hok (check_act hK ht hp) he
          refine ⟨?_, ?_⟩
          · show I w (List.map Thread.ctx (_ ++ _))
            rw [List.map_append, List.map_set, ctxs_start]
            exact hI'
          · intro t' ht'
            rcases List.mem_append.mp ht' with h | h
            · rcases List.mem_or_eq_of_mem_set h with h | rfl
              · exact hks t' h
              · exact hrest r s.world hfacts
            · exact hstart _ hspawn t' h
      | @outside x o ho =>
          obtain ⟨hspawn, hI'⟩ := hout hIs hK ho
          refine ⟨?_, ?_⟩
          · show I o.world (List.map Thread.ctx (_ ++ _))
            rw [List.map_append, ctxs_start]
            cases hk : o.kill <;> rw [hk] at hI' <;> exact hI'
          · intro t' ht'
            rcases List.mem_append.mp ht' with h | h
            · cases hk : o.kill <;> rw [hk] at h
              · exact hks t' h
              · cases h
            · exact hstart _ hspawn t' h

/-- The invariant rule on top of an established invariant. `G` and the regime already hold in
every state of every run; `J` needs only to be kept by the allowed actions of states in `G`. -/
theorem sound_relative (R : M.Regime) {K : Condition A C W E X} {G J : W → List C → Prop}
    {s₀ s : State A C W B}
    (hG : ∀ {s}, M.Run K s₀ s → G s.world s.ctxs ∧ ∀ t ∈ s.threads, R.Keeps t)
    (hact : ∀ {β : Type} {w w' : W} {cs : List C} {i : Nat} {c : C} {a : A β} {e : E} {r : β},
      G w cs → J w cs → cs[i]? = some c → R.ok c a → K.act w cs c a e →
        M.exec a c e w = some (r, w') →
        J w' (cs.set i (M.after c a r w) ++ (M.spawns c a r).map Prod.snd))
    (hout : ∀ {w : W} {cs : List C} {x : X} {o : Occurrence C W B},
      G w cs → J w cs → K.outside w x → M.occur x w = some o →
        J o.world ((if o.kill then [] else cs) ++ o.starts.map Prod.snd))
    (hJ : J s₀.world s₀.ctxs) (h : M.Run K s₀ s) : J s.world s.ctxs := by
  induction h with
  | refl => exact hJ
  | @step s s' ev hrun hK hs ih =>
      obtain ⟨hGs, hks⟩ := hG hrun
      cases step_cases hs with
      | @goto i e t b ht hp =>
          show J s.world ((s.threads.set i _).map Thread.ctx)
          rw [ctxs_goto ht]
          exact ih
      | @act i e t β a k r w ht hp he =>
          have hok := (Regime.keeps_act (hks t (List.mem_of_getElem? ht)) hp).1
          show J w (List.map Thread.ctx (_ ++ _))
          rw [List.map_append, List.map_set, ctxs_start]
          exact hact hGs ih (ctxs_getElem? ht) hok (check_act hK ht hp) he
      | @outside x o ho =>
          show J o.world (List.map Thread.ctx (_ ++ _))
          rw [List.map_append, ctxs_start]
          have := hout hGs ih hK ho
          cases hk : o.kill <;> rw [hk] at this <;> exact this

end Machine

end OpenUI.Concurrency
