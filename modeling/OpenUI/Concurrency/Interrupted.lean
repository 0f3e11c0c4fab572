import OpenUI.Concurrency.Program

/-!
# `OpenUI.Concurrency.Interrupted`: programs that may be cut off

A program runs on a state that outlives it, and the process may die between any two of its actions.
`Program.play` runs a program on a list of the environment's answers, one for each action; when the
list ends early, the program is cut off there and only the state is left.

`Program.Upholds` is the weakest precondition for this: an invariant that holds before and after
every action, whatever the answers, and a postcondition where the program returns.

* `Upholds.bind`, `Upholds.act`: one part or one action at a time.
* `Upholds.attempt`, `Upholds.hoist`: a part that may fail, and a part written over other actions.
* `Only`, `Upholds.only`: a program whose actions all keep an invariant.
* `Yields`, `Yields.bind`: some answers lead to a result.
* `within`, `Upholds.stay`: a program looked at only where every state is one of `I`.
* `Upholds.play`: the invariant holds wherever the program is cut off, and at its end both do.
-/

set_option autoImplicit false

universe u

namespace OpenUI.Concurrency

/-- What an action does to a state, given the environment's answer. `none`: no answer to it. -/
abbrev Effects (A : Type → Type u) (E S : Type) := {β : Type} → A β → E → S → Option (β × S)

namespace Program

variable {A : Type → Type u} {E S α β : Type}

/-- Runs a program on a list of answers, until it returns or the list ends. -/
def play (exec : Effects A E S) : Program A α → List E → S → Option (Option α × S)
  | .pure a, _, s => some (some a, s)
  | .act _ _, [], s => some (none, s)
  | .act a k, e :: es, s =>
    match exec a e s with
    | none => none
    | some (r, s') => play exec (k r) es s'

/-- One action, and then the rest on the rest of the answers. -/
theorem play_act {exec : Effects A E S} {a : A β} {f : β → Program A α} {e : E} {es : List E}
    {s s' : S} {r : β} (h : exec a e s = some (r, s')) :
    (liftM a >>= f).play exec (e :: es) s = (f r).play exec es s' := by
  show play exec (.act a f) (e :: es) s = _
  rw [play, h]

/-- A program that was cut off goes on when one more answer comes. -/
theorem play_cut {exec : Effects A E S} {p : Program A α} {es : List E} {s s' : S}
    (h : p.play exec es s = some (none, s')) : ∃ (β : Type) (a : A β), ∀ e r s'',
      exec a e s' = some (r, s'') → ∃ r', p.play exec (es ++ [e]) s = some (r', s'') := by
  induction p generalizing s es with
  | pure a => cases h
  | act a k ih =>
    cases es with
    | nil =>
      cases h
      refine ⟨_, a, fun e r s'' he => ?_⟩
      cases hk : k r with
      | pure b => exact ⟨some b, by rw [List.nil_append, Program.play, he]; simp only [hk]; rfl⟩
      | act b k' => exact ⟨none, by rw [List.nil_append, Program.play, he]; simp only [hk]; rfl⟩
    | cons e es =>
      rw [Program.play] at h
      split at h
      · cases h
      · rename_i r s₁ he
        obtain ⟨β, b, hb⟩ := ih r h
        refine ⟨β, b, fun e' r' s'' he' => ?_⟩
        obtain ⟨r'', hr''⟩ := hb e' r' s'' he'
        exact ⟨r'', by rw [List.cons_append, Program.play, he]; exact hr''⟩

/-- The program keeps `I` at every point, and ends in `Q`, as long as the answers meet `K`. -/
def Upholds (exec : Effects A E S) (K : E → Bool) (I : S → Prop) (Q : α → S → Prop) :
    Program A α → S → Prop
  | .pure a, s => I s ∧ Q a s
  | .act a k, s => I s ∧ ∀ e r s', K e = true → exec a e s = some (r, s') →
    Upholds exec K I Q (k r) s'

variable {exec : Effects A E S} {K : E → Bool} {I : S → Prop}

theorem Upholds.pure {Q : α → S → Prop} {a : α} {s : S} (hI : I s) (hQ : Q a s) :
    Upholds exec K I Q (Pure.pure a : Program A α) s := ⟨hI, hQ⟩

/-- One action in front of a program. -/
theorem Upholds.act {Q : α → S → Prop} {a : A β} {f : β → Program A α} {s : S} (hI : I s)
    (hf : ∀ e r s', K e = true → exec a e s = some (r, s') → Upholds exec K I Q (f r) s') :
    Upholds exec K I Q (liftM a >>= f) s := ⟨hI, hf⟩

/-- A program upholds what it did when its postcondition is weakened. -/
theorem Upholds.mono {Q Q' : α → S → Prop} {p : Program A α} {s : S}
    (h : Upholds exec K I Q p s) (hQ : ∀ a s, I s → Q a s → Q' a s) : Upholds exec K I Q' p s := by
  induction p generalizing s with
  | pure a => exact ⟨h.1, hQ a s h.1 h.2⟩
  | act a k ih => exact ⟨h.1, fun e r s' hK he => ih r (h.2 e r s' hK he)⟩

/-- A weaker invariant is upheld too. -/
theorem Upholds.weaken {I' : S → Prop} {Q : α → S → Prop} {p : Program A α} {s : S}
    (h : Upholds exec K I Q p s) (hI : ∀ s, I s → I' s) : Upholds exec K I' Q p s := by
  induction p generalizing s with
  | pure a => exact ⟨hI s h.1, h.2⟩
  | act a k ih => exact ⟨hI s h.1, fun e r s' hK he => ih r (h.2 e r s' hK he)⟩

/-- Fewer answers are expected. -/
theorem Upholds.restrict {K' : E → Bool} {Q : α → S → Prop} {p : Program A α} {s : S}
    (h : Upholds exec K I Q p s) (hK : ∀ e, K' e = true → K e = true) :
    Upholds exec K' I Q p s := by
  induction p generalizing s with
  | pure a => exact h
  | act a k ih => exact ⟨h.1, fun e r s' hK' he => ih r (h.2 e r s' (hK e hK') he)⟩

/-- A sequence, one part after the other. -/
theorem Upholds.bind {R : α → S → Prop} {Q : β → S → Prop} {p : Program A α}
    {f : α → Program A β} {s : S} (hp : Upholds exec K I R p s)
    (hf : ∀ a s, I s → R a s → Upholds exec K I Q (f a) s) : Upholds exec K I Q (p >>= f) s := by
  induction p generalizing s with
  | pure a => exact hf a s hp.1 hp.2
  | act a k ih => exact ⟨hp.1, fun e r s' hK he => ih r (hp.2 e r s' hK he)⟩

/-- A part that may fail, with what comes after it if it does not. -/
theorem Upholds.attempt {ε : Type} {R : Except ε α → S → Prop} {Q : Except ε β → S → Prop}
    {p : ExceptT ε (Program A) α} {f : α → ExceptT ε (Program A) β} {s : S}
    (hp : Upholds exec K I R p.run s) (herror : ∀ e s, I s → R (.error e) s → Q (.error e) s)
    (hok : ∀ a s, I s → R (.ok a) s → Upholds exec K I Q (f a).run s) :
    Upholds exec K I Q (p >>= f).run s := by
  refine Upholds.bind hp fun r s' hI hr => ?_
  cases r with
  | error e => exact ⟨hI, herror e s' hI hr⟩
  | ok a => exact hok a s' hI hr

/-- Two things that a program ends in, at once. -/
theorem Upholds.and {I' : S → Prop} {Q Q' : α → S → Prop} {p : Program A α} {s : S}
    (h : Upholds exec K I Q p s) (h' : Upholds exec K I' Q' p s) :
    Upholds exec K I (fun a s => Q a s ∧ Q' a s) p s := by
  induction p generalizing s with
  | pure a => exact ⟨h.1, h.2, h'.2⟩
  | act a k ih => exact ⟨h.1, fun e r s' hK he => ih r (h.2 e r s' hK he) (h'.2 e r s' hK he)⟩

/-- A program over the actions of `A`, run with those of `B`. -/
def hoist {B : Type → Type u} (f : {β : Type} → A β → B β) : Program A α → Program B α
  | .pure a => .pure a
  | .act a k => .act (f a) fun r => hoist f (k r)

/-- It is looked at with what its actions do there. -/
theorem Upholds.hoist {B : Type → Type u} {exec : Effects B E S}
    {f : {β : Type} → A β → B β} {Q : α → S → Prop} {p : Program A α} {s : S}
    (h : Upholds (fun a e s => exec (f a) e s) K I Q p s) :
    Upholds exec K I Q (p.hoist f) s := by
  induction p generalizing s with
  | pure a => exact h
  | act a k ih => exact ⟨h.1, fun e r s' hK he => ih r (h.2 e r s' hK he)⟩

/-- Every action of the program is one of these, whatever the results. -/
def Only (ok : {β : Type} → A β → Prop) : Program A α → Prop
  | .pure _ => True
  | .act a k => ok a ∧ ∀ r, Only ok (k r)

section Only

variable {ok : {β : Type} → A β → Prop}

theorem Only.bind {p : Program A α} {f : α → Program A β} (hp : p.Only ok)
    (hf : ∀ a, (f a).Only ok) : (p >>= f).Only ok := by
  induction p with
  | pure a => exact hf a
  | act a k ih => exact ⟨hp.1, fun r => ih r (hp.2 r)⟩

theorem Only.act {a : A β} {f : β → Program A α} (ha : ok a) (hf : ∀ r, (f r).Only ok) :
    Only ok (liftM a >>= f) := ⟨ha, hf⟩

theorem Only.lift {a : A α} (ha : ok a) : Only ok (liftM a : Program A α) := ⟨ha, fun _ => trivial⟩

theorem Only.attempt {ε : Type} {p : ExceptT ε (Program A) α} {f : α → ExceptT ε (Program A) β}
    (hp : p.run.Only ok) (hf : ∀ a, (f a).run.Only ok) : (p >>= f).run.Only ok := by
  refine Only.bind hp fun r => ?_
  cases r with
  | error e => trivial
  | ok a => exact hf a

theorem Only.hoist {B : Type → Type u} {ok : {β : Type} → B β → Prop} {f : {β : Type} → A β → B β}
    {p : Program A α} (hp : p.Only fun a => ok (f a)) : (p.hoist f).Only ok := by
  induction p with
  | pure a => trivial
  | act a k ih => exact ⟨hp.1, fun r => ih r (hp.2 r)⟩

theorem Only.mono {ok' : {β : Type} → A β → Prop} {p : Program A α} (hp : p.Only ok)
    (hok : ∀ {β} (a : A β), ok a → ok' a) : p.Only ok' := by
  induction p with
  | pure a => trivial
  | act a k ih => exact ⟨hok a hp.1, fun r => ih r (hp.2 r)⟩

/-- Any program does something. -/
theorem Only.any (p : Program A α) : p.Only (fun _ => True) := by
  induction p with
  | pure a => trivial
  | act a k ih => exact ⟨trivial, ih⟩

/-- What its actions keep, the program keeps. -/
theorem Upholds.only (hexec : ∀ {β} (a : A β) e s r s', ok a → K e = true → I s →
    exec a e s = some (r, s') → I s') {p : Program A α} (hp : p.Only ok) {s : S} (hs : I s) :
    Upholds exec K I (fun _ => I) p s := by
  induction p generalizing s with
  | pure a => exact ⟨hs, hs⟩
  | act a k ih => exact ⟨hs, fun e r s' hK he => ih r (hp.2 r) (hexec a e s r s' hp.1 hK hs he)⟩

end Only

/-- Wherever the program is cut off the invariant holds, and where it returns the postcondition
does too. -/
theorem Upholds.play {Q : α → S → Prop} {p : Program A α} {s s' : S} {es : List E} {r : Option α}
    (h : Upholds exec K I Q p s) (hK : ∀ e ∈ es, K e = true)
    (hplay : p.play exec es s = some (r, s')) : I s' ∧ ∀ a, r = some a → Q a s' := by
  induction p generalizing s es with
  | pure a =>
    cases hplay
    exact ⟨h.1, fun a' ha => Option.some.inj ha ▸ h.2⟩
  | act a k ih =>
    cases es with
    | nil =>
      cases hplay
      exact ⟨h.1, by simp⟩
    | cons e es =>
      rw [Program.play] at hplay
      split at hplay
      · cases hplay
      · rename_i r' s₁ he
        exact ih r' (h.2 e r' s₁ (hK e List.mem_cons_self) he)
          (fun e' he' => hK e' (List.mem_cons_of_mem _ he')) hplay

/-! ### Programs that come to their end -/

/-- Some answers take the program from `s` to its result and to `s'`. -/
def Yields (exec : Effects A E S) : Program A α → S → α → S → Prop
  | .pure a, s, b, s' => a = b ∧ s = s'
  | .act a k, s, b, s' => ∃ e r s₁, exec a e s = some (r, s₁) ∧ Yields exec (k r) s₁ b s'

theorem Yields.pure {a : α} {s : S} : Yields exec (Pure.pure a : Program A α) s a s := ⟨rfl, rfl⟩

/-- One action in front of a program. -/
theorem Yields.act {a : A β} {f : β → Program A α} {e : E} {r : β} {b : α} {s s₁ s' : S}
    (he : exec a e s = some (r, s₁)) (hf : Yields exec (f r) s₁ b s') :
    Yields exec (liftM a >>= f) s b s' := ⟨e, r, s₁, he, hf⟩

/-- A sequence, one part after the other. -/
theorem Yields.bind {p : Program A α} {f : α → Program A β} {a : α} {b : β} {s s₁ s' : S}
    (hp : Yields exec p s a s₁) (hf : Yields exec (f a) s₁ b s') :
    Yields exec (p >>= f) s b s' := by
  induction p generalizing s with
  | pure a' =>
    obtain ⟨rfl, rfl⟩ := hp
    exact hf
  | act a' k ih =>
    obtain ⟨e, r, s₂, he, hk⟩ := hp
    exact ⟨e, r, s₂, he, ih r hk⟩

/-- The answers. -/
theorem Yields.play {p : Program A α} {a : α} {s s' : S} (h : Yields exec p s a s') :
    ∃ es, p.play exec es s = some (some a, s') := by
  induction p generalizing s with
  | pure a' =>
    obtain ⟨rfl, rfl⟩ := h
    exact ⟨[], rfl⟩
  | act a' k ih =>
    obtain ⟨e, r, s₁, he, hk⟩ := h
    obtain ⟨es, hes⟩ := ih r hk
    refine ⟨e :: es, ?_⟩
    simp only [Program.play, he]
    exact hes

/-! ### Programs that stay within an invariant -/

/-- The same actions, where they end in a state of `I`. -/
noncomputable def within (I : S → Prop) (exec : Effects A E S) : Effects A E S :=
  open Classical in fun a e s => (exec a e s).filter fun x => decide (I x.2)

theorem within_eq_some {a : A β} {e : E} {s s' : S} {r : β} :
    within I exec a e s = some (r, s') ↔ exec a e s = some (r, s') ∧ I s' := by
  simp only [within, Option.filter_eq_some_iff, decide_eq_true_eq]

/-- One action in front of a program that stays within `I`. -/
theorem Upholds.stay {Q : α → S → Prop} {a : A β} {f : β → Program A α} {s : S} (hI : I s)
    (hf : ∀ e r s', exec a e s = some (r, s') → I s' → Upholds (within I exec) K I Q (f r) s') :
    Upholds (within I exec) K I Q (liftM a >>= f) s :=
  ⟨hI, fun e r s' _ he => hf e r s' (within_eq_some.mp he).1 (within_eq_some.mp he).2⟩

/-- What a program does anyway, it does within `I`. -/
theorem Upholds.within {J : S → Prop} {Q : α → S → Prop} {p : Program A α} {s : S}
    (h : Upholds exec K J Q p s) : Upholds (within I exec) K J Q p s := by
  induction p generalizing s with
  | pure a => exact h
  | act a k ih => exact ⟨h.1, fun e r s' hK he => ih r (h.2 e r s' hK (within_eq_some.mp he).1)⟩

/-- What held before every action that ends in it, held at the start of a run that ends in it. -/
theorem start_of_play {p : Program A α} {es : List E} {s s' : S} {r : Option α}
    (hback : ∀ {β} (a : A β) e s r s', exec a e s = some (r, s') → I s' → I s)
    (hplay : p.play exec es s = some (r, s')) (hI : I s') : I s := by
  induction p generalizing s es with
  | pure a =>
    cases hplay
    exact hI
  | act a k ih =>
    cases es with
    | nil =>
      cases hplay
      exact hI
    | cons e es =>
      rw [Program.play] at hplay
      split at hplay
      · cases hplay
      · rename_i r' s₁ he
        exact hback a e s r' s₁ he (ih r' hplay)

/-- A run that ends in `J`, where `J` held before every action that ends in it, stays within `J`,
and within every `I` that it starts in and the actions that end in `J` keep. -/
theorem play_within {J : S → Prop} {p : Program A α} {es : List E} {s s' : S} {r : Option α}
    (hback : ∀ {β} (a : A β) e s r s', exec a e s = some (r, s') → J s' → J s)
    (hkeep : ∀ {β} (a : A β) e s r s', exec a e s = some (r, s') → J s' → I s → I s')
    (hplay : p.play exec es s = some (r, s')) (hJ : J s') (hI : I s) :
    p.play (Program.within (fun s => J s ∧ I s) exec) es s = some (r, s') := by
  induction p generalizing s es with
  | pure a => exact hplay
  | act a k ih =>
    cases es with
    | nil => exact hplay
    | cons e es =>
      rw [Program.play] at hplay
      split at hplay
      · cases hplay
      · rename_i r' s₁ he
        have hJ₁ : J s₁ := start_of_play hback hplay hJ
        have hI₁ : I s₁ := hkeep a e s r' s₁ he hJ₁ hI
        have hwithin : Program.within (fun s => J s ∧ I s) exec a e s = some (r', s₁) :=
          within_eq_some.mpr ⟨he, hJ₁, hI₁⟩
        rw [Program.play, hwithin]
        exact ih r' hplay hI₁

end Program

end OpenUI.Concurrency
