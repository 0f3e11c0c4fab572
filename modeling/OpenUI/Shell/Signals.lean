import OpenUI.Shell.Script

/-!
# `OpenUI.Shell.Signals`: scripts under signals and failing commands

A `Weather` says what goes wrong at which point of a script: the command there fails, or a signal
arrives by the time it ends. Without a trap a signal kills the shell. With one the trap's action
runs, and the script goes on with its next command; the action runs too when the shell exits. An
action is under `set -e` as well: when a command of it fails, the shell exits.

`play` runs a program in a weather and `ending` a script to its end.

* `play_bind`, `play_andThen`, `play_require`, `play_status`, `play_trap`: one part at a time.
* `Meets`: a condition on every step of a run.
* `Sheltered`: what a script comes to under a trap. Until a signal arrives it does what it does by
  itself, or a command of it fails; from then on all is gone that the trap's action removes.
* `Untrapped.ending`: when nothing goes wrong.
-/

set_option autoImplicit false

namespace OpenUI.Shell

open OpenUI.Concurrency

variable {L : Type} {α β : Type}

/-- How a shell ends. -/
inductive Ending where
  | exited (status : Nat)
  | killed
  deriving DecidableEq, Repr

/-- A shell, with the action of its trap. -/
structure Process (L : Type) where
  tree : FileTree
  trap : Option (List (Step L)) := none

/-- What goes wrong at the points of a script. A command that fails may leave something at the path
it was working on. -/
structure Weather (L : Type) where
  fault : L → Bool
  left : L → FileTree
  signal : L → Bool

/-- It is a question to the files. -/
def Operation.isTest : Operation → Bool
  | .test _ => true
  | _ => false

namespace Weather

variable (w : Weather L)

/-- A command, that may fail for no reason of its own. -/
def perform (point : L) (o : Operation) (t : FileTree) : Bool × FileTree :=
  if w.fault point && !o.isTest then (false, o.spoil (w.left point) t) else o.exec t

/-- The action of a trap, and whether it comes to its end. -/
def clean : List (Step L) → FileTree → Bool × FileTree
  | [], t => (true, t)
  | s :: rest, t =>
    if (w.perform s.point s.operation t).1 || s.ignored then
      clean rest (w.perform s.point s.operation t).2
    else (false, (w.perform s.point s.operation t).2)

/-- The shell exits, with the action of its trap. -/
def exit (status : Nat) (s : Process L) : Ending × FileTree :=
  match s.trap with
  | none => (.exited status, s.tree)
  | some action => (.exited status, (w.clean action s.tree).2)

/-- A signal arrives. -/
def arrive (s : Process L) : Except (Ending × FileTree) (Process L) :=
  match s.trap with
  | none => .error (.killed, s.tree)
  | some action =>
    if (w.clean action s.tree).1 then .ok { s with tree := (w.clean action s.tree).2 }
    else .error (w.exit 1 { s with tree := (w.clean action s.tree).2 })

/-- What comes after the command at a point. -/
def after (point : L) (s : Process L) : Except (Ending × FileTree) (Process L) :=
  if w.signal point then w.arrive s else .ok s

/-- A call. -/
def call : {β : Type} → Call L β → Process L → Except (Ending × FileTree) (β × Process L)
  | _, .run point o, s =>
    (w.after point { s with tree := (w.perform point o s.tree).2 }).map
      fun s' => ((w.perform point o s.tree).1, s')
  | _, .trap point action, s =>
    (w.after point { s with trap := action }).map fun s' => ((), s')

/-- A program, until it returns or the shell ends. -/
def play : Program (Call L) α → Process L → Except (Ending × FileTree) (α × Process L)
  | .pure a, s => .ok (a, s)
  | .act a k, s => (w.call a s).bind fun r => play (k r.1) r.2

/-- What a script ends in that has been played. -/
def conclude : Except (Ending × FileTree) (Except Nat Unit × Process L) → Ending × FileTree
  | .error out => out
  | .ok (.ok (), s) => w.exit 0 s
  | .ok (.error n, s) => w.exit n s

/-- A script to its end. -/
def ending (script : Script L Unit) (s : Process L) : Ending × FileTree :=
  w.conclude (w.play script.run s)

/-! ### One part at a time -/

theorem play_bind (p : Program (Call L) α) (f : α → Program (Call L) β) (s : Process L) :
    w.play (p >>= f) s = (w.play p s).bind fun r => w.play (f r.1) r.2 := by
  induction p generalizing s with
  | pure a => rfl
  | act a k ih =>
    show (w.call a s).bind (fun r => w.play (k r.1 >>= f) r.2) = _
    rw [play]
    cases w.call a s with
    | error out => rfl
    | ok r => exact ih r.1 r.2

/-- What comes after a part of a script. -/
def follow (f : α → Script L β) (s : Process L) :
    Except Nat α → Except (Ending × FileTree) (Except Nat β × Process L)
  | .ok a => w.play (f a).run s
  | .error n => .ok (.error n, s)

theorem play_andThen (p : Script L α) (f : α → Script L β) (s : Process L) :
    w.play (p >>= f).run s = (w.play p.run s).bind fun r => w.follow f r.2 r.1 := by
  refine (w.play_bind p.run _ s).trans ?_
  congr 1
  funext r
  rcases r with ⟨_ | a, s'⟩ <;> rfl

theorem play_require (point : L) (o : Operation) (s : Process L) :
    w.play (Script.require point o).run s =
      (w.after point { s with tree := (w.perform point o s.tree).2 }).map fun s' =>
        (if (w.perform point o s.tree).1 then .ok () else .error 1, s') := by
  show w.play (.act (Call.run point o) _) s = _
  rw [play, call]
  cases w.after point { s with tree := (w.perform point o s.tree).2 } with
  | error out => rfl
  | ok s' => rfl

theorem play_status (point : L) (o : Operation) (s : Process L) :
    w.play (Script.status point o).run s =
      (w.after point { s with tree := (w.perform point o s.tree).2 }).map fun s' =>
        (.ok (w.perform point o s.tree).1, s') := by
  show w.play (.act (Call.run point o) _) s = _
  rw [play, call]
  cases w.after point { s with tree := (w.perform point o s.tree).2 } with
  | error out => rfl
  | ok s' => rfl

theorem play_trap (point : L) (action : Option (List (Step L))) (s : Process L) :
    w.play (Script.trap point action).run s =
      (w.after point { s with trap := action }).map fun s' => (.ok (), s') := by
  show w.play (.act (Call.trap point action) _) s = _
  rw [play, call]
  cases w.after point { s with trap := action } with
  | error out => rfl
  | ok s' => rfl

/-! ### Steps of a run -/

/-- Every call of a run meets the condition, in the process that makes it. -/
def Meets (P : {β : Type} → Call L β → Process L → Prop) : Program (Call L) α → Process L → Prop
  | .pure _, _ => True
  | .act a k, s => P a s ∧ ∀ r, w.call a s = .ok r → Meets P (k r.1) r.2

variable {w} {P : {β : Type} → Call L β → Process L → Prop}

theorem Meets.bind {p : Program (Call L) α} {f : α → Program (Call L) β} {s : Process L}
    (h : w.Meets P (p >>= f) s) :
    w.Meets P p s ∧ ∀ r, w.play p s = .ok r → w.Meets P (f r.1) r.2 := by
  induction p generalizing s with
  | pure a =>
    refine ⟨trivial, fun r hr => ?_⟩
    cases hr
    exact h
  | act a k ih =>
    refine ⟨⟨h.1, fun r hr => (ih r.1 (h.2 r hr)).1⟩, fun r hr => ?_⟩
    rw [play] at hr
    cases hcall : w.call a s with
    | error out =>
      rw [hcall] at hr
      cases hr
    | ok r' =>
      rw [hcall] at hr
      exact (ih r'.1 (h.2 r' hcall)).2 r hr

/-- A condition that every call meets. -/
theorem Meets.of_forall (h : ∀ {β : Type} (a : Call L β) (s : Process L), P a s)
    (p : Program (Call L) α) (s : Process L) : w.Meets P p s := by
  induction p generalizing s with
  | pure a => trivial
  | act a k ih => exact ⟨h a s, fun r _ => ih r.1 r.2⟩

/-- The part of a script, and what comes after it. -/
theorem Meets.andThen {p : Script L α} {f : α → Script L β} {s : Process L}
    (h : w.Meets P (p >>= f).run s) : w.Meets P p.run s ∧
      ∀ a s', w.play p.run s = .ok (.ok a, s') → w.Meets P (f a).run s' := by
  obtain ⟨hfirst, hrest⟩ := Meets.bind h
  exact ⟨hfirst, fun a s' hs => hrest _ hs⟩

/-- A script that has come to an error does nothing more. -/
theorem play_andThen_error {p : Script L α} (f : α → Script L β) {s s' : Process L} {n : Nat}
    (h : w.play p.run s = .ok (.error n, s')) : w.play (p >>= f).run s = .ok (.error n, s') := by
  rw [play_andThen, h]
  rfl

theorem play_andThen_ok {p : Script L α} (f : α → Script L β) {s s' : Process L} {a : α}
    (h : w.play p.run s = .ok (.ok a, s')) :
    w.play (p >>= f).run s = w.play (f a).run s' := by
  rw [play_andThen, h]
  rfl

/-- A command that succeeds has done what it does. -/
theorem exec_of_perform {point : L} {o : Operation} {t : FileTree}
    (h : (w.perform point o t).1 = true) : o.exec t = (true, (w.perform point o t).2) := by
  rw [← h]
  rw [perform] at h ⊢
  by_cases hfault : (w.fault point && !o.isTest) = true
  · rw [if_pos hfault] at h
    cases h
  · rw [if_neg hfault]

/-- So the script by itself comes past it too. -/
theorem result_require {point : L} {o : Operation} {t : FileTree}
    (h : (w.perform point o t).1 = true) :
    (Script.require point o).result t = (.ok (), (w.perform point o t).2) := by
  show (if (o.exec t).1 then Except.ok () else Except.error 1, (o.exec t).2) = _
  rw [exec_of_perform h]
  rfl

theorem result_status {point : L} {o : Operation} {t : FileTree}
    (h : (w.perform point o t).1 = true) :
    (Script.status point o).result t = (.ok true, (w.perform point o t).2) := by
  show (Except.ok (o.exec t).1, (o.exec t).2) = _
  rw [exec_of_perform h]

theorem after_calm {point : L} (h : ¬ w.signal point = true) (s : Process L) :
    w.after point s = .ok s := if_neg h

/-! ### Without a trap -/

/-- A command that has to succeed. A signal kills the shell. -/
theorem ending_require (point : L) (o : Operation) (f : Unit → Script L Unit) (t : FileTree) :
    w.ending (Script.require point o >>= f) ⟨t, none⟩ =
      if w.signal point then (.killed, (w.perform point o t).2)
      else if (w.perform point o t).1 then w.ending (f ()) ⟨(w.perform point o t).2, none⟩
      else (.exited 1, (w.perform point o t).2) := by
  rw [ending, play_andThen, play_require, Weather.after]
  by_cases hsignal : w.signal point = true
  · rw [if_pos hsignal, if_pos hsignal]
    rfl
  · rw [if_neg hsignal, if_neg hsignal]
    cases (w.perform point o t).1 <;> rfl

/-- A command whose status is looked at. -/
theorem ending_status (point : L) (o : Operation) (f : Bool → Script L Unit) (t : FileTree) :
    w.ending (Script.status point o >>= f) ⟨t, none⟩ =
      if w.signal point then (.killed, (w.perform point o t).2)
      else w.ending (f (w.perform point o t).1) ⟨(w.perform point o t).2, none⟩ := by
  rw [ending, play_andThen, play_status, Weather.after]
  by_cases hsignal : w.signal point = true
  · rw [if_pos hsignal, if_pos hsignal]
    rfl
  · rw [if_neg hsignal, if_neg hsignal]
    rfl

/-! ### Under a trap -/

/-- A trap's action, as long as none of its commands fails (`spared`): from what the script keeps it
comes to its end and all is gone. A signal comes only while that is so. -/
structure Shelter (w : Weather L) (P : {β : Type} → Call L β → Process L → Prop)
    (action : List (Step L)) (spared : Prop) (kept gone : FileTree → Prop) : Prop where
  clean : spared → ∀ t, kept t ∨ gone t → (w.clean action t).1 = true ∧ gone (w.clean action t).2
  spares : ∀ (point : L) (o : Operation) (s : Process L), s.trap = some action →
    P (.run point o) s → w.signal point = true → spared

/-- What a script comes to under a trap, from a tree that is kept and from one that is gone. -/
structure Sheltered (w : Weather L) (P : {β : Type} → Call L β → Process L → Prop)
    (action : List (Step L)) (spared : Prop) (kept gone : FileTree → Prop)
    (script : Script L α) : Prop where
  fromKept : ∀ t, kept t → w.Meets P script.run ⟨t, some action⟩ → ∃ out t',
    w.play script.run ⟨t, some action⟩ = .ok (out, ⟨t', some action⟩) ∧ out ≠ .error 0 ∧
      (spared ∧ gone t' ∨ kept t' ∧ (script.result t = (out, t') ∨ ∃ n, out = .error n))
  fromGone : spared → ∀ t, gone t → ∃ out t',
    w.play script.run ⟨t, some action⟩ = .ok (out, ⟨t', some action⟩) ∧ out ≠ .error 0 ∧ gone t'

section Sheltered

variable {action : List (Step L)} {spared : Prop} {kept gone : FileTree → Prop}

/-- What comes of a call, in a process with the trap. -/
theorem Shelter.after (h : Shelter w P action spared kept gone) (hspared : spared) (point : L)
    {t : FileTree} (ht : kept t ∨ gone t) (hsignal : w.signal point = true) :
    ∃ t', w.after point ⟨t, some action⟩ = .ok ⟨t', some action⟩ ∧ gone t' := by
  obtain ⟨hends, hgone⟩ := h.clean hspared t ht
  refine ⟨_, ?_, hgone⟩
  rw [Weather.after, if_pos hsignal, arrive]
  exact if_pos hends

/-- A command of which the status is looked at. -/
theorem Sheltered.status (h : Shelter w P action spared kept gone) (point : L) (o : Operation)
    (hkept : ∀ t, kept t → kept (w.perform point o t).2)
    (hgone : ∀ t, gone t → gone (w.perform point o t).2) (hcalm : w.fault point = true → o.isTest) :
    Sheltered w P action spared kept gone (Script.status point o) := by
  have hperform : ∀ t, w.perform point o t = o.exec t := by
    intro t
    rw [perform]
    by_cases hfault : w.fault point = true
    · rw [hcalm hfault, hfault]
      rfl
    · rw [if_neg (by simp [hfault])]
  constructor
  · intro t ht hmeets
    rw [play_status]
    by_cases hsignal : w.signal point = true
    · have hspared := h.spares point o _ rfl hmeets.1 hsignal
      obtain ⟨t', hafter, hgone'⟩ := h.after hspared point (.inl (hkept t ht)) hsignal
      exact ⟨_, t', by rw [hafter]; rfl, by simp, .inl ⟨hspared, hgone'⟩⟩
    · refine ⟨_, _, by rw [after_calm hsignal]; rfl, by simp, .inr ⟨hkept t ht, .inl ?_⟩⟩
      rw [hperform]
      rfl
  · intro hspared t ht
    rw [play_status]
    by_cases hsignal : w.signal point = true
    · obtain ⟨t', hafter, hgone'⟩ := h.after hspared point (.inr (hgone t ht)) hsignal
      exact ⟨_, t', by rw [hafter]; rfl, by simp, hgone'⟩
    · exact ⟨_, _, by rw [after_calm hsignal]; rfl, by simp, hgone t ht⟩

theorem status_ne_zero (done : Bool) :
    (if done then .ok () else .error 1 : Except Nat Unit) ≠ .error 0 := by
  cases done <;> simp

/-- A command that has to succeed. -/
theorem Sheltered.require (h : Shelter w P action spared kept gone) (point : L) (o : Operation)
    (hkept : ∀ t, kept t → kept (w.perform point o t).2)
    (hgone : ∀ t, gone t → gone (w.perform point o t).2) :
    Sheltered w P action spared kept gone (Script.require point o) := by
  constructor
  · intro t ht hmeets
    rw [play_require]
    by_cases hsignal : w.signal point = true
    · have hspared := h.spares point o _ rfl hmeets.1 hsignal
      obtain ⟨t', hafter, hgone'⟩ := h.after hspared point (.inl (hkept t ht)) hsignal
      exact ⟨_, t', by rw [hafter]; rfl, status_ne_zero _, .inl ⟨hspared, hgone'⟩⟩
    · refine ⟨_, _, by rw [after_calm hsignal]; rfl, status_ne_zero _, .inr ⟨hkept t ht, ?_⟩⟩
      by_cases hfault : (w.fault point && !o.isTest) = true
      · right
        rw [perform, if_pos hfault]
        exact ⟨1, rfl⟩
      · left
        rw [perform, if_neg hfault]
        rfl
  · intro hspared t ht
    rw [play_require]
    by_cases hsignal : w.signal point = true
    · obtain ⟨t', hafter, hgone'⟩ := h.after hspared point (.inr (hgone t ht)) hsignal
      exact ⟨_, t', by rw [hafter]; rfl, status_ne_zero _, hgone'⟩
    · exact ⟨_, _, by rw [after_calm hsignal]; rfl, status_ne_zero _, hgone t ht⟩

/-- One part after the other. -/
theorem Sheltered.andThen {p : Script L α} {f : α → Script L β}
    (hp : Sheltered w P action spared kept gone p)
    (hf : ∀ a, Sheltered w P action spared kept gone (f a)) :
    Sheltered w P action spared kept gone (p >>= f) := by
  constructor
  · intro t ht hmeets
    obtain ⟨hfirst, hrest⟩ := hmeets.andThen
    obtain ⟨out, t₁, hplay, hne, hcases⟩ := hp.fromKept t ht hfirst
    cases out with
    | error n =>
      refine ⟨_, t₁, play_andThen_error f hplay, by simpa using hne, ?_⟩
      rcases hcases with hlost | ⟨hkept, -⟩
      · exact .inl hlost
      · exact .inr ⟨hkept, .inr ⟨n, rfl⟩⟩
    | ok a =>
      rcases hcases with ⟨hspared, hgone⟩ | ⟨hkept, hresult | ⟨n, hn⟩⟩
      · obtain ⟨out, t₂, hplay₂, hne₂, hgone₂⟩ := (hf a).fromGone hspared t₁ hgone
        exact ⟨out, t₂, (play_andThen_ok f hplay).trans hplay₂, hne₂, .inl ⟨hspared, hgone₂⟩⟩
      · obtain ⟨out, t₂, hplay₂, hne₂, hcases₂⟩ := (hf a).fromKept t₁ hkept (hrest a _ hplay)
        refine ⟨out, t₂, (play_andThen_ok f hplay).trans hplay₂, hne₂, ?_⟩
        rwa [Script.result_andThen hresult]
      · cases hn
  · intro hspared t ht
    obtain ⟨out, t₁, hplay, hne, hgone⟩ := hp.fromGone hspared t ht
    cases out with
    | error n => exact ⟨_, t₁, play_andThen_error f hplay, by simpa using hne, hgone⟩
    | ok a =>
      obtain ⟨out, t₂, hplay₂, hne₂, hgone₂⟩ := (hf a).fromGone hspared t₁ hgone
      exact ⟨out, t₂, (play_andThen_ok f hplay).trans hplay₂, hne₂, hgone₂⟩

theorem Sheltered.pure (a : α) :
    Sheltered w P action spared kept gone (pure a : Script L α) := by
  constructor
  · intro t ht _
    exact ⟨_, t, rfl, by simp, .inr ⟨ht, .inl rfl⟩⟩
  · intro _ t ht
    exact ⟨_, t, rfl, by simp, ht⟩

/-- A loop, round by round. -/
theorem Sheltered.each {body : α → Script L Unit} {all : List α}
    (h : ∀ a ∈ all, Sheltered w P action spared kept gone (body a)) :
    Sheltered w P action spared kept gone (Script.each body all) := by
  induction all with
  | nil => exact Sheltered.pure ()
  | cons a rest ih =>
    exact (h a List.mem_cons_self).andThen fun _ =>
      ih fun b hb => h b (List.mem_cons_of_mem a hb)

/-! ### The end of a trap -/

/-- A script that gives the trap up at its end, from one tree: it comes to its end and has done what
it does by itself, or it fails under the trap. -/
def Settles (w : Weather L) (P : {β : Type} → Call L β → Process L → Prop)
    (action : List (Step L)) (spared : Prop) (kept gone : FileTree → Prop) (script : Script L Unit)
    (t : FileTree) : Prop :=
  w.Meets P script.run ⟨t, some action⟩ →
    (∃ n ≠ 0, ∃ t', w.play script.run ⟨t, some action⟩ = .ok (.error n, ⟨t', some action⟩) ∧
      (kept t' ∨ spared ∧ gone t')) ∨
    ∃ t', w.play script.run ⟨t, some action⟩ = .ok (.ok (), ⟨t', none⟩) ∧
      script.result t = (.ok (), t')

/-- A script that cannot come to its end once all is gone. -/
def Doomed (w : Weather L) (action : List (Step L)) (spared : Prop) (gone : FileTree → Prop)
    (script : Script L Unit) : Prop :=
  spared → ∀ t, gone t → ∃ n ≠ 0, ∃ t',
    w.play script.run ⟨t, some action⟩ = .ok (.error n, ⟨t', some action⟩) ∧ gone t'

/-- A command at which a signal comes only where it fails. -/
theorem Settles.require (h : Shelter w P action spared kept gone) {point : L} {o : Operation}
    {f : Unit → Script L Unit} {t : FileTree}
    (hstep : P (.run point o) ⟨t, some action⟩ →
      (w.signal point = true → (w.perform point o t).1 = false) ∧
      ((w.perform point o t).1 = false → kept (w.perform point o t).2) ∧
      ((w.perform point o t).1 = true →
        Settles w P action spared kept gone (f ()) (w.perform point o t).2)) :
    Settles w P action spared kept gone (Script.require point o >>= f) t := by
  intro hmeets
  obtain ⟨hfirst, hrest⟩ := hmeets.andThen
  obtain ⟨hquiet, hfail, hdone⟩ := hstep hfirst.1
  have hplay := w.play_require point o ⟨t, some action⟩
  cases hperform : (w.perform point o t).1 with
  | false =>
    left
    rw [hperform] at hplay
    by_cases hsignal : w.signal point = true
    · have hspared := h.spares point o _ rfl hfirst.1 hsignal
      obtain ⟨t', hafter, hgone⟩ := h.after hspared point (.inl (hfail hperform)) hsignal
      refine ⟨1, Nat.one_ne_zero, t', play_andThen_error f ?_, .inr ⟨hspared, hgone⟩⟩
      rw [hplay, hafter]
      rfl
    · refine ⟨1, Nat.one_ne_zero, _, play_andThen_error f ?_, .inl (hfail hperform)⟩
      rw [hplay, after_calm hsignal]
      rfl
  | true =>
    have hsignal : ¬ w.signal point = true := by
      intro hsignal
      rw [hquiet hsignal] at hperform
      cases hperform
    rw [hperform, after_calm hsignal] at hplay
    rw [play_andThen_ok f hplay, Script.result_andThen (result_require hperform)]
    exact hdone hperform (hrest () _ hplay)

/-- The trap is given up. -/
theorem Settles.untrap {point : L} {t : FileTree}
    (hquiet : P (.trap point none) ⟨t, some action⟩ → w.signal point = false) :
    Settles w P action spared kept gone (Script.trap point none) t := by
  intro hmeets
  right
  refine ⟨t, ?_, rfl⟩
  rw [play_trap, after_calm (by simp [hquiet hmeets.1])]
  rfl

/-- The end of a script that was begun under a trap: it settles from what is kept, and from what is
gone it cannot come to its end. -/
structure Finishes (w : Weather L) (P : {β : Type} → Call L β → Process L → Prop)
    (action : List (Step L)) (spared : Prop) (kept gone : FileTree → Prop)
    (script : Script L Unit) : Prop where
  settles : ∀ t, kept t → Settles w P action spared kept gone script t
  doomed : Doomed w action spared gone script

/-- A sheltered part, and the end of the script. -/
theorem Finishes.andThen {p : Script L α} {f : α → Script L Unit}
    (hp : Sheltered w P action spared kept gone p)
    (hf : ∀ a, Finishes w P action spared kept gone (f a)) :
    Finishes w P action spared kept gone (p >>= f) := by
  constructor
  · intro t ht hmeets
    obtain ⟨hfirst, hrest⟩ := hmeets.andThen
    obtain ⟨out, t₁, hplay, hne, hcases⟩ := hp.fromKept t ht hfirst
    cases out with
    | error n =>
      left
      refine ⟨n, by simpa using hne, t₁, play_andThen_error f hplay, ?_⟩
      rcases hcases with hlost | ⟨hkept, -⟩
      · exact .inr hlost
      · exact .inl hkept
    | ok a =>
      rw [play_andThen_ok f hplay]
      rcases hcases with ⟨hspared, hgone⟩ | ⟨hkept, hresult | ⟨n, hn⟩⟩
      · left
        obtain ⟨n, hn, t₂, hplay₂, hgone₂⟩ := (hf a).doomed hspared t₁ hgone
        exact ⟨n, hn, t₂, hplay₂, .inr ⟨hspared, hgone₂⟩⟩
      · rw [Script.result_andThen hresult]
        exact (hf a).settles t₁ hkept (hrest a _ hplay)
      · cases hn
  · intro hspared t ht
    obtain ⟨out, t₁, hplay, hne, hgone⟩ := hp.fromGone hspared t ht
    cases out with
    | error n => exact ⟨n, by simpa using hne, t₁, play_andThen_error f hplay, hgone⟩
    | ok a =>
      rw [play_andThen_ok f hplay]
      exact (hf a).doomed hspared t₁ hgone

/-- A command that fails once all is gone. -/
theorem Doomed.require (h : Shelter w P action spared kept gone) {point : L} {o : Operation}
    (f : Unit → Script L Unit)
    (hfails : ∀ t, gone t → (w.perform point o t).1 = false ∧ gone (w.perform point o t).2) :
    Doomed w action spared gone (Script.require point o >>= f) := by
  intro hspared t ht
  obtain ⟨hperform, hgone⟩ := hfails t ht
  have hplay := w.play_require point o ⟨t, some action⟩
  rw [hperform] at hplay
  by_cases hsignal : w.signal point = true
  · obtain ⟨t', hafter, hgone'⟩ := h.after hspared point (.inr hgone) hsignal
    refine ⟨1, Nat.one_ne_zero, t', play_andThen_error f ?_, hgone'⟩
    rw [hplay, hafter]
    rfl
  · refine ⟨1, Nat.one_ne_zero, _, play_andThen_error f ?_, hgone⟩
    rw [hplay, after_calm hsignal]
    rfl

end Sheltered

/-! ### When nothing goes wrong -/

/-- Every command does what it does, and there is no signal. -/
def calm : Weather L where
  fault _ := false
  left _ := none
  signal _ := false

/-- A program is then run to its end. -/
theorem play_calm (p : Program (Call L) α) (s : Process L) : ∃ trap,
    calm.play p s = .ok ((p.interpret plain s.tree).1, ⟨(p.interpret plain s.tree).2, trap⟩) := by
  induction p generalizing s with
  | pure a => exact ⟨s.trap, rfl⟩
  | act a k ih =>
    cases a with
    | run point o => exact ih (o.exec s.tree).1 ⟨(o.exec s.tree).2, s.trap⟩
    | trap point action => exact ih () ⟨s.tree, action⟩

/-- The status a script exits with. -/
def exitStatus : Except Nat Unit → Nat
  | .ok () => 0
  | .error n => n

/-- The program sets no trap. -/
def Untrapped : Program (Call L) α → Prop
  | .pure _ => True
  | .act (.run _ _) k => ∀ done, Untrapped (k done)
  | .act (.trap _ _) _ => False

theorem Untrapped.play {p : Program (Call L) α} (h : Untrapped p) (s : Process L) :
    calm.play p s = .ok ((p.interpret plain s.tree).1, ⟨(p.interpret plain s.tree).2, s.trap⟩) := by
  induction p generalizing s with
  | pure a => rfl
  | act a k ih =>
    cases a with
    | run point o => exact ih (o.exec s.tree).1 (h _) ⟨(o.exec s.tree).2, s.trap⟩
    | trap point action => exact h.elim

/-- A script without a trap exits with what it comes to. -/
theorem Untrapped.ending {script : Script L Unit} (h : Untrapped script.run) (t : FileTree) :
    calm.ending script ⟨t, none⟩ =
      (.exited (exitStatus (script.result t).1), (script.result t).2) := by
  have hplay : calm.play script.run ⟨t, none⟩ =
      .ok ((script.result t).1, ⟨(script.result t).2, none⟩) := h.play ⟨t, none⟩
  rw [Weather.ending, hplay]
  rcases (script.result t).1 with n | ⟨⟩ <;> rfl

section Untrapped

theorem Untrapped.bind {p : Program (Call L) α} {f : α → Program (Call L) β} (hp : Untrapped p)
    (hf : ∀ a, Untrapped (f a)) : Untrapped (p >>= f) := by
  induction p with
  | pure a => exact hf a
  | act a k ih =>
    cases a with
    | run point o => exact fun done => ih done (hp done)
    | trap point action => exact hp.elim

theorem Untrapped.andThen {p : Script L α} {f : α → Script L β} (hp : Untrapped p.run)
    (hf : ∀ a, Untrapped (f a).run) : Untrapped (p >>= f).run := by
  refine Untrapped.bind hp fun r => ?_
  cases r with
  | error n => trivial
  | ok a => exact hf a

theorem Untrapped.require (point : L) (o : Operation) :
    Untrapped (Script.require point o).run := fun _ => trivial

theorem Untrapped.ask (point : L) (holds : FileTree → Bool) :
    Untrapped (Script.ask point holds).run := fun _ => trivial

theorem Untrapped.each {body : α → Script L Unit} {all : List α}
    (h : ∀ a ∈ all, Untrapped (body a).run) : Untrapped (Script.each body all).run := by
  induction all with
  | nil => trivial
  | cons a rest ih =>
    exact (h a List.mem_cons_self).andThen fun _ => ih fun b hb => h b (List.mem_cons_of_mem a hb)

end Untrapped

end Weather

end OpenUI.Shell
