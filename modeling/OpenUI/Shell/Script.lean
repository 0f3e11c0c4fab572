import OpenUI.Concurrency.Interpreter
import OpenUI.Shell.Operation

/-!
# `OpenUI.Shell.Script`: scripts under `set -e`, cut off at any command

A script is a program over commands. Every command stands at a point of the script, so that one can
say where something happened. `require` is a command that ends the script when it fails, `status`
one whose exit status the script looks at.

`result` runs a script to its end. `CutAt` says what is left when the power fails, before a command
or inside one. `Safely` is the weakest precondition for both: a postcondition where the script ends,
and an invariant at those cuts that are looked at.

* `Safely.require`, `Safely.status`, `Safely.each`: one command or one loop at a time.
* `Safely.cut`, `Safely.result`: what holds where the script is cut off, and at its end.
-/

set_option autoImplicit false

namespace OpenUI.Shell

open OpenUI.Concurrency

variable {L : Type} {α β : Type}

/-- A command of a trap's action. The failure of an `ignored` one does not count (`|| true`). -/
structure Step (L : Type) where
  point : L
  operation : Operation
  ignored : Bool

/-- What a script calls for, at its points. -/
inductive Call (L : Type) : Type → Type where
  /-- A command, with its success. -/
  | run (point : L) (operation : Operation) : Call L Bool
  /-- `trap action EXIT HUP INT TERM`, or `trap -`. -/
  | trap (point : L) (action : Option (List (Step L))) : Call L Unit

/-- Where a call stands. -/
def Call.point : Call L β → L
  | .run point _ => point
  | .trap point _ => point

/-- A script: it may end with an exit status before it comes to its last command. -/
abbrev Script (L α : Type) := ExceptT Nat (Program (Call L)) α

namespace Script

/-- A command whose exit status the script looks at. -/
def status (point : L) (operation : Operation) : Script L Bool :=
  ExceptT.lift (liftM (Call.run point operation))

/-- A command that ends the script when it fails. -/
def require (point : L) (operation : Operation) : Script L Unit := ExceptT.mk do
  let done ← Call.run point operation
  pure (if done then .ok () else .error 1)

/-- A question to the files that the script goes by. -/
def ask (point : L) (holds : FileTree → Bool) : Script L Bool := status point (.test holds)

/-- `trap`. -/
def trap (point : L) (action : Option (List (Step L))) : Script L Unit :=
  ExceptT.lift (liftM (Call.trap point action))

/-- `for`. -/
def each (body : α → Script L Unit) : List α → Script L Unit
  | [] => pure ()
  | a :: rest => do
    body a
    each body rest

end Script

/-! ### Runs to the end, and cuts -/

/-- What a call does when nothing goes wrong. -/
def plain : Handler (Call L) FileTree
  | _, .run _ o, t => o.exec t
  | _, .trap _ _, t => ((), t)

/-- A script run to its end: how it ends, and the tree. -/
def Script.result (s : Script L α) (t : FileTree) :
    Except Nat α × FileTree := s.run.interpret plain t

/-- A script whose first part succeeds goes on with the rest of it. -/
theorem Script.result_andThen {p : Script L α} {f : α → Script L β} {a : α} {t t' : FileTree}
    (h : p.result t = (.ok a, t')) : (p >>= f).result t = (f a).result t' := by
  have hbind : (p >>= f).result t =
      Program.interpret plain (ExceptT.bindCont f (p.result t).1) (p.result t).2 :=
    Program.interpret_bind plain p.run (ExceptT.bindCont f) t
  rw [hbind, h]
  rfl

/-- Where the power fails: before a command, or inside one. -/
inductive Cut (L : Type) where
  | before (point : L)
  | inside (point : L) (left : FileTree)

/-- What a call that is cut off inside may leave. -/
def Call.Torn : Call L β → FileTree → FileTree → FileTree → Prop
  | .run _ o => o.Torn
  | .trap _ _ => fun _ _ _ => False

/-- A program from the first tree is cut off, and leaves the other. -/
def CutAt : Program (Call L) α → FileTree → Cut L → FileTree → Prop
  | .pure _, _, _, _ => False
  | .act a k, t, c, t' => (c = .before a.point ∧ t' = t) ∨
    (∃ left, c = .inside a.point left ∧ a.Torn left t t') ∨
    CutAt (k (plain a t).1) (plain a t).2 c t'

/-- A cut after a command that has to succeed, and does. -/
theorem CutAt.require {point : L} {o : Operation} {f : Unit → Script L β} {t t' : FileTree}
    {c : Cut L} (hdone : (o.exec t).1 = true) (h : CutAt (f ()).run (o.exec t).2 c t') :
    CutAt (Script.require point o >>= f).run t c t' := by
  refine .inr (.inr ?_)
  show CutAt ((if (o.exec t).1 then (Except.ok () : Except Nat Unit) else .error 1) |>
    ExceptT.bindCont f) (o.exec t).2 c t'
  rw [hdone]
  exact h

/-- A cut after a command whose exit status is looked at. -/
theorem CutAt.status {point : L} {o : Operation} {f : Bool → Script L β} {t t' : FileTree}
    {c : Cut L} (h : CutAt (f (o.exec t).1).run (o.exec t).2 c t') :
    CutAt (Script.status point o >>= f).run t c t' := .inr (.inr h)

/-- The program ends in `Q`, and leaves `I` at the cuts of `P`. -/
def Safely (P : Cut L → Prop) (I : FileTree → Prop) (Q : α → FileTree → Prop) :
    Program (Call L) α → FileTree → Prop
  | .pure a, t => Q a t
  | .act a k, t => (P (.before a.point) → I t) ∧
    (∀ left t', P (.inside a.point left) → a.Torn left t t' → I t') ∧
    Safely P I Q (k (plain a t).1) (plain a t).2

namespace Safely

variable {P : Cut L → Prop} {I : FileTree → Prop}

theorem pure {Q : α → FileTree → Prop} {a : α} {t : FileTree} (h : Q a t) :
    Safely P I Q (Pure.pure a : Program (Call L) α) t := h

/-- A weaker postcondition. -/
theorem mono {Q Q' : α → FileTree → Prop} {p : Program (Call L) α} {t : FileTree}
    (h : Safely P I Q p t) (hQ : ∀ a t, Q a t → Q' a t) : Safely P I Q' p t := by
  induction p generalizing t with
  | pure a => exact hQ a t h
  | act a k ih => exact ⟨h.1, h.2.1, ih _ h.2.2⟩

/-- Two invariants, and two postconditions, at once. -/
theorem and {I' : FileTree → Prop} {Q Q' : α → FileTree → Prop} {p : Program (Call L) α}
    {t : FileTree}
    (h : Safely P I Q p t) (h' : Safely P I' Q' p t) :
    Safely P (fun t => I t ∧ I' t) (fun a t => Q a t ∧ Q' a t) p t := by
  induction p generalizing t with
  | pure a => exact ⟨h, h'⟩
  | act a k ih =>
    exact ⟨fun hP => ⟨h.1 hP, h'.1 hP⟩,
      fun left t' hP ht => ⟨h.2.1 left t' hP ht, h'.2.1 left t' hP ht⟩, ih _ h.2.2 h'.2.2⟩

/-- Any number of them at once. -/
theorem all {ι : Type} {I : ι → FileTree → Prop} {Q : ι → α → FileTree → Prop}
    {p : Program (Call L) α} {t : FileTree} (h : ∀ i, Safely P (I i) (Q i) p t) :
    Safely P (fun t => ∀ i, I i t) (fun a t => ∀ i, Q i a t) p t := by
  induction p generalizing t with
  | pure a => exact h
  | act a k ih =>
    exact ⟨fun hP i => (h i).1 hP, fun left t' hP ht i => (h i).2.1 left t' hP ht,
      ih _ fun i => (h i).2.2⟩

/-- A weaker invariant. -/
theorem weaken {I' : FileTree → Prop} {Q : α → FileTree → Prop} {p : Program (Call L) α}
    {t : FileTree}
    (h : Safely P I Q p t) (hI : ∀ t, I t → I' t) : Safely P I' Q p t := by
  induction p generalizing t with
  | pure a => exact h
  | act a k ih =>
    exact ⟨fun hP => hI t (h.1 hP), fun left t' hP ht => hI t' (h.2.1 left t' hP ht), ih _ h.2.2⟩

/-- A sequence, one part after the other. -/
theorem bind {R : α → FileTree → Prop} {Q : β → FileTree → Prop} {p : Program (Call L) α}
    {f : α → Program (Call L) β} {t : FileTree} (hp : Safely P I R p t)
    (hf : ∀ a t, R a t → Safely P I Q (f a) t) : Safely P I Q (p >>= f) t := by
  induction p generalizing t with
  | pure a => exact hf a t hp
  | act a k ih => exact ⟨hp.1, hp.2.1, ih _ hp.2.2⟩

/-- A part of a script, and what comes after it. -/
theorem andThen {R : Except Nat α → FileTree → Prop} {Q : Except Nat β → FileTree → Prop}
    {s : Script L α} {f : α → Script L β} {t : FileTree} (hs : Safely P I R s.run t)
    (herror : ∀ n t, R (.error n) t → Q (.error n) t)
    (hok : ∀ a t, R (.ok a) t → Safely P I Q (f a).run t) : Safely P I Q (s >>= f).run t := by
  apply bind hs
  intro r t' hr
  cases r with
  | error n => exact herror n t' hr
  | ok a => exact hok a t' hr

/-- A command whose exit status is looked at, and what comes after it. -/
theorem status {Q : Except Nat β → FileTree → Prop} {point : L} {o : Operation}
    {f : Bool → Script L β} {t : FileTree} (hbefore : P (.before point) → I t)
    (hinside : ∀ left t', P (.inside point left) → o.Torn left t t' → I t')
    (hrest : Safely P I Q (f (o.exec t).1).run (o.exec t).2) :
    Safely P I Q (Script.status point o >>= f).run t := ⟨hbefore, hinside, hrest⟩

/-- A command that has to succeed, and what comes after it. -/
theorem require {Q : Except Nat β → FileTree → Prop} {point : L} {o : Operation}
    {f : Unit → Script L β} {t : FileTree} (hbefore : P (.before point) → I t)
    (hinside : ∀ left t', P (.inside point left) → o.Torn left t t' → I t')
    (hfail : (o.exec t).1 = false → Q (.error 1) (o.exec t).2)
    (hdone : (o.exec t).1 = true → Safely P I Q (f ()).run (o.exec t).2) :
    Safely P I Q (Script.require point o >>= f).run t := by
  have hrun : Safely P I (fun r t' => t' = (o.exec t).2 ∧
      r = if (o.exec t).1 then .ok () else .error 1) (Script.require point o).run t :=
    ⟨hbefore, hinside, rfl, rfl⟩
  cases ho : (o.exec t).1 with
  | false =>
    rw [ho] at hrun
    exact andThen hrun (fun n t' h => by
      obtain ⟨rfl, h⟩ := h
      cases h
      exact hfail ho) (by simp)
  | true =>
    rw [ho] at hrun
    exact andThen hrun (by simp) (fun a t' h => by
      obtain ⟨rfl, -⟩ := h
      exact hdone ho)

/-- A command that has to succeed, at the end. -/
theorem require_last {Q : Except Nat Unit → FileTree → Prop} {point : L} {o : Operation}
    {t : FileTree}
    (hbefore : P (.before point) → I t)
    (hinside : ∀ left t', P (.inside point left) → o.Torn left t t' → I t')
    (hfail : (o.exec t).1 = false → Q (.error 1) (o.exec t).2)
    (hdone : (o.exec t).1 = true → Q (.ok ()) (o.exec t).2) :
    Safely P I Q (Script.require point o).run t := by
  refine ⟨hbefore, hinside, ?_⟩
  show Q (if (o.exec t).1 = true then .ok () else .error 1) (o.exec t).2
  split
  · rename_i h
    exact hdone h
  · rename_i h
    exact hfail (by simpa using h)

/-- A question, and what comes after it. -/
theorem ask {Q : Except Nat β → FileTree → Prop} {point : L} {holds : FileTree → Bool}
    {f : Bool → Script L β} {t : FileTree} (hbefore : P (.before point) → I t)
    (hrest : Safely P I Q (f (holds t)).run t) :
    Safely P I Q (Script.ask point holds >>= f).run t :=
  status hbefore (fun _ _ _ h => False.elim h) hrest

/-- `trap`, and what comes after it. -/
theorem trap {Q : Except Nat β → FileTree → Prop} {point : L} {action : Option (List (Step L))}
    {f : Unit → Script L β} {t : FileTree} (hbefore : P (.before point) → I t)
    (hrest : Safely P I Q (f ()).run t) :
    Safely P I Q (Script.trap point action >>= f).run t :=
  ⟨hbefore, fun _ _ _ h => h.elim, hrest⟩

/-- A loop: what holds of the part that is done, from one round to the next. -/
theorem each {body : α → Script L Unit} {J : List α → FileTree → Prop} {E : Nat → FileTree → Prop}
    (all : List α)
    (hbody : ∀ done a rest t, done ++ a :: rest = all → J done t →
      Safely P I (fun r t' => (r = .ok () → J (done ++ [a]) t') ∧ ∀ n, r = .error n → E n t')
        (body a).run t)
    {done rest : List α} {t : FileTree} (hall : done ++ rest = all) (hJ : J done t) :
    Safely P I (fun r t' => (r = .ok () → J all t') ∧ ∀ n, r = .error n → E n t')
      (Script.each body rest).run t := by
  induction rest generalizing done t with
  | nil =>
    rw [List.append_nil] at hall
    subst hall
    exact ⟨fun _ => hJ, by simp⟩
  | cons a rest ih =>
    refine andThen (hbody done a rest t hall hJ) (fun n t' h => ⟨by simp, ?_⟩) (fun _ t' h => ?_)
    · intro m hm
      cases hm
      exact h.2 n rfl
    · exact ih (by simpa using hall) (h.1 rfl)

end Safely

/-! ### What a script does not touch -/

/-- The paths a call may touch. -/
def Call.touches : Call L β → List Path
  | .run _ o => o.touches
  | .trap _ _ => []

/-- All that the program may touch is like this. -/
def Touches (ok : Path → Prop) : Program (Call L) α → Prop
  | .pure _ => True
  | .act a k => (∀ p ∈ a.touches, ok p) ∧ ∀ r, Touches ok (k r)

namespace Touches

variable {ok : Path → Prop}

theorem pure (a : α) : Touches ok (Pure.pure a : Program (Call L) α) := trivial

theorem bind {p : Program (Call L) α} {f : α → Program (Call L) β} (hp : Touches ok p)
    (hf : ∀ a, Touches ok (f a)) : Touches ok (p >>= f) := by
  induction p with
  | pure a => exact hf a
  | act a k ih => exact ⟨hp.1, fun r => ih r (hp.2 r)⟩

theorem andThen {s : Script L α} {f : α → Script L β} (hs : Touches ok s.run)
    (hf : ∀ a, Touches ok (f a).run) : Touches ok (s >>= f).run := by
  apply bind hs
  intro r
  cases r with
  | error n => exact trivial
  | ok a => exact hf a

theorem status {point : L} {o : Operation} (h : ∀ p ∈ o.touches, ok p) :
    Touches ok (Script.status point o).run := ⟨h, fun _ => trivial⟩

theorem require {point : L} {o : Operation} (h : ∀ p ∈ o.touches, ok p) :
    Touches ok (Script.require point o).run := ⟨h, fun _ => trivial⟩

theorem ask (point : L) (holds : FileTree → Bool) : Touches ok (Script.ask point holds).run :=
  status (by simp [Operation.touches])

theorem each {body : α → Script L Unit} {all : List α}
    (h : ∀ a ∈ all, Touches ok (body a).run) : Touches ok (Script.each body all).run := by
  induction all with
  | nil => exact trivial
  | cons a rest ih =>
    exact andThen (h a List.mem_cons_self) fun _ => ih fun b hb => h b (List.mem_cons_of_mem a hb)

theorem mono {ok' : Path → Prop} {p : Program (Call L) α} (h : Touches ok p)
    (hok : ∀ q, ok q → ok' q) : Touches ok' p := by
  induction p with
  | pure a => trivial
  | act a k ih => exact ⟨fun q hq => hok q (h.1 q hq), fun r => ih r (h.2 r)⟩

end Touches

/-- Nothing has changed where all of `ok` is apart. -/
def Same (ok : Path → Prop) (t t' : FileTree) : Prop :=
  ∀ q, (∀ p, ok p → FileTree.Apart p q) → FileTree.get q t' = FileTree.get q t

theorem Same.refl (ok : Path → Prop) (t : FileTree) : Same ok t t := fun _ _ => rfl

theorem Same.trans {ok : Path → Prop} {t t' t'' : FileTree} (h : Same ok t t')
    (h' : Same ok t' t'') :
    Same ok t t'' := fun q hq => (h' q hq).trans (h q hq)

/-- What is apart from all that it may touch stays as it is, wherever the program is cut off. -/
theorem Touches.safely {ok : Path → Prop} {P : Cut L → Prop} {p : Program (Call L) α}
    {t t₀ : FileTree}
    (h : Touches ok p) (ht : Same ok t₀ t) : Safely P (Same ok t₀) (fun _ => Same ok t₀) p t := by
  induction p generalizing t with
  | pure a => exact ht
  | act a k ih =>
    have hplain : Same ok t (plain a t).2 := by
      cases a with
      | run point o => exact fun q hq => Operation.exec_apart (fun p hp => hq p (h.1 p hp)) t
      | trap point action => exact Same.refl ok t
    refine ⟨fun _ => ht, fun left t' _ htorn => ?_, ih _ (h.2 _) (ht.trans hplain)⟩
    cases a with
    | run point o =>
      exact ht.trans fun q hq => Operation.torn_apart (fun p hp => hq p (h.1 p hp)) htorn
    | trap point action => exact htorn.elim

/-- So does a directory that is above all that it may touch, or apart from it. -/
theorem Touches.directory {ok : Path → Prop} {P : Cut L → Prop} {p : Program (Call L) α} {q : Path}
    {t : FileTree} (h : Touches ok p) (hclear : ∀ r, ok r → Operation.Clear r q)
    (hd : (FileTree.get q t).isDirectory = true) :
    Safely P (fun t => (FileTree.get q t).isDirectory = true)
      (fun _ t => (FileTree.get q t).isDirectory = true) p t := by
  induction p generalizing t with
  | pure a => exact hd
  | act a k ih =>
    have habove : ∀ r ∈ a.touches, Operation.Clear r q := fun r hr => hclear r (h.1 r hr)
    cases a with
    | trap point action => exact ⟨fun _ => hd, fun _ _ _ htorn => htorn.elim, ih _ (h.2 _) hd⟩
    | run point o =>
      refine ⟨fun _ => hd, fun left t' _ htorn => ?_, ih _ (h.2 _) ?_⟩
      · exact Operation.torn_shallow Operation.shallow_isDirectory habove htorn hd
      · exact Operation.exec_isDirectory habove hd

namespace Safely

variable {P : Cut L → Prop} {I : FileTree → Prop}

/-! ### What follows for the runs -/

/-- Where the script is cut off at a cut that is looked at, the invariant holds. -/
theorem cut {Q : α → FileTree → Prop} {p : Program (Call L) α} {t t' : FileTree} {c : Cut L}
    (h : Safely P I Q p t) (hP : P c) (hcut : CutAt p t c t') : I t' := by
  induction p generalizing t with
  | pure a => exact hcut.elim
  | act a k ih =>
    rcases hcut with ⟨rfl, rfl⟩ | ⟨left, rfl, ht⟩ | hcut
    · exact h.1 hP
    · exact h.2.1 left t' hP ht
    · exact ih _ h.2.2 hcut

/-- Where it ends, the postcondition does. -/
theorem interpret {Q : α → FileTree → Prop} {p : Program (Call L) α} {t : FileTree}
    (h : Safely P I Q p t) : Q (p.interpret plain t).1 (p.interpret plain t).2 := by
  induction p generalizing t with
  | pure a => exact h
  | act a k ih => exact ih _ h.2.2

theorem result {Q : Except Nat α → FileTree → Prop} {s : Script L α} {t : FileTree}
    (h : Safely P I Q s.run t) : Q (s.result t).1 (s.result t).2 := interpret h

end Safely

/-! ### Runs to the end alone -/

/-- The script comes to its end in `Q`. -/
abbrev Ends (Q : Except Nat α → FileTree → Prop) (s : Script L α) (t : FileTree) : Prop :=
  Safely (fun _ => False) (fun _ => True) Q s.run t

namespace Ends

theorem status {Q : Except Nat β → FileTree → Prop} {point : L} {o : Operation}
    {f : Bool → Script L β} {t : FileTree} (h : Ends Q (f (o.exec t).1) (o.exec t).2) :
    Ends Q (Script.status point o >>= f) t :=
  Safely.status (fun _ => trivial) (fun _ _ _ _ => trivial) h

theorem require {Q : Except Nat β → FileTree → Prop} {point : L} {o : Operation}
    {f : Unit → Script L β} {t : FileTree}
    (hfail : (o.exec t).1 = false → Q (.error 1) (o.exec t).2)
    (hdone : (o.exec t).1 = true → Ends Q (f ()) (o.exec t).2) :
    Ends Q (Script.require point o >>= f) t :=
  Safely.require (fun _ => trivial) (fun _ _ _ _ => trivial) hfail hdone

theorem require_last {Q : Except Nat Unit → FileTree → Prop} {point : L} {o : Operation}
    {t : FileTree}
    (hfail : (o.exec t).1 = false → Q (.error 1) (o.exec t).2)
    (hdone : (o.exec t).1 = true → Q (.ok ()) (o.exec t).2) :
    Ends Q (Script.require point o) t :=
  Safely.require_last (fun _ => trivial) (fun _ _ _ _ => trivial) hfail hdone

theorem ask {Q : Except Nat β → FileTree → Prop} {point : L} {holds : FileTree → Bool}
    {f : Bool → Script L β} {t : FileTree} (h : Ends Q (f (holds t)) t) :
    Ends Q (Script.ask point holds >>= f) t := Safely.ask (fun _ => trivial) h

theorem trap {Q : Except Nat β → FileTree → Prop} {point : L} {action : Option (List (Step L))}
    {f : Unit → Script L β} {t : FileTree} (h : Ends Q (f ()) t) :
    Ends Q (Script.trap point action >>= f) t := Safely.trap (fun _ => trivial) h

end Ends

/-- That is what `result` says. -/
theorem ends_iff {Q : Except Nat α → FileTree → Prop} {s : Script L α} {t : FileTree} :
    Ends Q s t ↔ Q (s.result t).1 (s.result t).2 := by
  refine ⟨Safely.result, fun h => ?_⟩
  have hrun : ∀ (p : Program (Call L) (Except Nat α)) t,
      Q (p.interpret plain t).1 (p.interpret plain t).2 →
      Safely (fun _ => False) (fun _ => True) Q p t := by
    intro p
    induction p with
    | pure a => exact fun t h => h
    | act a k ih => exact fun t h => ⟨fun _ => trivial, fun _ _ _ _ => trivial, ih _ _ h⟩
  exact hrun s.run t h

/-- Wherever it is cut off, when it comes to its end it does so in `Q`. -/
theorem Ends.safely {Q : Except Nat α → FileTree → Prop} {P : Cut L → Prop} {s : Script L α}
    {t : FileTree} (h : Ends Q s t) : Safely P (fun _ => True) Q s.run t := by
  have hrun : ∀ (p : Program (Call L) (Except Nat α)) t,
      Safely (fun _ => False) (fun _ => True) Q p t → Safely P (fun _ => True) Q p t := by
    intro p
    induction p with
    | pure a => exact fun t h => h
    | act a k ih => exact fun t h => ⟨fun _ => trivial, fun _ _ _ _ => trivial, ih _ _ h.2.2⟩
  exact hrun s.run t h

/-- What is known of a script at its end. -/
theorem Safely.ends {Q : Except Nat α → FileTree → Prop} {P : Cut L → Prop} {I : FileTree → Prop}
    {s : Script L α} {t : FileTree} (h : Safely P I Q s.run t) : Ends Q s t := ends_iff.mpr h.result

/-! ### Runs that do not fail -/

/-- The script comes to its end without an error, and leaves such a tree. -/
abbrev Succeeds (Q : FileTree → Prop) (s : Script L Unit) (t : FileTree) : Prop :=
  Ends (fun r t' => r = .ok () ∧ Q t') s t

namespace Succeeds

variable {Q R : FileTree → Prop} {t : FileTree}

/-- A part of a script that does not fail, and what comes after it. -/
theorem andThen {s : Script L Unit} {f : Unit → Script L Unit} (hs : Succeeds R s t)
    (hf : ∀ t', R t' → Succeeds Q (f ()) t') : Succeeds Q (s >>= f) t := by
  refine Safely.andThen hs (fun n t' h => ?_) fun _ t' h => hf t' h.2
  cases h.1

/-- A command that does not fail, and what comes after it. -/
theorem require {point : L} {o : Operation} {f : Unit → Script L Unit} (hdone : (o.exec t).1 = true)
    (hrest : Succeeds Q (f ()) (o.exec t).2) : Succeeds Q (Script.require point o >>= f) t := by
  refine Ends.require (fun hfail => ?_) fun _ => hrest
  rw [hdone] at hfail
  cases hfail

/-- A command that does not fail, at the end. -/
theorem require_last {point : L} {o : Operation} (hdone : (o.exec t).1 = true)
    (hQ : Q (o.exec t).2) : Succeeds Q (Script.require point o) t := by
  refine Ends.require_last (fun hfail => ?_) fun _ => ⟨rfl, hQ⟩
  rw [hdone] at hfail
  cases hfail

/-- What else is known of the same run. -/
theorem and {E : Except Nat Unit → FileTree → Prop} {s : Script L Unit} (hs : Succeeds Q s t)
    (h : Ends E s t) : Succeeds (fun t' => Q t' ∧ E (.ok ()) t') s t := by
  obtain ⟨hok, hQ⟩ := ends_iff.mp hs
  have hE := ends_iff.mp h
  rw [hok] at hE
  exact ends_iff.mpr ⟨hok, hQ, hE⟩

end Succeeds

/-- Whatever comes out, what is apart from all that the script may touch stays as it is. -/
theorem Touches.result {q : Path} {s : Script L α} (h : Touches (FileTree.Apart · q) s.run)
    (t : FileTree) : FileTree.get q (s.result t).2 = FileTree.get q t :=
  (h.safely (P := fun _ => False) (Same.refl _ t)).result q fun _ hp => hp

theorem Touches.ends {q : Path} {s : Script L α} (h : Touches (FileTree.Apart · q) s.run)
    (t : FileTree) : Ends (fun _ t' => FileTree.get q t' = FileTree.get q t) s t :=
      ends_iff.mpr (h.result t)

end OpenUI.Shell
