import OpenUI.Agent.UciTransaction
import OpenUI.Proofs.Euicc.Coding

/-!
# `OpenUI.Proofs.Agent.UciTransaction`: what a failed transaction leaves

`execute` puts the previous values back by setting each option to the text that the request was
planned on. That is what the option held if its bytes are exactly that text: `uci get` and `uci
show` are read with broken UTF-8 replaced, and the check trims what it reads.

* `upholds_execute`: what the options hold after `execute`, for each way it can end.
* `yields_execute`, `yields_restored`: both ends that claim something are reached whenever the check
  lets the request through.
* `execute_atomic`: so the promise holds exactly when every value is its text.
-/

set_option autoImplicit false

namespace OpenUI.Agent.UciTransaction

open OpenUI.Concurrency OpenUI.Concurrency.Program OpenUI.Euicc OpenUI.Agent.Uci

-- The equations are stated here once, before the proofs that rewrite with them.
section
attribute [local simp] Store.exec
end

/-! ### What a transaction promises -/

/-- The requested values are in force, or, unless restoration needs attention, the values before. -/
structure Atomic (changes : List Change) (s s' : Store) (r : Except Failure Unit) : Prop where
  done : r = .ok () → ∀ c ∈ changes, s'.live c.key = some (utf8 c.after)
  undone : ∀ f, r = .error f → f.needsAttention = false →
    ∀ c ∈ changes, s'.live c.key = s.live c.key

/-- So it is for every way its calls may end. -/
def AlwaysAtomic (drops : Bool) (changes : List Change) (s : Store) : Prop :=
  ∀ answers r s', (execute changes).play (Store.exec drops) answers s = some (some r, s') →
    Atomic changes s s' r

/-- The check lets the changes through: each option is there and reads as the text they were planned
on. -/
def Passes (changes : List Change) (s : Store) : Prop :=
  ∀ c ∈ changes, ∃ value, s.live c.key = some value ∧ getText (getOutput value) = c.before

/-- Setting an option to its text brings back what it held, and the requested text stays. -/
def Exact (drops : Bool) (changes : List Change) (s : Store) : Prop :=
  ∀ c ∈ changes, put drops (utf8 c.before) = s.live c.key ∧
    put drops (utf8 c.after) = some (utf8 c.after)

/-! ### Checking -/

section Calls

variable {drops : Bool}

/-- What a part of a transaction does, however its calls end. -/
abbrev Does {α : Type} (drops : Bool) (p : Program Call α) (s : Store) (Q : α → Store → Prop) :
    Prop :=
  p.Upholds (Store.exec drops) (fun _ => true) (fun _ => True) Q s

/-- The calls that only look. -/
theorem exec_changes {config : String} {e : Fault} {s s' : Store} {r : Except String Bool}
    (h : Store.exec drops (.changes config) e s = some (r, s')) : s' = s := by
  simp only [Store.exec] at h
  split at h <;> cases h <;> rfl

theorem exec_get {key : String} {e : Fault} {s s' : Store} {r : Except String Bytes}
    (h : Store.exec drops (.get key) e s = some (r, s')) :
    s' = s ∧ ∀ output, r = .ok output → ∃ value, s.live key = some value ∧
      output = getOutput value := by
  simp only [Store.exec] at h
  split at h
  · rename_i value hvalue
    cases h
    exact ⟨rfl, fun output ho => ⟨value, hvalue, (Except.ok.inj ho).symm⟩⟩
  · cases h
    exact ⟨rfl, fun output ho => by cases ho⟩
  · cases h
    exact ⟨rfl, fun output ho => by cases ho⟩
  · cases h

theorem upholds_checkConfigs (packages : List String) (s : Store) :
    Does drops (checkConfigs packages) s fun _ s' => s' = s := by
  induction packages with
  | nil => exact .pure trivial rfl
  | cons config rest ih =>
    refine .act trivial fun e r s' _ he => ?_
    obtain rfl := exec_changes he
    split
    · exact .pure trivial rfl
    · exact .pure trivial rfl
    · exact ih

theorem upholds_checkValues (changes : List Change) (s : Store) :
    Does drops (checkValues changes) s fun r s' => s' = s ∧ (r = .ok () → Passes changes s) := by
  induction changes with
  | nil => exact .pure trivial ⟨rfl, fun _ c hc => by cases hc⟩
  | cons change rest ih =>
    refine .bind (R := fun r s' => s' = s ∧ ∀ text, r = .ok text →
      ∃ value, s.live change.key = some value ∧ getText (getOutput value) = text) ?_ ?_
    · refine .act trivial fun e r s' _ he => ?_
      obtain ⟨rfl, hget⟩ := exec_get he
      split
      · exact .pure trivial ⟨rfl, fun text h => by cases h⟩
      · rename_i output
        obtain ⟨value, hvalue, rfl⟩ := hget output rfl
        exact .pure trivial ⟨rfl, fun text h => ⟨value, hvalue, Except.ok.inj h⟩⟩
    · intro r s' _ h
      obtain ⟨rfl, hread⟩ := h
      split
      · exact .pure trivial ⟨rfl, fun h => by cases h⟩
      · rename_i text
        obtain ⟨value, hvalue, htext⟩ := hread text rfl
        split
        · exact .pure trivial ⟨rfl, fun h => by cases h⟩
        · rename_i hsame
          refine ih.mono fun r s'' _ h => ⟨h.1, fun hok c hc => ?_⟩
          rcases List.mem_cons.mp hc with rfl | hc
          · exact ⟨value, hvalue, htext.trans (not_not.mp hsame)⟩
          · exact h.2 hok c hc

theorem upholds_check (changes : List Change) (s : Store) :
    Does drops (check changes) s fun r s' => s' = s ∧ (r = .ok () → Passes changes s) := by
  refine .bind (upholds_checkConfigs _ s) fun r s' _ h => ?_
  obtain rfl := h
  split
  · exact .pure trivial ⟨rfl, fun h => by cases h⟩
  · exact upholds_checkValues changes s'

/-! ### Staging -/

/-- A set stages its value and nothing else, and does so if it succeeds. -/
theorem exec_set {key value : String} {e : Fault} {s s' : Store} {r : Except String Unit}
    (h : Store.exec drops (.set key value) e s = some (r, s')) :
    s'.live = s.live ∧ (∀ k, k ≠ key → s'.staged k = s.staged k) ∧
      (r = .ok () → s'.staged key = some (utf8 value)) := by
  have hstage : (s.stage key value).live = s.live ∧
      (∀ k, k ≠ key → (s.stage key value).staged k = s.staged k) ∧
      (s.stage key value).staged key = some (utf8 value) :=
    ⟨rfl, fun k hk => Function.update_of_ne hk _ _, Function.update_self _ _ _⟩
  simp only [Store.exec] at h
  split at h
  · cases h
    exact ⟨hstage.1, hstage.2.1, fun _ => hstage.2.2⟩
  · cases h
    exact ⟨rfl, fun _ _ => rfl, fun h => by cases h⟩
  · cases h
    exact ⟨hstage.1, hstage.2.1, fun h => by cases h⟩
  · cases h

/-- The values are staged, each under its own key. -/
structure Staged (changes : List Change) (value : Change → String) (s s' : Store) : Prop where
  live : s'.live = s.live
  others : ∀ k, k ∉ changes.map Change.key → s'.staged k = s.staged k

/-- One more value in front. -/
theorem Staged.cons {change : Change} {rest : List Change} {value : Change → String}
    {s s₁ s' : Store} (hlive : s₁.live = s.live)
    (hothers : ∀ k, k ≠ change.key → s₁.staged k = s.staged k) (h : Staged rest value s₁ s') :
    Staged (change :: rest) value s s' where
  live := h.live.trans hlive
  others k hk := by
    rw [List.map_cons, List.mem_cons, not_or] at hk
    rw [h.others k hk.2, hothers k hk.1]

theorem upholds_setAll {changes : List Change} (hkeys : (changes.map Change.key).Nodup)
    (s : Store) :
    Does drops (setAll changes) s fun r s' => Staged changes Change.after s s' ∧
      (r = .ok () → ∀ c ∈ changes, s'.staged c.key = some (utf8 c.after)) := by
  induction changes generalizing s with
  | nil => exact .pure trivial ⟨⟨rfl, fun _ _ => rfl⟩, fun _ c hc => by cases hc⟩
  | cons change rest ih =>
    rw [List.map_cons, List.nodup_cons] at hkeys
    refine .act trivial fun e r s₁ _ he => ?_
    obtain ⟨hlive, hothers, hset⟩ := exec_set he
    split
    · refine .pure trivial ⟨⟨hlive, fun k hk => hothers k ?_⟩, fun h => by cases h⟩
      rintro rfl
      exact hk List.mem_cons_self
    · refine (ih hkeys.2 s₁).mono fun r s' _ h => ⟨h.1.cons hlive hothers, fun hok c hc => ?_⟩
      rcases List.mem_cons.mp hc with rfl | hc
      · -- The later keys are other keys.
        rw [h.1.others c.key hkeys.1]
        exact hset rfl
      · exact h.2 hok c hc

theorem upholds_setBack {changes : List Change} (hkeys : (changes.map Change.key).Nodup)
    (s : Store) :
    Does drops (setBack changes) s fun errors s' => Staged changes Change.before s s' ∧
      (errors = [] → ∀ c ∈ changes, s'.staged c.key = some (utf8 c.before)) := by
  induction changes generalizing s with
  | nil => exact .pure trivial ⟨⟨rfl, fun _ _ => rfl⟩, fun _ c hc => by cases hc⟩
  | cons change rest ih =>
    rw [List.map_cons, List.nodup_cons] at hkeys
    refine .act trivial fun e r s₁ _ he => ?_
    obtain ⟨hlive, hothers, hset⟩ := exec_set he
    refine .bind (ih hkeys.2 s₁) fun errors s' _ h => ?_
    refine .pure trivial ⟨h.1.cons hlive hothers, fun hnone c hc => ?_⟩
    obtain ⟨hfirst, hrest⟩ := List.append_eq_nil_iff.mp hnone
    rcases List.mem_cons.mp hc with rfl | hc
    · rw [h.1.others c.key hkeys.1]
      refine hset ?_
      cases r with
      | error _ => cases hfirst
      | ok _ => rfl
    · exact h.2 hrest c hc

/-! ### Committing -/

/-- An option on its way: staged while its package is still to be committed, in force after that. -/
def Lands (drops : Bool) (packages : List String) (s : Store) (key value : String) : Prop :=
  if configOf key ∈ packages then s.staged key = some (utf8 value)
  else s.live key = put drops (utf8 value)

/-- A commit brings it home, or one package nearer. -/
theorem Lands.commit {config : String} {rest : List String} {s : Store} {key value : String}
    (h : Lands drops (config :: rest) s key value) (hnew : config ∉ rest) :
    Lands drops rest (s.commit drops config) key value := by
  unfold Lands at h ⊢
  by_cases hkey : configOf key = config
  · subst hkey
    rw [if_pos List.mem_cons_self] at h
    rw [if_neg hnew]
    simp [Store.commit, h]
  · have hmem : configOf key ∈ config :: rest ↔ configOf key ∈ rest := by
      simp [hkey]
    simp only [hmem] at h
    simpa only [Store.commit, hkey, if_false] using h

/-- A commit that succeeds. -/
theorem exec_commit {config : String} {e : Fault} {s s' : Store}
    (h : Store.exec drops (.commit config) e s = some (.ok (), s')) :
    s' = s.commit drops config := by
  simp only [Store.exec] at h
  split at h <;> cases h
  rfl

theorem exec_reload {e : Fault} {s s' : Store} {r : Except String Unit}
    (h : Store.exec drops .reload e s = some (r, s')) : s' = s := by
  simp only [Store.exec] at h
  split at h <;> cases h <;> rfl

/-- Once every package is committed, the values are in force. -/
theorem upholds_commitAll {packages : List String} (hpackages : packages.Nodup)
    {changes : List Change} {value : Change → String} {s : Store}
    (h : ∀ c ∈ changes, Lands drops packages s c.key (value c)) :
    Does drops (commitAll packages) s fun r s' =>
      r = .ok () → ∀ c ∈ changes, s'.live c.key = put drops (utf8 (value c)) := by
  induction packages generalizing s with
  | nil =>
    refine ⟨trivial, fun e r s' _ he => ⟨trivial, fun _ c hc => ?_⟩⟩
    obtain rfl := exec_reload he
    exact h c hc
  | cons config rest ih =>
    rw [List.nodup_cons] at hpackages
    refine .act trivial fun e r s₁ _ he => ?_
    split
    · exact .pure trivial fun h => by cases h
    · obtain rfl := exec_commit he
      exact ih hpackages.2 fun c hc => (h c hc).commit hpackages.1

/-- The same where every package is committed whatever became of the others. -/
theorem upholds_commitBack {packages : List String} (hpackages : packages.Nodup)
    {changes : List Change} {value : Change → String} {s : Store} (good : Bool)
    (h : good = true → ∀ c ∈ changes, Lands drops packages s c.key (value c)) :
    Does drops (commitBack packages) s fun errors s' =>
      good = true → errors = [] → ∀ c ∈ changes, s'.live c.key = put drops (utf8 (value c)) := by
  induction packages generalizing s good with
  | nil =>
    refine .act trivial fun e r s' _ he => .pure trivial fun hgood _ c hc => ?_
    obtain rfl := exec_reload he
    exact h hgood c hc
  | cons config rest ih =>
    rw [List.nodup_cons] at hpackages
    refine .act trivial fun e r s₁ _ he => ?_
    -- A commit that failed has an error, and then nothing is claimed.
    refine .bind (ih hpackages.2 (good && r.isOk) ?_) fun errors s' _ h' => ?_
    · intro hboth c hc
      obtain ⟨hgood, hok⟩ := Bool.and_eq_true_iff.mp hboth
      cases r with
      | error _ => cases hok
      | ok _ =>
        obtain rfl := exec_commit he
        exact (h hgood c hc).commit hpackages.1
    · refine .pure trivial fun hgood hnone => ?_
      obtain ⟨hfirst, hrest⟩ := List.append_eq_nil_iff.mp hnone
      cases r with
      | error _ => cases hfirst
      | ok _ => exact h' (by simp [hgood, Except.isOk, Except.toBool]) hrest

theorem nodup_configs (changes : List Change) : (configs changes).Nodup :=
  (List.perm_insertionSort _ _).nodup_iff.mpr (List.nodup_dedup _)

theorem configOf_mem_configs {changes : List Change} {c : Change} (hc : c ∈ changes) :
    configOf c.key ∈ configs changes := by
  rw [configs, List.mem_insertionSort, List.mem_dedup]
  exact List.mem_map_of_mem hc

/-! ### The transaction -/

/-- What the options hold in the end. -/
structure Outcome (drops : Bool) (changes : List Change) (s s' : Store) (r : Except Failure Unit) :
    Prop where
  passed : (∀ error, r ≠ .error (.early error)) → Passes changes s
  ok : r = .ok () → ∀ c ∈ changes, s'.live c.key = put drops (utf8 c.after)
  early : ∀ error, r = .error (.early error) → s'.live = s.live
  restored : ∀ error, r = .error (.restored error) →
    ∀ c ∈ changes, s'.live c.key = put drops (utf8 c.before)

section Ends

variable {changes : List Change} {s s' : Store} {error : String}

/-- An end before anything is committed. -/
theorem Outcome.of_early (h : s'.live = s.live) :
    Outcome drops changes s s' (.error (.early error)) where
  passed hne := absurd rfl (hne error)
  ok h := by cases h
  early _ _ := h
  restored _ h := by cases h

theorem Outcome.of_restored (hpasses : Passes changes s)
    (h : ∀ c ∈ changes, s'.live c.key = put drops (utf8 c.before)) :
    Outcome drops changes s s' (.error (.restored error)) where
  passed _ := hpasses
  ok h := by cases h
  early _ h := by cases h
  restored _ _ := h

theorem Outcome.of_attention {errors : List String} (hpasses : Passes changes s) :
    Outcome drops changes s s' (.error (.attention error errors)) where
  passed _ := hpasses
  ok h := by cases h
  early _ h := by cases h
  restored _ h := by cases h

theorem Outcome.of_ok (hpasses : Passes changes s)
    (h : ∀ c ∈ changes, s'.live c.key = put drops (utf8 c.after)) :
    Outcome drops changes s s' (.ok ()) where
  passed _ := hpasses
  ok _ := h
  early _ h := by cases h
  restored _ h := by cases h

end Ends

theorem upholds_restore {changes : List Change} (hkeys : (changes.map Change.key).Nodup)
    (error : String) {s : Store} (s₁ : Store) (hpasses : Passes changes s) :
    Does drops (restore changes error) s₁ fun r s' => Outcome drops changes s s' r := by
  refine .bind (upholds_setBack hkeys s₁) fun sets s₂ _ hsets => ?_
  have hlands : sets.isEmpty = true → ∀ c ∈ changes,
      Lands drops (configs changes) s₂ c.key c.before := by
    intro hgood c hc
    unfold Lands
    rw [if_pos (configOf_mem_configs hc)]
    exact hsets.2 (List.isEmpty_iff.mp hgood) c hc
  refine .bind (upholds_commitBack (nodup_configs changes) _ hlands) fun commits s₃ _ hcommits => ?_
  split
  · rename_i hnone
    obtain ⟨hno, hnone⟩ := List.append_eq_nil_iff.mp hnone
    exact .pure trivial (.of_restored hpasses (hcommits (List.isEmpty_iff.mpr hno) hnone))
  · exact .pure trivial (.of_attention hpasses)

/-- What `execute` leaves, however its calls end. -/
theorem upholds_execute {changes : List Change} (hkeys : (changes.map Change.key).Nodup)
    (s : Store) :
    Does drops (execute changes) s fun r s' => Outcome drops changes s s' r := by
  refine .bind (upholds_check changes s) fun r s₁ _ h => ?_
  obtain ⟨rfl, hpasses⟩ := h
  split
  · exact .pure trivial (.of_early rfl)
  · refine .bind (upholds_setAll hkeys s₁) fun r s₂ _ h => ?_
    obtain ⟨hstaged, hset⟩ := h
    split
    · exact .pure trivial (.of_early hstaged.live)
    · refine .bind (upholds_check changes s₂) fun r s₃ _ h => ?_
      obtain ⟨rfl, -⟩ := h
      split
      · exact .pure trivial (.of_early hstaged.live)
      · have hlands : ∀ c ∈ changes, Lands drops (configs changes) s₃ c.key c.after := by
          intro c hc
          unfold Lands
          rw [if_pos (configOf_mem_configs hc)]
          exact hset rfl c hc
        refine .bind (upholds_commitAll (nodup_configs changes) hlands) fun r s₄ _ h => ?_
        split
        · exact upholds_restore hkeys _ s₄ (hpasses rfl)
        · exact .pure trivial (.of_ok (hpasses rfl) (h rfl))

/-! ### Both ends are reached -/

/-- Some calls end so that the program comes to this result. -/
abbrev Ends {α : Type} (drops : Bool) (p : Program Call α) (s : Store) (r : α) (s' : Store) :
    Prop :=
  p.Yields (Store.exec drops) s r s'

theorem ends_checkConfigs (packages : List String) (s : Store) :
    Ends drops (checkConfigs packages) s (.ok ()) s := by
  induction packages with
  | nil => exact .pure
  | cons config rest ih =>
    refine .act (e := .none) (r := .ok true) rfl ?_
    exact ih

theorem ends_checkValues {changes : List Change} {s : Store} (h : Passes changes s) :
    Ends drops (checkValues changes) s (.ok ()) s := by
  induction changes with
  | nil => exact .pure
  | cons change rest ih =>
    obtain ⟨value, hvalue, htext⟩ := h change List.mem_cons_self
    have hget : Ends drops (uciGet change.key) s (.ok change.before) s := by
      have hread : Store.exec drops (.get change.key) .none s = some (.ok (getOutput value),
        s) := by
        simp only [Store.exec, hvalue]
      refine .act hread ?_
      rw [← htext]
      exact .pure
    refine .bind hget ?_
    simp only [ne_eq, not_true_eq_false, if_false]
    exact ih fun c hc => h c (List.mem_cons_of_mem _ hc)

theorem ends_check {changes : List Change} {s : Store} (h : Passes changes s) :
    Ends drops (check changes) s (.ok ()) s :=
  .bind (ends_checkConfigs _ s) (ends_checkValues h)

variable (drops)

theorem ends_setAll (changes : List Change) (s : Store) :
    ∃ s', s'.live = s.live ∧ Ends drops (setAll changes) s (.ok ()) s' := by
  induction changes generalizing s with
  | nil => exact ⟨s, rfl, .pure⟩
  | cons change rest ih =>
    obtain ⟨s', hlive, hends⟩ := ih (s.stage change.key change.after)
    refine ⟨s', hlive, .act (e := .none) (r := .ok ()) rfl ?_⟩
    exact hends

theorem ends_setBack (changes : List Change) (s : Store) :
    ∃ s', Ends drops (setBack changes) s [] s' := by
  induction changes generalizing s with
  | nil => exact ⟨s, .pure⟩
  | cons change rest ih =>
    obtain ⟨s', hends⟩ := ih (s.stage change.key change.before)
    exact ⟨s', .act (e := .none) rfl (.bind hends .pure)⟩

/-- The packages are committed; the reload ends as `e` says. -/
theorem ends_commitAll {e : Fault} {r : Except String Unit}
    (he : ∀ s, Store.exec drops .reload e s = some (r, s)) (packages : List String) (s : Store) :
    ∃ s', Ends drops (commitAll packages) s r s' := by
  induction packages generalizing s with
  | nil => exact ⟨s, e, r, s, he s, .pure⟩
  | cons config rest ih =>
    obtain ⟨s', hends⟩ := ih (s.commit drops config)
    refine ⟨s', .act (e := .none) (r := .ok ()) rfl ?_⟩
    exact hends

theorem ends_commitBack (packages : List String) (s : Store) :
    ∃ s', Ends drops (commitBack packages) s [] s' := by
  induction packages generalizing s with
  | nil => exact ⟨s, .act (e := .none) rfl .pure⟩
  | cons config rest ih =>
    obtain ⟨s', hends⟩ := ih (s.commit drops config)
    exact ⟨s', .act (e := .none) rfl (.bind hends .pure)⟩

/-- A request that passes the check reaches the commits. -/
theorem ends_execute {changes : List Change} {s : Store} (h : Passes changes s)
    {r : Except Failure Unit}
    (hcommit : ∀ s₁ : Store, ∃ s', Ends drops (commitOrRestore changes) s₁ r s') :
    ∃ s', Ends drops (execute changes) s r s' := by
  obtain ⟨s₁, hlive, hset⟩ := ends_setAll drops changes s
  have h₁ : Passes changes s₁ := by
    intro c hc
    rw [hlive]
    exact h c hc
  obtain ⟨s', hends⟩ := hcommit s₁
  exact ⟨s', .bind (ends_check h) (.bind hset (.bind (ends_check h₁) hends))⟩

/-- It can succeed. -/
theorem ends_execute_ok {changes : List Change} {s : Store} (h : Passes changes s) :
    ∃ s', Ends drops (execute changes) s (.ok ()) s' := by
  refine ends_execute drops h fun s₁ => ?_
  obtain ⟨s', hends⟩ :=
    ends_commitAll drops (e := .none) (fun _ => rfl) (configs changes) s₁
  exact ⟨s', .bind hends .pure⟩

/-- The reload can fail, and the restoration succeed. -/
theorem ends_execute_restored {changes : List Change} {s : Store} (h : Passes changes s) :
    ∃ s', Ends drops (execute changes) s (.error (.restored "reload failed")) s' := by
  refine ends_execute drops h fun s₁ => ?_
  obtain ⟨s₂, hcommit⟩ := ends_commitAll drops (e := .failed "reload failed")
    (fun _ => rfl) (configs changes) s₁
  obtain ⟨s₃, hsets⟩ := ends_setBack drops changes s₂
  obtain ⟨s₄, hcommits⟩ := ends_commitBack drops (configs changes) s₃
  exact ⟨s₄, .bind hcommit (.bind hsets (.bind hcommits .pure))⟩

end Calls

/-- **A transaction is atomic**, however its calls end, exactly when the check refuses it, or
setting each option to the text it was planned on brings back the bytes it held, and no requested
value is dropped for being empty. -/
theorem execute_atomic (drops : Bool) (changes : List Change) (s : Store)
    (hkeys : (changes.map Change.key).Nodup) :
    AlwaysAtomic drops changes s ↔ (Passes changes s → Exact drops changes s) := by
  constructor
  · intro h hpasses c hc
    have houtcome : ∀ {answers r s'},
        (execute changes).play (Store.exec drops) answers s = some (some r, s') →
        Outcome drops changes s s' r := fun hplay =>
      ((upholds_execute hkeys s).play (fun _ _ => rfl) hplay).2 _ rfl
    constructor
    · obtain ⟨s', hends⟩ := ends_execute_restored drops hpasses
      obtain ⟨answers, hplay⟩ := hends.play
      rw [← (houtcome hplay).restored _ rfl c hc]
      exact (h _ _ _ hplay).undone _ rfl rfl c hc
    · obtain ⟨s', hends⟩ := ends_execute_ok drops hpasses
      obtain ⟨answers, hplay⟩ := hends.play
      rw [← (houtcome hplay).ok rfl c hc]
      exact (h _ _ _ hplay).done rfl c hc
  · intro hexact answers r s' hplay
    have houtcome : Outcome drops changes s s' r :=
      ((upholds_execute hkeys s).play (fun _ _ => rfl) hplay).2 _ rfl
    constructor
    · intro hok c hc
      have hpasses : Passes changes s := houtcome.passed (by rw [hok]; intro error h; cases h)
      rw [houtcome.ok hok c hc]
      exact (hexact hpasses c hc).2
    · intro f hf hquiet c hc
      cases f with
      | early error => rw [houtcome.early error hf]
      | restored error =>
        have hpasses : Passes changes s := houtcome.passed (by rw [hf]; intro error h; cases h)
        rw [houtcome.restored error hf c hc]
        exact (hexact hpasses c hc).1
      | attention error errors => cases hquiet

/-! ### A name that is a text, and one that is not -/

namespace Sample

/-- A new name for the 2.4 GHz network. -/
def rename (before : String) : Change where
  key := "wireless.main_2g.ssid"
  before := before
  after := "home"

/-- A store in which the network has this name. -/
def named (value : Bytes) : Store where
  live key := if key = "wireless.main_2g.ssid" then some value else none

/-- `Café`, as a firmware that writes Latin-1 stores it. -/
def latin : Bytes := [0x43, 0x61, 0x66, 0xE9]

theorem passes_latin : Passes [rename "Caf\uFFFD"] (named latin) := by
  intro c hc
  obtain rfl := List.mem_singleton.mp hc
  refine ⟨latin, rfl, ?_⟩
  have hchars : lossyChars (getOutput latin) = ['C', 'a', 'f', replacement, '\n'] := by
    show lossyChars [0x43, 0x61, 0x66, 0xE9, 0x0A] = _
    rw [lossyChars_cons_ascii (by decide), lossyChars_cons_ascii (by decide),
      lossyChars_cons_ascii (by decide), lossyChars_broken (by decide) (by decide),
      lossyChars_cons_ascii (by decide), lossyChars]
    rfl
  rw [getText, fromUtf8Lossy, hchars]
  decide

theorem passes_text : Passes [rename "old"] (named (utf8 "old")) := by
  intro c hc
  obtain rfl := List.mem_singleton.mp hc
  refine ⟨utf8 "old", rfl, ?_⟩
  have hchars : lossyChars (getOutput (utf8 "old")) = ['o', 'l', 'd', '\n'] := by
    rw [getOutput, lossyChars_ascii (by decide), lossyChars_utf8, lossyChars]
    decide
  rw [getText, fromUtf8Lossy, hchars]
  decide

end Sample

open Sample in
/-- A name that is plain text is kept or changed. -/
theorem execute_atomic_sample : Passes [rename "old"] (named (utf8 "old")) ∧
    AlwaysAtomic true [rename "old"] (named (utf8 "old")) := by
  refine ⟨passes_text, (execute_atomic true [rename "old"] _ (by simp)).mpr fun _ c hc => ?_⟩
  obtain rfl := List.mem_singleton.mp hc
  exact ⟨by decide, by decide⟩

open Sample in
/-- A name that is not UTF-8 is replaced by its text, and the error says that the previous
configuration was restored. -/
theorem name_lost : ¬ ∀ drops changes s, (changes.map Change.key).Nodup →
    AlwaysAtomic drops changes s := by
  intro h
  have hkeys : ([rename "Caf\uFFFD"].map Change.key).Nodup := by simp
  obtain ⟨s', hends⟩ := ends_execute_restored true passes_latin
  obtain ⟨answers, hplay⟩ := hends.play
  have hkept := (h true _ (named latin) hkeys answers _ s' hplay).undone _ rfl rfl _
    List.mem_cons_self
  have houtcome : Outcome true [rename "Caf\uFFFD"] (named latin) s' _ :=
    ((upholds_execute hkeys (named latin)).play (fun _ _ => rfl) hplay).2 _ rfl
  rw [houtcome.restored _ rfl _ List.mem_cons_self] at hkept
  exact absurd hkept (by decide)

end OpenUI.Agent.UciTransaction
