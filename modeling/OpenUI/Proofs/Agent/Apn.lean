import OpenUI.Agent.Apn

/-!
# `OpenUI.Proofs.Agent.Apn`: when APN changes keep the connection

`router_apn_profiles_delete` asks for the list of the profiles, and in a later call for the
deletion. `unraced` says that no profile is enabled in between.

`router_apn_profiles_activate` reads the mode with `as_u64` only, and restores it only if it was
read and the call that set the mode did not fail. `Restorable` says when the mode is kept.

* `deletions_run`: in every run that is `unraced`, no enabled profile is deleted.
* `mode_kept_iff`: what an activation that fails leaves of the mode.
* `apn_changes_keep_connection`: both.
* `enabled_profile_deleted`: an activation between the two calls of a deletion.
-/

set_option autoImplicit false

namespace OpenUI.Agent.Apn

open OpenUI.Text OpenUI.Concurrency OpenUI.Agent.CsvUtils

-- The equations are stated here once, before the proofs that rewrite with them.
section
attribute [local simp] Request.stage
end

/-! ### The list of the profiles -/

/-- An id is recognised in every form. -/
theorem idMatches_idLeaf (form : Form) (id : String) : idMatches (idLeaf form id) id = true := by
  unfold idLeaf
  split
  · split
    · exact beq_self_eq_true id
    · exact beq_self_eq_true id
  · exact beq_self_eq_true id

/-- So is a flag that is set. -/
theorem flagged_flagLeaf (form : Form) : flagged (flagLeaf form true) = true := by
  cases form with
  | boolean => rfl
  | number | digit | word => decide +kernel

/-- The enabled profile is found in the list. -/
theorem apnProfileIsActive_listReply {f : Firmware} {id : String} (h : f.enabled = some id)
    (a : Answer) : apnProfileIsActive (f.listReply a) id = true := by
  refine List.any_eq_true.mpr ⟨_, List.mem_map_of_mem (f.listed id h), ?_⟩
  rw [Bool.and_eq_true]
  refine ⟨idMatches_idLeaf _ _, ?_⟩
  rw [h, beq_self_eq_true]
  exact flagged_flagLeaf _

/-! ### The order of the calls -/

/-- A profile is deleted only after it was found not to be active. -/
def Stage.allows (c : Stage) {β : Type} : Call β → Prop
  | .deleteManuApn id => c = .cleared id
  | _ => True

/-- A request starts in its own stage. -/
def regime : workers.Regime where
  ok c call := c.allows call
  facts _ _ _ := True
  pre request c := c = request.stage
  fin _ := True

/-- A part of a request keeps to the order. -/
abbrev Orderly {α : Type} (c : Stage) (p : Program Call α) : Prop :=
  regime.discipline.wp p (fun _ _ => True) c

/-- A deletion starts by looking whether its profile is active. -/
theorem stage_delete {body : Except String String} {id : String} (hid : requestedId body = .ok id) :
    (Request.delete body).stage = .deleting id := by
  rw [Request.stage, hid]

/-- No request has found a profile not to be active when it starts. -/
theorem stage_ne_cleared (request : Request) (id : String) : request.stage ≠ .cleared id := by
  intro h
  cases request with
  | activate body => cases h
  | delete body =>
    cases hid : requestedId body with
    | ok wanted =>
      rw [stage_delete hid] at h
      cases h
    | error e =>
      rw [Request.stage, hid] at h
      cases h

theorem orderly_delete (body : Except String String) :
    Orderly (Request.delete body).stage (routerApnProfilesDelete body) := by
  unfold routerApnProfilesDelete
  cases hid : requestedId body with
  | error e => exact trivial
  | ok id =>
    rw [stage_delete hid]
    refine ⟨trivial, fun list _ _ => ?_⟩
    cases list with
    | error e => exact trivial
    | ok data =>
      show regime.discipline.wp (if apnProfileIsActive data id then _ else _) _
        (if apnProfileIsActive data id then .other else .cleared id)
      split
      · exact trivial
      · refine ⟨rfl, fun deleted _ _ => ?_⟩
        cases deleted with
        | error e => exact trivial
        | ok data => exact trivial

theorem orderly_activate (body : Except String String) (c : Stage) :
    Orderly c (routerApnProfilesActivate body) := by
  unfold routerApnProfilesActivate
  cases requestedId body with
  | error e => exact trivial
  | ok id =>
    refine ⟨trivial, fun mode _ _ => ⟨trivial, fun set _ _ => ?_⟩⟩
    cases set with
    | error e => exact trivial
    | ok data =>
      refine ⟨trivial, fun activated _ _ => ?_⟩
      cases activated with
      | ok data => exact trivial
      | error e =>
        show Orderly c (if mode.toOption.bind Reply.apnMode = some 0 then _ else _)
        split
        · exact ⟨trivial, fun _ _ _ => trivial⟩
        · exact trivial

/-- Every request keeps the order. -/
theorem program_keeps : regime.Bodies := by
  intro request c hc
  obtain rfl : c = request.stage := hc
  cases request with
  | delete body =>
    refine (regime.discipline.wp_bind _ _ _ _).mpr ?_
    exact regime.discipline.wp_mono (orderly_delete body) fun _ _ h => h
  | activate body =>
    refine (regime.discipline.wp_bind _ _ _ _).mpr ?_
    exact regime.discipline.wp_mono (orderly_activate body _) fun _ _ h => h

/-! ### Every run -/

/-- No profile is enabled while the deletion of it is about to be asked for. -/
def unraced : Condition Call Stage World Answer Request where
  act _ cs _ call a := match call with
    | .enableManuApnId id => a.outcome == .refused || !cs.contains (.cleared id)
    | _ => true
  outside _ _ := true

/-- What was found not to be active still is not, and nothing that was enabled was deleted. -/
structure Spared (w : World) (cs : List Stage) : Prop where
  cleared : ∀ id, .cleared id ∈ cs → w.firmware.enabled ≠ some id
  asked : ∀ d ∈ w.asked, d.enabled = false

section Actions

variable {w : World} {cs : List Stage} {i : Nat} {c : Stage}

/-- A call that neither enables nor deletes, and after which the thread is in another stage. -/
theorem Spared.quiet (h : Spared w cs) {w' : World} {c' : Stage}
    (henabled : w'.firmware.enabled = w.firmware.enabled) (hasked : w'.asked = w.asked)
    (hnew : ∀ id, c' = .cleared id → w.firmware.enabled ≠ some id) :
    Spared w' (cs.set i c' ++ []) where
  cleared := by
    intro id hmem
    rw [henabled]
    rcases Pool.mem_update hmem with heq | ⟨j, -, hj⟩ | hnil
    · exact hnew id heq.symm
    · exact h.cleared id (List.mem_of_getElem? hj)
    · exact absurd hnil List.not_mem_nil
  asked := by
    rw [hasked]
    exact h.asked

/-- The stage after the list was read. -/
theorem cleared_after_list {f : Firmware} {a : Answer} {id : String}
    (h : c.after .getManuApnList (resultOf f a .getManuApnList) = .cleared id) :
    f.enabled ≠ some id := by
  intro henabled
  have hactive := apnProfileIsActive_listReply henabled a
  by_cases ha : a.outcome = .done
  · have hresult : resultOf f a .getManuApnList = .ok (f.listReply a) := if_pos ha
    rw [hresult] at h
    cases c with
    | other | cleared _ => cases h
    | deleting wanted =>
      have hafter : (if apnProfileIsActive (f.listReply a) wanted then Stage.other
        else .cleared wanted) = .cleared id := h
      split at hafter
      · cases hafter
      · rename_i hinactive
        cases hafter
        exact hinactive hactive
  · have hresult : resultOf f a .getManuApnList = .error a.error := if_neg ha
    rw [hresult] at h
    cases c <;> cases h

/-- A call that leaves alone what is enabled and deleted. -/
theorem enabled_perform {β : Type} {call : Call β} (a : Answer)
    (h : (effect w.firmware call).enabled = w.firmware.enabled) :
    (perform call a w).2.firmware.enabled = w.firmware.enabled := by
  show (if a.outcome = .refused then w.firmware else effect w.firmware call).enabled = _
  split
  · rfl
  · exact h

/-- Every call a request may make keeps it, if no profile is enabled too late. -/
theorem spared_act {β : Type} {call : Call β} {a : Answer} (h : Spared w cs)
    (hc : cs[i]? = some c) (hok : c.allows call) (hK : unraced.act w cs c call a = true) :
    Spared (perform call a w).2 (cs.set i (c.after call (perform call a w).1) ++ []) := by
  have hold : ∀ id, c = .cleared id → w.firmware.enabled ≠ some id := by
    intro id heq
    exact h.cleared id (heq ▸ List.mem_of_getElem? hc)
  cases call with
  | getManuApnList =>
    refine h.quiet (enabled_perform a rfl) rfl fun id heq => ?_
    exact cleared_after_list heq
  | getApnMode => exact h.quiet (enabled_perform a rfl) rfl hold
  | setApnMode mode => exact h.quiet (enabled_perform a rfl) rfl hold
  | enableManuApnId enabled =>
    show Spared _ (cs.set i c ++ [])
    rw [Pool.set_self hc]
    refine ⟨fun id hmem => ?_, h.asked⟩
    show (if a.outcome = .refused then w.firmware else w.firmware.enable enabled).enabled ≠ some id
    split
    · exact h.cleared id hmem
    · rename_i hcarried
      intro heq
      cases heq
      -- Carried out, so `unraced` says that no thread is about to delete the profile.
      rcases Bool.or_eq_true _ _ ▸ hK with hrefused | hfree
      · exact hcarried (eq_of_beq hrefused)
      · rw [List.contains_iff_mem.mpr hmem] at hfree
        cases hfree
  | deleteManuApn deleted =>
    obtain rfl : c = .cleared deleted := hok
    have hspared := hold deleted rfl
    have henabled : (w.firmware.delete deleted).enabled = w.firmware.enabled := if_neg hspared
    have hquiet : Spared ⟨(perform (.deleteManuApn deleted) a w).2.firmware, w.asked⟩
        (cs.set i .other ++ []) := by
      refine h.quiet (enabled_perform a henabled) rfl fun id heq => ?_
      cases heq
    refine ⟨hquiet.cleared, fun d hd => ?_⟩
    rcases List.mem_cons.mp hd with rfl | hd
    · exact beq_eq_false_iff_ne.mpr hspared
    · exact h.asked d hd

end Actions

/-- No run that is `unraced` deletes an enabled profile. -/
theorem deletions_run {f : Firmware} {s : State Call Stage World Request}
    (h : workers.Run unraced (start f) s) : ∀ d ∈ s.world.asked, d.enabled = false := by
  have hstart : Spared ⟨f, []⟩ [] := by
    refine ⟨fun id hmem => ?_, fun d hd => ?_⟩
    · exact absurd hmem List.not_mem_nil
    · exact absurd hd List.not_mem_nil
  refine (Machine.sound regime program_keeps (I := Spared) ?_ ?_ hstart
    (fun _ ht => absurd ht List.not_mem_nil) h).1.asked
  · intro β w w' cs i c call a r hI hc hok hK he
    obtain ⟨rfl, rfl⟩ := Prod.mk.inj (Option.some.inj he)
    exact ⟨trivial, fun _ h => absurd h List.not_mem_nil, spared_act hI hc hok hK⟩
  · intro w cs request o hI _ ho
    obtain rfl := Option.some.inj ho
    refine ⟨fun bc hbc => ?_, fun id hmem => ?_, hI.asked⟩
    · obtain rfl := List.mem_singleton.mp hbc
      rfl
    · rcases List.mem_append.mp hmem with hmem | hmem
      · exact hI.cleared id hmem
      · exact absurd (List.mem_singleton.mp hmem).symm (stage_ne_cleared request id)

/-! ### An activation by itself -/

/-- The request failed. -/
def Response.failed : Response → Bool
  | .ok _ => false
  | .error _ _ => true

/-- An activation that runs alone. -/
def activation (body : Except String String) (answers : Nat → Answer) (w : World) :
    Response × World :=
  let r := (routerApnProfilesActivate body).interpret (alone answers) (0, w)
  (r.1, r.2.2)

/-- The mode is not changed, or it is read as a number, set without an error, and restored. -/
def Restorable (body : Except String String) (answers : Nat → Answer) (w : World) : Prop :=
  (∃ e, requestedId body = .error e) ∨ w.firmware.manual = true ∨ (answers 1).outcome = .refused ∨
    ((answers 1).outcome = .done ∧ (answers 0).outcome = .done ∧ (answers 0).modeForm = .number)

/-- The mode is read as a number or not at all. -/
theorem mode_read_iff (f : Firmware) (a : Answer) :
    (resultOf f a .getApnMode).toOption.bind Reply.apnMode = some 0 ↔
      a.outcome = .done ∧ a.modeForm = .number ∧ f.manual = false := by
  show (if a.outcome = .done then Except.ok (Reply.mode (flagLeaf a.modeForm f.manual))
    else Except.error a.error).toOption.bind Reply.apnMode = some 0 ↔ _
  by_cases hdone : a.outcome = .done
  · rw [if_pos hdone]
    show (flagLeaf a.modeForm f.manual).asU64 = some 0 ↔ _
    cases a.modeForm <;> cases f.manual <;> simp [hdone] <;> decide +kernel
  · rw [if_neg hdone]
    simp [hdone, Except.toOption]

/-- To read the mode changes nothing. -/
theorem perform_getApnMode (a : Answer) (w : World) : (perform .getApnMode a w).2 = w := by
  show World.mk (if a.outcome = .refused then w.firmware else w.firmware) w.asked = w
  rw [ite_self]

/-- The mode could not be set: nothing else is tried. -/
theorem activation_unset {body : Except String String} {id : String}
    (hid : requestedId body = .ok id) (answers : Nat → Answer) (w : World)
    (hset : (answers 1).outcome ≠ .done) :
    (activation body answers w).2 = (perform (.setApnMode 1) (answers 1) w).2 := by
  have hresult : (perform (.setApnMode 1) (answers 1) w).1 = .error (answers 1).error := if_neg hset
  unfold activation routerApnProfilesActivate
  rw [hid]
  simp only [Program.interpret_bind, Program.interpret_lift, alone, perform_getApnMode]
  rw [hresult]
  rfl

/-- The profile was refused: the mode is restored, if it was read. -/
theorem activation_set {body : Except String String} {id : String}
    (hid : requestedId body = .ok id) (answers : Nat → Answer) (w : World)
    (hset : (answers 1).outcome = .done)
    (hfailed : (activation body answers w).1.failed = true) :
    (activation body answers w).2 =
      let w' := (perform (.enableManuApnId id) (answers 2)
        (perform (.setApnMode 1) (answers 1) w).2).2
      if (perform .getApnMode (answers 0) w).1.toOption.bind Reply.apnMode = some 0 then
        (perform (.setApnMode 0) (answers 3) w').2
      else w' := by
  have hresult : ∃ data, (perform (.setApnMode 1) (answers 1) w).1 = .ok data := ⟨_, if_pos hset⟩
  obtain ⟨data, hresult⟩ := hresult
  unfold activation routerApnProfilesActivate at *
  rw [hid] at hfailed ⊢
  simp only [Program.interpret_bind, Program.interpret_lift, alone, perform_getApnMode,
    hresult] at hfailed ⊢
  cases henable : (perform (.enableManuApnId id) (answers 2)
      (perform (.setApnMode 1) (answers 1) w).2).1 with
  | ok data =>
    rw [henable] at hfailed
    cases hfailed
  | error e =>
    dsimp only
    split
    · rfl
    · rfl

/-- What an activation that fails leaves of the mode. -/
theorem mode_kept_iff (body : Except String String) (answers : Nat → Answer) (w : World)
    (hfailed : (activation body answers w).1.failed = true)
    (hrestore : (answers 3).outcome = .done) :
    (activation body answers w).2.firmware.manual = w.firmware.manual ↔
      Restorable body answers w := by
  unfold Restorable
  cases hid : requestedId body with
  | error e =>
    have hkept : (activation body answers w).2 = w := by
      unfold activation routerApnProfilesActivate
      rw [hid]
      rfl
    simp [hkept]
  | ok id =>
    cases hset : (answers 1).outcome with
    | refused =>
      rw [activation_unset hid answers w (by simp [hset])]
      have hkept : (perform (.setApnMode 1) (answers 1) w).2.firmware = w.firmware := if_pos hset
      simp [hkept]
    | lost =>
      rw [activation_unset hid answers w (by simp [hset])]
      have hmanual : (perform (.setApnMode 1) (answers 1) w).2.firmware = w.firmware.setMode 1 :=
        if_neg (by simp [hset])
      rw [hmanual]
      show true = w.firmware.manual ↔ _
      rw [eq_comm]
      simp
    | done =>
      have hend := activation_set hid answers w hset hfailed
      have hmanual : (perform (.setApnMode 1) (answers 1) w).2.firmware = w.firmware.setMode 1 :=
        if_neg (by simp [hset])
      have henabled : ∀ w' : World, (perform (.enableManuApnId id) (answers 2) w').2.firmware.manual =
          w'.firmware.manual := by
        intro w'
        show (if (answers 2).outcome = .refused then w'.firmware
          else w'.firmware.enable id).manual = _
        split
        · rfl
        · rfl
      have hrestored : ∀ w' : World, (perform (.setApnMode 0) (answers 3) w').2.firmware.manual =
          false := by
        intro w'
        show (if (answers 3).outcome = .refused then w'.firmware
          else w'.firmware.setMode 0).manual = false
        rw [if_neg (by simp [hrestore])]
        rfl
      have hread := mode_read_iff w.firmware (answers 0)
      by_cases h : (resultOf w.firmware (answers 0) .getApnMode).toOption.bind Reply.apnMode =
          some 0
      · rw [hend.trans (if_pos h)]
        obtain ⟨hdone, hform, hmode⟩ := hread.mp h
        rw [hrestored, hmode]
        exact iff_of_true rfl (.inr (.inr (.inr ⟨rfl, hdone, hform⟩)))
      · rw [hend.trans (if_neg h), henabled, hmanual]
        show true = w.firmware.manual ↔ _
        have hunread : ¬((answers 0).outcome = .done ∧ (answers 0).modeForm = .number ∧
          w.firmware.manual = false) := fun hr => h (hread.mpr hr)
        cases hmode : w.firmware.manual with
        | true => simp
        | false =>
          rw [hmode] at hunread
          simpa using hunread

/-! ### Both -/

/-- **The connection.** In every run in which no profile is enabled while a deletion of it is about
to be asked for, the firmware is never asked to delete the profile that is enabled at that moment.
An activation that runs alone and fails, and whose restoring call would succeed, leaves the mode as
it was exactly if its body is refused, the mode was manual before, the call that sets the mode was
refused, or that call succeeded and the mode had been reported as a number. -/
theorem apn_changes_keep_connection (f : Firmware) :
    (∀ s, workers.Run unraced (start f) s → ∀ d ∈ s.world.asked, d.enabled = false) ∧
    ∀ (body : Except String String) (answers : Nat → Answer) (w : World),
      (activation body answers w).1.failed = true → (answers 3).outcome = .done →
        ((activation body answers w).2.firmware.manual = w.firmware.manual ↔
          Restorable body answers w) :=
  ⟨fun _ h => deletions_run h, mode_kept_iff⟩

namespace Sample

/-- Two profiles, the first of them enabled, in automatic mode. -/
def firmware : Firmware where
  manual := false
  profiles := ["1", "2"]
  enabled := some "1"
  listed id h := by
    cases h
    decide

/-- A call that ends so, with every value reported in the same form. -/
def answer (outcome : Outcome) (form : Form) : Answer :=
  ⟨outcome, "ubus failed", form, fun _ => form, fun _ => form⟩

/-- A call that succeeds, made by a thread. -/
def call (i : Nat) : Event Answer Request := .thread i (answer .done .number)

/-- The firmware refuses to enable the profile, and reports the mode in this form. -/
def refusal (form : Form) (n : Nat) : Answer := answer (if n = 2 then .refused else .done) form

end Sample

open Sample in
/-- The second profile is deleted while the first is enabled, and one that is refused leaves the
mode as it was. -/
theorem inactive_profile_deleted :
    (∃ s, workers.Run unraced (start firmware) s ∧ s.world.asked = [⟨"2", false⟩] ∧
      ∀ d ∈ s.world.asked, d.enabled = false) ∧
    (activation (.ok "2") (refusal .number) ⟨firmware, []⟩).2.firmware.manual = false := by
  have hrun : (workers.run unraced (start firmware)
      [.outside (.delete (.ok "2")), call 0, call 0]).any
        (fun s => decide (s.world.asked = [⟨"2", false⟩])) = true := by
    decide +kernel
  obtain ⟨s, hs, hp⟩ := Machine.Run.exists_of_run hrun
  obtain ⟨hdeletions, hmode⟩ := apn_changes_keep_connection firmware
  refine ⟨⟨s, hs, of_decide_eq_true hp, hdeletions s hs⟩, ?_⟩
  refine (hmode (.ok "2") (refusal .number) ⟨firmware, []⟩ (by decide +kernel) rfl).mpr ?_
  exact .inr (.inr (.inr ⟨rfl, rfl, rfl⟩))

open Sample in
/-- The second profile is found not to be active, then it is enabled by another request, and then
it is deleted. And an activation whose firmware reports the mode as a text leaves it manual. -/
theorem enabled_profile_deleted :
    (∃ s, workers.Run .any (start firmware) s ∧ ⟨"2", true⟩ ∈ s.world.asked) ∧
    (activation (.ok "2") (refusal .digit) ⟨firmware, []⟩).1.failed = true ∧
    (refusal .digit 3).outcome = .done ∧
    (activation (.ok "2") (refusal .digit) ⟨firmware, []⟩).2.firmware.manual ≠
      firmware.manual := by
  have hrun : (workers.run .any (start firmware)
      [.outside (.delete (.ok "2")), call 0, .outside (.activate (.ok "2")), call 1, call 1,
        call 1, call 0]).any (fun s => decide (⟨"2", true⟩ ∈ s.world.asked)) = true := by
    decide +kernel
  obtain ⟨s, hs, hp⟩ := Machine.Run.exists_of_run hrun
  exact ⟨⟨s, hs, of_decide_eq_true hp⟩, by decide +kernel, rfl, by decide +kernel⟩

end OpenUI.Agent.Apn
