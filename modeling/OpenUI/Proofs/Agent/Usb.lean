import OpenUI.Agent.Usb

/-!
# `OpenUI.Proofs.Agent.Usb`: snapshots of the gadget, and the steps of a restoration

* `capture_lawful`: what holds of every snapshot that was captured.
* `restoreWith_order`, `restoreWith_ok_iff`, `restoreWith_reports`: over whatever does the steps, a
  restoration tries all of them in their order, and it succeeds when each of them does.
-/

set_option autoImplicit false

namespace OpenUI.Agent.Usb

open OpenUI.Attempts OpenUI.Text

/-! ### Snapshots -/

namespace GadgetSnapshot

/-- What `capture` sees to: no attribute or link twice, the controller is not among the
attributes, the links are functions, and the interfaces are USB's. -/
structure Lawful (s : GadgetSnapshot) : Prop where
  attributes_nodup : (s.attributes.map Prod.fst).Nodup
  attributes_ne : ∀ a ∈ s.attributes, a.1 ≠ udcPath
  links_functions : ∀ l ∈ s.links, startsWith (fileName l.1) "f" = true
  links_nodup : (s.links.map Prod.fst).Nodup
  bridge_usb : ∀ m ∈ s.bridge, isUsbInterface m = true
  bridge_nodup : s.bridge.Nodup

/-- What several reads find comes from the things that were read, in their order. -/
theorem collect_sublist {α β γ : Type} (read : α → Except String (Option β)) (key : α → γ)
    (name : β → γ) (hread : ∀ a b, read a = .ok (some b) → name b = key a) (items : List α)
    (found : List β) (h : collect read items = .ok found) :
    (found.map name).Sublist (items.map key) := by
  induction items generalizing found with
  | nil =>
    obtain rfl : [] = found := Except.ok.inj h
    exact List.Sublist.refl _
  | cons a rest ih =>
    rw [collect] at h
    split at h
    · cases h
    · rename_i first hfirst
      split at h
      · cases h
      · rename_i more hmore
        obtain rfl : first.toList ++ more = found := Except.ok.inj h
        cases first with
        | none => exact (ih more hmore).cons _
        | some b =>
          have hname : name b = key a := hread a b hfirst
          simp only [Option.toList_some, List.singleton_append, List.map_cons, hname]
          exact (ih more hmore).cons_cons _

/-- What several reads find, each was read. -/
theorem mem_collect {α β : Type} (read : α → Except String (Option β)) (items : List α)
    (found : List β) (h : collect read items = .ok found) (b : β) (hb : b ∈ found) :
    ∃ a ∈ items, read a = .ok (some b) := by
  induction items generalizing found with
  | nil =>
    obtain rfl : [] = found := Except.ok.inj h
    cases hb
  | cons a rest ih =>
    rw [collect] at h
    split at h
    · cases h
    · rename_i first hfirst
      split at h
      · cases h
      · rename_i more hmore
        obtain rfl : first.toList ++ more = found := Except.ok.inj h
        rcases List.mem_append.mp hb with hb | hb
        · obtain rfl : first = some b := Option.mem_toList.mp hb
          exact ⟨a, List.mem_cons_self, hfirst⟩
        · obtain ⟨c, hc, hread⟩ := ih more hmore hb
          exact ⟨c, List.mem_cons_of_mem _ hc, hread⟩

variable {fails : Call → Option String} {d : Device}

/-- An attribute is found under its own path. -/
theorem captureAttribute_eq {suffix : String} {a : String × String}
    (h : captureAttribute fails d suffix = .ok (some a)) : a.1 = gadgetDir ++ "/" ++ suffix := by
  unfold captureAttribute at h
  dsimp only at h
  split at h
  · cases h
  · cases h
  · cases h
  · rw [← Option.some.inj (Except.ok.inj h)]

/-- A link is found under its own path, and it is a function. -/
theorem captureLink_eq {e : String × Option String} {l : String × String}
    (h : captureLink fails e = .ok (some l)) :
    l.1 = e.1 ∧ startsWith (fileName e.1) "f" = true := by
  unfold captureLink at h
  split at h
  · cases h
  · split_ifs at h with hname
    · split at h
      · cases h
      · cases h
      · split at h
        · cases h
        · rw [← Option.some.inj (Except.ok.inj h)]
          exact ⟨rfl, hname⟩
    · cases h

/-- The paths of the attributes are apart from each other and from the controller's. -/
theorem attributePaths_nodup :
    (udcPath :: attributeSuffixes.map fun suffix => gadgetDir ++ "/" ++ suffix).Nodup := by
  decide

variable (fails d) in
/-- A snapshot that was captured. -/
theorem capture_lawful {s : GadgetSnapshot} (h : capture fails d = .ok s) : s.Lawful := by
  rw [capture] at h
  cases hudc : captureUdc fails d with
  | error e => rw [hudc] at h; cases h
  | ok udc =>
  cases hattributes : collect (captureAttribute fails d) attributeSuffixes with
  | error e => rw [hudc, hattributes] at h; cases h
  | ok attributes =>
  cases hlinks : captureLinks fails d with
  | error e => rw [hudc, hattributes, hlinks] at h; cases h
  | ok links =>
  cases hbridge : captureBridge fails d with
  | error e => rw [hudc, hattributes, hlinks, hbridge] at h; cases h
  | ok bridge =>
  rw [hudc, hattributes, hlinks, hbridge] at h
  obtain rfl : { udc, attributes, links, bridge } = s := Except.ok.inj h
  have hpaths := collect_sublist (captureAttribute fails d)
    (fun suffix => gadgetDir ++ "/" ++ suffix) Prod.fst (fun _ _ => captureAttribute_eq)
    attributeSuffixes attributes hattributes
  have hnodup := List.nodup_cons.mp attributePaths_nodup
  have hcollect : collect (captureLink fails) d.entries = .ok links := by
    rw [captureLinks] at hlinks
    split at hlinks
    · cases hlinks
    · split at hlinks
      · cases hlinks
      · cases hlinks
      · rename_i hfound
        rw [hfound, Except.ok.inj hlinks]
  have hmembers : ∃ members : List String,
      members.Nodup ∧ bridge = members.filter (isUsbInterface ·) := by
    rw [captureBridge] at hbridge
    split at hbridge
    · cases hbridge
    · rename_i members hread
      refine ⟨members, ?_, (Except.ok.inj hbridge).symm⟩
      unfold checkedBridgeMembers at hread
      split at hread
      · cases hread
      · cases hread
      · rw [← Except.ok.inj hread]
        exact (List.perm_insertionSort _ _).nodup_iff.mpr d.members_nodup
  obtain ⟨members, hunique, rfl⟩ := hmembers
  exact {
    attributes_nodup := hpaths.nodup hnodup.2
    attributes_ne := by
      intro a ha heq
      exact hnodup.1 (heq ▸ hpaths.subset (List.mem_map_of_mem ha))
    links_functions := by
      intro l hl
      obtain ⟨e, -, he⟩ := mem_collect (captureLink fails) d.entries links hcollect l hl
      rw [(captureLink_eq he).1]
      exact (captureLink_eq he).2
    links_nodup := (collect_sublist (captureLink fails) Prod.fst Prod.fst
      (fun _ _ h => (captureLink_eq h).1) d.entries links hcollect).nodup d.entries_nodup
    bridge_usb := fun m hm => (List.mem_filter.mp hm).2
    bridge_nodup := hunique.filter _ }

/-! ### The steps in their order -/

section Order

variable {σ : Type}

/-- A step, where only its error counts. -/
def perform (io : RestoreIo σ) : Action → σ → Except String Unit × σ
  | .write path value => io.write path value
  | .removeLinks => io.removeLinks
  | .link target path => io.link target path
  | .members => fun s => ((io.members s).1.map fun _ => (), (io.members s).2)
  | .removeMember member => io.removeMember member
  | .restoreMember member => io.restoreMember member

/-- The steps on the gadget. -/
def gadgetPlan (s : GadgetSnapshot) : List Action :=
  ([.write udcPath "", .removeLinks] : List Action) ++
    s.attributes.map (fun a => Action.write a.1 a.2) ++
    s.links.map (fun l => Action.link l.2 l.1) ++ ([.write udcPath s.udc] : List Action)

/-- The USB interfaces of a list that a snapshot does not have. -/
def strangers (s : GadgetSnapshot) (members : List String) : List String :=
  members.filter fun member => isUsbInterface member && !s.bridge.contains member

/-- The steps on a bridge with these members. -/
def bridgePlan (s : GadgetSnapshot) (members : List String) : List Action :=
  (s.strangers members).map .removeMember ++ s.bridge.map .restoreMember

/-- The members that were read, if they were. -/
def answered : Except String (List String) → List String
  | .ok members => members
  | .error _ => []

/-- The result of the steps, by their errors. -/
def report (errors : List String) : Except String Unit :=
  if errors = [] then .ok () else .error ("; ".intercalate errors)

/-- A recorded step is a step on the bench. -/
theorem perform_logged (io : Nat → RestoreIo σ) (action : Action) :
    perform (logged io) action = act action fun n => perform (io n) action := by
  funext b
  cases action with
  | members =>
    simp only [perform, logged, act]
    cases ((io b.log.length).members b.state).1 with
    | ok members => rfl
    | error e => rfl
  | write path value => rfl
  | removeLinks => rfl
  | link target path => rfl
  | removeMember member => rfl
  | restoreMember member => rfl

/-- `restoreWith` is one sequence of steps. -/
theorem restoreWith_eq (snapshot : GadgetSnapshot) (io : RestoreIo σ) (s : σ) :
    snapshot.restoreWith io s =
      (report (attempts ((snapshot.gadgetPlan ++ .members :: snapshot.bridgePlan (answered
          (io.members (attempts (snapshot.gadgetPlan.map (perform io)) ([], s)).2).1)).map
            (perform io)) ([], s)).1,
        (attempts ((snapshot.gadgetPlan ++ .members :: snapshot.bridgePlan (answered
          (io.members (attempts (snapshot.gadgetPlan.map (perform io)) ([], s)).2).1)).map
            (perform io)) ([], s)).2) := by
  have hgadget : snapshot.gadgetPlan.map (perform io) =
      [io.write udcPath "", io.removeLinks] ++
        snapshot.attributes.map (fun a => io.write a.1 a.2) ++
        snapshot.links.map (fun l => io.link l.2 l.1) ++ [io.write udcPath snapshot.udc] := by
    simp only [gadgetPlan, List.map_append, List.map_map, List.map_cons, List.map_nil, perform,
      Function.comp_def]
  have hbridge : ∀ members, (snapshot.bridgePlan members).map (perform io) =
      (members.filter fun member =>
          isUsbInterface member && !snapshot.bridge.contains member).map io.removeMember ++
        snapshot.bridge.map io.restoreMember := by
    intro members
    simp only [bridgePlan, strangers, List.map_append, List.map_map, perform, Function.comp_def]
  have hmembers : ∀ tried : List String × σ,
      attempt tried (perform io .members) =
        (tried.1 ++ (error? (io.members tried.2).1).toList, (io.members tried.2).2) := by
    intro tried
    simp only [attempt, perform]
    cases (io.members tried.2).1 with
    | ok members => rfl
    | error e => rfl
  rw [List.map_append, List.map_cons, attempts_append_cons, hmembers, hbridge, hgadget]
  rfl

/-- What a numbered step does. -/
def numbered (io : Nat → RestoreIo σ) (action : Action) (n : Nat) (s : σ) :
    Except String Unit × σ :=
  perform (io n) action s

/-- The steps that a restoration is made of: those on the bridge go by what is read of it. -/
def steps (snapshot : GadgetSnapshot) (io : Nat → RestoreIo σ) (s : σ) : List Action :=
  snapshot.gadgetPlan ++ .members :: snapshot.bridgePlan (answered
    ((io snapshot.gadgetPlan.length).members (ending (numbered io) snapshot.gadgetPlan 0 s)).1)

/-- A restoration that is recorded: all its steps are tried, each on what the one before left. -/
theorem restoreWith_logged (snapshot : GadgetSnapshot) (io : Nat → RestoreIo σ) (s : σ) :
    snapshot.restoreWith (logged io) { state := s, log := [] } =
      (report (outcomes (numbered io) (snapshot.steps io s) 0 s).reduceOption,
        { state := ending (numbered io) (snapshot.steps io s) 0 s
          log := (snapshot.steps io s).zip
            (outcomes (numbered io) (snapshot.steps io s) 0 s) }) := by
  have htried : ∀ plan : List Action,
      attempts (plan.map (perform (logged io))) ([], { state := s, log := [] }) =
        ((outcomes (numbered io) plan 0 s).reduceOption,
          { state := ending (numbered io) plan 0 s
            log := plan.zip (outcomes (numbered io) plan 0 s) }) := by
    intro plan
    have hact : plan.map (perform (logged io)) =
        plan.map fun action => act (id action) (numbered io action) :=
      List.map_congr_left fun action _ => perform_logged io action
    rw [hact, attempts_act, List.map_id]
    rfl
  have hlength : (snapshot.gadgetPlan.zip
      (outcomes (numbered io) snapshot.gadgetPlan 0 s)).length = snapshot.gadgetPlan.length := by
    rw [List.length_zip, length_outcomes, min_self]
  have hanswer : ((logged io).members (attempts (snapshot.gadgetPlan.map (perform (logged io)))
      ([], { state := s, log := [] })).2).1 =
        ((io snapshot.gadgetPlan.length).members
          (ending (numbered io) snapshot.gadgetPlan 0 s)).1 := by
    rw [htried]
    simp only [logged, act, hlength]
  rw [restoreWith_eq, hanswer, htried]
  rfl

/-- Every step is tried, in its order. -/
theorem restoreWith_order (snapshot : GadgetSnapshot) (io : Nat → RestoreIo σ) (s : σ) :
    (snapshot.restoreWith (logged io) { state := s, log := [] }).2.log.map Prod.fst =
      snapshot.steps io s := by
  rw [restoreWith_logged]
  exact List.map_fst_zip (by rw [length_outcomes])

/-- A restoration succeeds when all its steps do. -/
theorem restoreWith_ok_iff (snapshot : GadgetSnapshot) (io : Nat → RestoreIo σ) (s : σ) :
    (snapshot.restoreWith (logged io) { state := s, log := [] }).1 = .ok () ↔
      Succeeds (numbered io) (snapshot.steps io s) 0 s := by
  rw [restoreWith_logged, ← reduceOption_outcomes_eq_nil, report]
  split_ifs with h
  · exact iff_of_true rfl h
  · exact iff_of_false (by rintro ⟨⟩) h

/-- A step that fails makes the restoration fail. -/
theorem restoreWith_reports (snapshot : GadgetSnapshot) (io : Nat → RestoreIo σ) (s : σ)
    (step : Action × Option String)
    (hstep : step ∈ (snapshot.restoreWith (logged io) { state := s, log := [] }).2.log)
    (hfails : step.2 ≠ none) :
    (snapshot.restoreWith (logged io) { state := s, log := [] }).1 ≠ .ok () := by
  rw [ne_eq, restoreWith_ok_iff]
  intro hok
  rw [restoreWith_logged] at hstep
  exact hfails (hok step.2 (List.of_mem_zip hstep).2)

end Order

end GadgetSnapshot

end OpenUI.Agent.Usb
