import OpenUI.Proofs.Agent.Usb

/-!
# `OpenUI.Proofs.Agent.UsbRestore`: the restoration of the device

The restoration on the real device, phase by phase: when the steps of a phase succeed (`Reports`
says which of them fail, by the calls that fail in a step of that number), and what they leave.
Two calls can fail unheard: `remove_config_links` passes over an entry that it cannot read, and
`remove_bridge_member` takes members that it cannot read for none.

* `gadget_phase`, `bridge_phase`, `plan_phase`: the phases.
* `restores_iff`: a restoration does what it is to do exactly when nothing is overlooked so, or
  something else is reported.
* `stray_kept`: a restoration that reports success and leaves an interface in the bridge.
-/

set_option autoImplicit false

namespace OpenUI.Agent.Usb

open OpenUI.Attempts OpenUI.Text

/-! ### Calls that fail -/

section Calls

variable (kernel : Kernel) (n : Nat)

/-- The bridge's members cannot be read in the step. -/
def Kernel.Blind : Prop := kernel.faults n .members ≠ none ∨ kernel.faults n .member ≠ none

/-- The command fails in the step. -/
def Kernel.Refuses (command : String) : Prop :=
  kernel.faults n (.exec command) ≠ none ∨ kernel.faults n (.status command) ≠ none

/-- The first removal sees the entry as a function. -/
def Kernel.Sees (e : String × Option String) : Prop :=
  isFunction e = true ∧ kernel.faults n (.entry e.1) = none ∧
    kernel.faults n (.readLink e.1) = none

instance : Decidable (kernel.Blind n) := inferInstanceAs (Decidable (_ ∨ _))

instance (command : String) : Decidable (kernel.Refuses n command) :=
  inferInstanceAs (Decidable (_ ∨ _))

instance (e : String × Option String) : Decidable (kernel.Sees n e) :=
  inferInstanceAs (Decidable (_ ∧ _ ∧ _))

variable {kernel n}

/-- A result without an error. -/
theorem error?_eq_none {ε α : Type} {r : Except ε α} : error? r = none ↔ ∃ a, r = .ok a := by
  cases r with
  | ok a => exact iff_of_true rfl ⟨a, rfl⟩
  | error e => exact iff_of_false (by rintro ⟨⟩) (by rintro ⟨a, ⟨⟩⟩)

variable (kernel n) in
/-- The members are read unless a call fails. -/
theorem checkedBridgeMembers_eq (d : Device) :
    (kernel.Blind n ∧ ∃ e, checkedBridgeMembers kernel n d = .error e) ∨
      ¬kernel.Blind n ∧
        checkedBridgeMembers kernel n d = .ok (d.members.insertionSort (· ≤ ·)) := by
  unfold checkedBridgeMembers Kernel.Blind
  cases hmembers : kernel.faults n .members with
  | some e => exact .inl ⟨.inl (by rintro ⟨⟩), _, rfl⟩
  | none =>
    cases hmember : kernel.faults n .member with
    | some e => exact .inl ⟨.inr (by rintro ⟨⟩), e, rfl⟩
    | none =>
      refine .inr ⟨?_, rfl⟩
      rintro (h | h)
      · exact h rfl
      · exact h rfl

/-- The members that are known: none when they cannot be read. -/
theorem mem_bridgeMembers {d : Device} {member : String} :
    member ∈ bridgeMembers kernel n d ↔ ¬kernel.Blind n ∧ member ∈ d.members := by
  unfold bridgeMembers
  rcases checkedBridgeMembers_eq kernel n d with ⟨hblind, e, heq⟩ | ⟨hsees, heq⟩
  · rw [heq]
    exact iff_of_false List.not_mem_nil fun h => h.1 hblind
  · rw [heq]
    simp only [List.mem_insertionSort, hsees, not_false_eq_true, true_and]

/-- A command works unless a call fails or the kernel refuses. -/
theorem runCommand_ok_iff {command : String} {args : List String} {refusal : Option String} :
    runCommand kernel n command args refusal = .ok () ↔
      ¬kernel.Refuses n command ∧ refusal = none := by
  unfold runCommand Kernel.Refuses
  cases kernel.faults n (.exec command) with
  | some e => simp
  | none =>
    cases kernel.faults n (.status command) with
    | some e => simp
    | none =>
      cases refusal with
      | none => simp
      | some e => simp

/-- A removal from the bridge, of an interface that is in it. -/
theorem removeBridgeMember_eq {d : Device} {member : String} (hin : member ∈ d.members) :
    (error? (removeBridgeMember kernel n member d).1 = none ↔
        ¬(¬kernel.Blind n ∧ kernel.Refuses n "brctl")) ∧
      (error? (removeBridgeMember kernel n member d).1 = none →
        (removeBridgeMember kernel n member d).2 =
          if kernel.Blind n then d else d.leave member) := by
  unfold removeBridgeMember
  by_cases hblind : kernel.Blind n
  · have hout : member ∉ bridgeMembers kernel n d := fun h => (mem_bridgeMembers.mp h).1 hblind
    simp only [hout, not_false_eq_true, if_true, hblind, not_true_eq_false, false_and, error?,
      forall_const, and_self]
  · have hseen : member ∈ bridgeMembers kernel n d := mem_bridgeMembers.mpr ⟨hblind, hin⟩
    simp only [hseen, not_true_eq_false, if_false, hblind, not_false_eq_true, true_and]
    cases hrun : runCommand kernel n "brctl" ["delif", "br-lan", member] none with
    | error e =>
      have hrefuses : kernel.Refuses n "brctl" := by
        by_contra h
        rw [runCommand_ok_iff.mpr ⟨h, rfl⟩] at hrun
        cases hrun
      simp only [error?, reduceCtorEq, hrefuses, not_true_eq_false, false_implies, and_self]
    | ok u =>
      have hworks : ¬kernel.Refuses n "brctl" := (runCommand_ok_iff.mp hrun).1
      simp only [error?, hworks, not_false_eq_true, forall_const, and_self]

variable (kernel n) in
/-- An addition to the bridge. -/
theorem addBridgeMember_eq (d : Device) (member : String) :
    (error? (addBridgeMember kernel n member d).1 = none ↔
        ¬(if member ∈ d.members then kernel.Blind n else kernel.Refuses n "brctl")) ∧
      (error? (addBridgeMember kernel n member d).1 = none →
        (addBridgeMember kernel n member d).2.members =
          if member ∈ d.members then d.members else d.members ++ [member]) ∧
      (addBridgeMember kernel n member d).2.files = d.files ∧
      (addBridgeMember kernel n member d).2.entries = d.entries := by
  unfold addBridgeMember
  by_cases hin : member ∈ d.members
  · by_cases hblind : kernel.Blind n
    · have hout : member ∉ bridgeMembers kernel n d := fun h => (mem_bridgeMembers.mp h).1 hblind
      have hrun : runCommand kernel n "brctl" ["addif", "br-lan", member]
          (some "Device or resource busy") ≠ .ok () :=
        fun h => by cases (runCommand_ok_iff.mp h).2
      rw [if_neg hout, dif_pos hin, if_pos hin]
      have herror : error? (runCommand kernel n "brctl" ["addif", "br-lan", member]
          (some "Device or resource busy")) ≠ none :=
        fun h => hrun (error?_eq_none.mp h).choose_spec
      exact ⟨iff_of_false herror (not_not_intro hblind), fun h => absurd h herror, rfl, rfl⟩
    · have hseen : member ∈ bridgeMembers kernel n d := mem_bridgeMembers.mpr ⟨hblind, hin⟩
      rw [if_pos hseen, if_pos hin, if_pos hin]
      exact ⟨iff_of_true rfl hblind, fun _ => rfl, rfl, rfl⟩
  · have hout : member ∉ bridgeMembers kernel n d := fun h => hin (mem_bridgeMembers.mp h).2
    rw [if_neg hout, dif_neg hin, if_neg hin, if_neg hin]
    cases hrun : runCommand kernel n "brctl" ["addif", "br-lan", member] none with
    | error e =>
      have hrefuses : kernel.Refuses n "brctl" := by
        by_contra h
        rw [runCommand_ok_iff.mpr ⟨h, rfl⟩] at hrun
        cases hrun
      exact ⟨iff_of_false (by rintro ⟨⟩) (not_not_intro hrefuses), by rintro ⟨⟩, rfl, rfl⟩
    | ok u =>
      have hworks : ¬kernel.Refuses n "brctl" := (runCommand_ok_iff.mp hrun).1
      exact ⟨iff_of_true rfl hworks, fun _ => rfl, rfl, rfl⟩

end Calls

/-! ### The configuration's links -/

section Links

variable {kernel : Kernel} {n : Nat}

/-- Two entries of a device under one path are one. -/
theorem Device.entries_inj {d : Device} {x y : String × Option String} (hx : x ∈ d.entries)
    (hy : y ∈ d.entries) (h : x.1 = y.1) : x = y :=
  List.inj_on_of_nodup_map d.entries_nodup hx hy h

variable (kernel n) in
/-- The loop removes the functions whose target can be read. -/
theorem removeEach_eq (es : List (String × Option String)) (d : Device) :
    (error? (removeEach kernel n es d).1 = none ↔
        ∀ e ∈ es, isFunction e ∧ kernel.faults n (.readLink e.1) = none →
          kernel.faults n (.removeFile e.1) = none) ∧
      (error? (removeEach kernel n es d).1 = none →
        ∀ x, x ∈ (removeEach kernel n es d).2.entries ↔
          x ∈ d.entries ∧
            ∀ e ∈ es, isFunction e ∧ kernel.faults n (.readLink e.1) = none → x.1 ≠ e.1) := by
  induction es generalizing d with
  | nil => simp [removeEach, error?]
  | cons e rest ih =>
    rw [removeEach, List.forall_mem_cons]
    split_ifs with htaken
    · cases hremove : kernel.faults n (.removeFile e.1) with
      | some text => simp [error?, htaken]
      | none =>
        obtain ⟨hok, hentries⟩ := ih (d.unlink e.1)
        refine ⟨by simpa using hok, fun h x => (hentries h x).trans ?_⟩
        simp only [Device.unlink, List.mem_filter, decide_eq_true_eq,
          List.forall_mem_cons, htaken, and_self, forall_const, and_assoc]
    · obtain ⟨hok, hentries⟩ := ih d
      refine ⟨by simpa [htaken] using hok, fun h x => (hentries h x).trans ?_⟩
      simp only [List.forall_mem_cons, htaken, false_implies, true_and]

/-- It touches nothing else. -/
theorem removeEach_frame (es : List (String × Option String)) (d : Device) :
    (removeEach kernel n es d).2.files = d.files ∧
      (removeEach kernel n es d).2.members = d.members := by
  induction es generalizing d with
  | nil => exact ⟨rfl, rfl⟩
  | cons e rest ih =>
    rw [removeEach]
    split_ifs
    · split
      · exact ⟨rfl, rfl⟩
      · exact ih (d.unlink e.1)
    · exact ih d

variable (kernel n) in
/-- The removal of the links takes away the functions that it sees. -/
theorem removeConfigLinks_eq (d : Device) :
    (error? (removeConfigLinks kernel n d).1 = none ↔
        ¬(kernel.faults n .readDir ≠ none ∨
          ∃ e ∈ d.entries, kernel.Sees n e ∧ kernel.faults n (.removeFile e.1) ≠ none)) ∧
      (error? (removeConfigLinks kernel n d).1 = none →
        ∀ x, x ∈ (removeConfigLinks kernel n d).2.entries ↔
          x ∈ d.entries ∧ ¬kernel.Sees n x) ∧
      (removeConfigLinks kernel n d).2.files = d.files ∧
      (removeConfigLinks kernel n d).2.members = d.members := by
  unfold removeConfigLinks
  cases hread : kernel.faults n .readDir with
  | some e => simp [error?]
  | none =>
    obtain ⟨hok, hentries⟩ := removeEach_eq kernel n
      (d.entries.filter fun e => kernel.faults n (.entry e.1) = none) d
    refine ⟨hok.trans ?_, fun h x => (hentries h x).trans (and_congr_right fun hx => ?_),
      removeEach_frame _ d⟩
    · simp only [List.mem_filter, decide_eq_true_eq, Kernel.Sees]
      grind
    · -- An entry under the same path is the same entry.
      constructor
      · intro hkept hsees
        exact hkept x (List.mem_filter.mpr ⟨hx, decide_eq_true hsees.2.1⟩)
          ⟨hsees.1, hsees.2.2⟩ rfl
      · intro hunseen e he htaken heq
        obtain ⟨hin, hentry⟩ := List.mem_filter.mp he
        obtain rfl : x = e := Device.entries_inj hx hin heq
        exact hunseen ⟨htaken.1, of_decide_eq_true hentry, htaken.2⟩

variable (kernel n) in
/-- A link is made where nothing is. -/
theorem link_eq (target path : String) (d : Device) :
    (error? (RestoreHardware.link kernel n target path d).1 = none ↔
        ¬(kernel.faults n .symlink ≠ none ∨ path ∈ d.entries.map Prod.fst)) ∧
      (error? (RestoreHardware.link kernel n target path d).1 = none →
        (RestoreHardware.link kernel n target path d).2.entries =
          d.entries ++ [(path, some target)]) ∧
      (RestoreHardware.link kernel n target path d).2.files = d.files ∧
      (RestoreHardware.link kernel n target path d).2.members = d.members := by
  unfold RestoreHardware.link
  cases kernel.faults n .symlink with
  | some e => simp [error?]
  | none =>
    by_cases hin : path ∈ d.entries.map Prod.fst
    · rw [dif_pos hin]
      exact ⟨iff_of_false (by rintro ⟨⟩) (not_not_intro (.inr hin)), by rintro ⟨⟩, rfl, rfl⟩
    · rw [dif_neg hin]
      exact ⟨iff_of_true rfl (not_or.mpr ⟨not_not_intro rfl, hin⟩), fun _ => rfl, rfl, rfl⟩

variable (kernel n) in
/-- A write of a file. -/
theorem write_eq (path value : String) (d : Device) :
    (error? (RestoreHardware.write kernel n path value d).1 = none ↔
        ¬kernel.faults n .write ≠ none) ∧
      (error? (RestoreHardware.write kernel n path value d).1 = none →
        (RestoreHardware.write kernel n path value d).2.files =
          Function.update d.files path (some value)) ∧
      (RestoreHardware.write kernel n path value d).2.entries = d.entries ∧
      (RestoreHardware.write kernel n path value d).2.members =
        if path = udcPath then kernel.settle n d.members else d.members := by
  unfold RestoreHardware.write
  cases kernel.faults n .write with
  | some e =>
    refine ⟨iff_of_false (by rintro ⟨⟩) (not_not_intro (by rintro ⟨⟩)), by rintro ⟨⟩, ?_⟩
    split_ifs <;> exact ⟨rfl, rfl⟩
  | none =>
    refine ⟨iff_of_true rfl (not_not_intro rfl), fun _ => ?_, ?_⟩
    · split_ifs <;> rfl
    · split_ifs <;> exact ⟨rfl, rfl⟩

/-- A member that is brought back. -/
theorem restoreMember_eq {member : String} (d : Device) :
    (error? (RestoreHardware.restoreMember kernel n member d).1 = none ↔
        ¬(kernel.faults n .appears ≠ none ∨ kernel.Refuses n "ifconfig" ∨
          if member ∈ d.members then kernel.Blind n else kernel.Refuses n "brctl")) ∧
      (error? (RestoreHardware.restoreMember kernel n member d).1 = none →
        (RestoreHardware.restoreMember kernel n member d).2.members =
          if member ∈ d.members then d.members else d.members ++ [member]) ∧
      (RestoreHardware.restoreMember kernel n member d).2.files = d.files ∧
      (RestoreHardware.restoreMember kernel n member d).2.entries = d.entries := by
  unfold RestoreHardware.restoreMember waitForInterface
  cases kernel.faults n .appears with
  | some e => simp [error?]
  | none =>
    cases hup : runCommand kernel n "ifconfig" [member, "up"] none with
    | error e =>
      have hrefuses : kernel.Refuses n "ifconfig" := by
        by_contra h
        rw [runCommand_ok_iff.mpr ⟨h, rfl⟩] at hup
        cases hup
      refine ⟨iff_of_false (by rintro ⟨⟩) (not_not_intro (.inr (.inl hrefuses))), by rintro ⟨⟩,
        rfl, rfl⟩
    | ok u =>
      have hworks : ¬kernel.Refuses n "ifconfig" := (runCommand_ok_iff.mp hup).1
      obtain ⟨hok, hrest⟩ := addBridgeMember_eq kernel n d member
      refine ⟨hok.trans (not_congr ?_), hrest⟩
      simp only [ne_eq, not_true_eq_false, hworks, false_or]

end Links

/-! ### The steps on the device -/

namespace GadgetSnapshot

variable (s : GadgetSnapshot) (kernel : Kernel) (d : Device)

/-- The number of the step that binds the controller. -/
def bindStep : Nat := 2 + s.attributes.length + s.links.length

/-- The bridge's members once the gadget is bound again. -/
def rebound : List String := kernel.settle s.bindStep (kernel.settle 0 d.members)

/-- Those of them that the bridge should not have. -/
def strays : List String := s.strangers ((s.rebound kernel d).insertionSort (· ≤ ·))

/-- All steps, in their order. -/
def plan : List Action :=
  s.gadgetPlan ++ .members :: s.bridgePlan
    (if kernel.Blind (s.bindStep + 1) then [] else (s.rebound kernel d).insertionSort (· ≤ ·))

/-- The step of that number fails, and says so. -/
def Reports : Action → Nat → Prop
  | .write _ _, n => kernel.faults n .write ≠ none
  | .removeLinks, n =>
    kernel.faults n .readDir ≠ none ∨
      ∃ e ∈ d.entries, kernel.Sees n e ∧ kernel.faults n (.removeFile e.1) ≠ none
  | .link _ path, n =>
    kernel.faults n .symlink ≠ none ∨ ∃ e ∈ d.entries, ¬kernel.Sees 1 e ∧ e.1 = path
  | .members, n => kernel.Blind n
  | .removeMember _, n => ¬kernel.Blind n ∧ kernel.Refuses n "brctl"
  | .restoreMember member, n =>
    kernel.faults n .appears ≠ none ∨ kernel.Refuses n "ifconfig" ∨
      if member ∈ s.rebound kernel d then kernel.Blind n else kernel.Refuses n "brctl"

/-- A failure that nobody hears of leaves something behind: a function that could not be read stays
linked, or an interface stays in the bridge whose removal could not read the members. -/
def Overlooks : Prop :=
  (∃ e ∈ d.entries, isFunction e = true ∧ ¬kernel.Sees 1 e) ∨
    ∃ p ∈ (s.strays kernel d).zipIdx (s.bindStep + 2), kernel.Blind p.2

/-! ### The phases -/

variable {s kernel d}

/-- What a step does on the device. -/
abbrev onDevice (kernel : Kernel) : Action → Nat → Device → Except String Unit × Device :=
  numbered (restoreHardware kernel)

variable (kernel d) in
/-- The attributes. -/
theorem attributes_phase (hlawful : s.Lawful) (n : Nat) (e : Device) :
    (Succeeds (onDevice kernel) (s.attributes.map fun a => .write a.1 a.2) n e ↔
        ∀ p ∈ (s.attributes.map fun a => Action.write a.1 a.2).zipIdx n,
          ¬s.Reports kernel d p.1 p.2) ∧
      (Succeeds (onDevice kernel) (s.attributes.map fun a => .write a.1 a.2) n e →
        ∀ a ∈ s.attributes, (ending (onDevice kernel)
          (s.attributes.map fun a => .write a.1 a.2) n e).files a.1 = some a.2) := by
  obtain ⟨hok, hend⟩ := succeeds_iff (onDevice kernel) (fun a : String × String => .write a.1 a.2)
    (fun pending e => pending ⊆ s.attributes ∧
      ∀ a ∈ s.attributes, a ∈ pending ∨ e.files a.1 = some a.2)
    (fun action n => ¬s.Reports kernel d action n)
    (fun a rest n e _ => (write_eq kernel n a.1 a.2 e).1)
    (fun a rest n e hinv hwritten => by
      obtain ⟨hsub, hdone⟩ := hinv
      refine ⟨fun b hb => hsub (List.mem_cons_of_mem _ hb), fun b hb => ?_⟩
      have hfiles : (onDevice kernel (.write a.1 a.2) n e).2.files =
          Function.update e.files a.1 (some a.2) := (write_eq kernel n a.1 a.2 e).2.1 hwritten
      by_cases hsame : b.1 = a.1
      · obtain rfl : b = a :=
          List.inj_on_of_nodup_map hlawful.attributes_nodup hb (hsub List.mem_cons_self) hsame
        exact .inr (by rw [hfiles, Function.update_self])
      · rcases hdone b hb with hpending | hwas
        · rcases List.mem_cons.mp hpending with rfl | hrest
          · exact absurd rfl hsame
          · exact .inl hrest
        · exact .inr (by rw [hfiles, Function.update_of_ne hsame, hwas]))
    s.attributes n e ⟨fun _ h => h, fun _ h => .inl h⟩
  refine ⟨hok, fun h a ha => ?_⟩
  rcases (hend h).2 a ha with hnone | hdone
  · cases hnone
  · exact hdone

variable (kernel) in
/-- They are all that is written of the device then. -/
theorem attributes_frame (hlawful : s.Lawful) (n : Nat) (e : Device) :
    (ending (onDevice kernel) (s.attributes.map fun a => .write a.1 a.2) n e).entries =
        e.entries ∧
      (ending (onDevice kernel) (s.attributes.map fun a => .write a.1 a.2) n e).members =
        e.members := by
  have hstep : ∀ action ∈ s.attributes.map (fun a => Action.write a.1 a.2), ∀ n e,
      ((onDevice kernel action n e).2.entries, (onDevice kernel action n e).2.members) =
        (e.entries, e.members) := by
    intro action haction n e
    obtain ⟨a, ha, rfl⟩ := List.mem_map.mp haction
    obtain ⟨-, -, hentries, hmembers⟩ :=
      write_eq kernel n a.1 a.2 e
    rw [if_neg (hlawful.attributes_ne a ha)] at hmembers
    exact Prod.ext hentries hmembers
  exact Prod.ext_iff.mp
    (ending_frame (onDevice kernel) (fun e => (e.entries, e.members)) _ hstep n e)

variable (kernel d) in
/-- The links. -/
theorem links_phase (hlawful : s.Lawful) (n : Nat) (e : Device)
    (hkept : ∀ path, path ∈ e.entries.map Prod.fst ↔
      ∃ x ∈ d.entries, ¬kernel.Sees 1 x ∧ x.1 = path) :
    (Succeeds (onDevice kernel) (s.links.map fun l => .link l.2 l.1) n e ↔
        ∀ p ∈ (s.links.map fun l => Action.link l.2 l.1).zipIdx n,
          ¬s.Reports kernel d p.1 p.2) ∧
      (Succeeds (onDevice kernel) (s.links.map fun l => .link l.2 l.1) n e →
        ∀ x, x ∈ (ending (onDevice kernel) (s.links.map fun l => .link l.2 l.1) n e).entries ↔
          x ∈ e.entries ∨ ∃ l ∈ s.links, x = (l.1, some l.2)) := by
  obtain ⟨hok, hend⟩ := succeeds_iff (onDevice kernel) (fun l : String × String => .link l.2 l.1)
    (fun pending f => (pending.map Prod.fst).Nodup ∧
      (∀ l ∈ pending, l.1 ∈ f.entries.map Prod.fst ↔ l.1 ∈ e.entries.map Prod.fst) ∧
      ∀ x, (x ∈ f.entries ∨ ∃ l ∈ pending, x = (l.1, some l.2)) ↔
        x ∈ e.entries ∨ ∃ l ∈ s.links, x = (l.1, some l.2))
    (fun action n => ¬s.Reports kernel d action n)
    (fun l rest n f hinv => by
      obtain ⟨-, hkeys, -⟩ := hinv
      refine (link_eq kernel n l.2 l.1 f).1.trans (not_congr (or_congr_right ?_))
      rw [hkeys l List.mem_cons_self, hkept])
    (fun l rest n f hinv hlinked => by
      obtain ⟨hnodup, hkeys, hall⟩ := hinv
      rw [List.map_cons, List.nodup_cons] at hnodup
      have hentries : (onDevice kernel (.link l.2 l.1) n f).2.entries =
          f.entries ++ [(l.1, some l.2)] := (link_eq kernel n l.2 l.1 f).2.1 hlinked
      refine ⟨hnodup.2, fun k hk => ?_, fun x => ?_⟩
      · have hne : k.1 ≠ l.1 := fun h => hnodup.1 (h ▸ List.mem_map_of_mem hk)
        rw [hentries, List.map_append, List.mem_append, List.map_singleton, List.mem_singleton,
          or_iff_left hne, hkeys k (List.mem_cons_of_mem _ hk)]
      · rw [hentries, List.mem_append, List.mem_singleton, or_assoc, ← hall x,
          List.exists_mem_cons_iff])
    s.links n e ⟨hlawful.links_nodup, fun _ _ => Iff.rfl, fun _ => Iff.rfl⟩
  refine ⟨hok, fun h x => ?_⟩
  rw [← (hend h).2.2 x]
  simp only [List.not_mem_nil, false_and, exists_false, or_false]

variable (s kernel) in
/-- They are all that changes then. -/
theorem links_frame (n : Nat) (e : Device) :
    (ending (onDevice kernel) (s.links.map fun l => .link l.2 l.1) n e).files = e.files ∧
      (ending (onDevice kernel) (s.links.map fun l => .link l.2 l.1) n e).members =
        e.members := by
  have hstep : ∀ action ∈ s.links.map (fun l => Action.link l.2 l.1), ∀ n e,
      ((onDevice kernel action n e).2.files, (onDevice kernel action n e).2.members) =
        (e.files, e.members) := by
    intro action haction n e
    obtain ⟨l, -, rfl⟩ := List.mem_map.mp haction
    obtain ⟨-, -, hfiles, hmembers⟩ :=
      link_eq kernel n l.2 l.1 e
    exact Prod.ext hfiles hmembers
  exact Prod.ext_iff.mp
    (ending_frame (onDevice kernel) (fun e => (e.files, e.members)) _ hstep n e)

/-- One removal leaves the interfaces in the bridge that are still to go. -/
theorem removal_rest {member : String} {rest : List String} {n : Nat} {e : Device}
    (hnodup : (member :: rest).Nodup) (hin : ∀ m ∈ member :: rest, m ∈ e.members)
    (hok : error? (onDevice kernel (.removeMember member) n e).1 = none) :
    rest.Nodup ∧ ∀ m ∈ rest, m ∈ (onDevice kernel (.removeMember member) n e).2.members := by
  rw [List.nodup_cons] at hnodup
  have hnext : (onDevice kernel (.removeMember member) n e).2 =
      if kernel.Blind n then e else e.leave member :=
    (removeBridgeMember_eq (hin member List.mem_cons_self)).2 hok
  refine ⟨hnodup.2, fun m hm => ?_⟩
  have hne : m ≠ member := fun heq => hnodup.1 (heq ▸ hm)
  have hwas := hin m (List.mem_cons_of_mem _ hm)
  rw [hnext]
  split_ifs
  · exact hwas
  · exact List.mem_filter.mpr ⟨hwas, decide_eq_true hne⟩

/-- The removals from the bridge. -/
theorem removals_succeed (items : List String) (n : Nat) (e : Device) (hnodup : items.Nodup)
    (hin : ∀ m ∈ items, m ∈ e.members) :
    Succeeds (onDevice kernel) (items.map .removeMember) n e ↔
      ∀ p ∈ (items.map Action.removeMember).zipIdx n, ¬s.Reports kernel d p.1 p.2 :=
  (succeeds_iff (onDevice kernel) Action.removeMember
    (fun pending e => pending.Nodup ∧ ∀ m ∈ pending, m ∈ e.members)
    (fun action n => ¬s.Reports kernel d action n)
    (fun _ _ _ _ hinv => (removeBridgeMember_eq (hinv.2 _ List.mem_cons_self)).1)
    (fun _ _ _ _ hinv hok => removal_rest hinv.1 hinv.2 hok) items n e ⟨hnodup, hin⟩).1

variable (kernel) in
/-- An interface stays when its removal cannot read the members. -/
theorem removals_leave (items : List String) (n : Nat) (e : Device) (hnodup : items.Nodup)
    (hin : ∀ m ∈ items, m ∈ e.members)
    (hok : Succeeds (onDevice kernel) (items.map .removeMember) n e) (m : String) :
    m ∈ (ending (onDevice kernel) (items.map .removeMember) n e).members ↔
      m ∈ e.members ∧ ∀ p ∈ items.zipIdx n, p.1 = m → kernel.Blind p.2 := by
  induction items generalizing n e with
  | nil =>
    simp only [List.map_nil, ending, List.zipIdx_nil, List.not_mem_nil, false_implies,
      implies_true, and_true]
  | cons member rest ih =>
    rw [List.map_cons, succeeds_cons] at hok
    obtain ⟨hrest, hstill⟩ := removal_rest hnodup hin hok.1
    have hnext : (onDevice kernel (.removeMember member) n e).2 =
        if kernel.Blind n then e else e.leave member :=
      (removeBridgeMember_eq (hin member List.mem_cons_self)).2 hok.1
    rw [List.map_cons, ending, ih (n + 1) _ hrest hstill hok.2, List.zipIdx_cons,
      List.forall_mem_cons, hnext, ← and_assoc]
    refine and_congr_left fun _ => ?_
    by_cases hblind : kernel.Blind n
    · rw [if_pos hblind]
      exact (and_iff_left fun _ => hblind).symm
    · rw [if_neg hblind, Device.leave, List.mem_filter, decide_eq_true_eq]
      refine and_congr_right fun _ => ⟨fun hne heq => absurd heq.symm hne, fun h heq => ?_⟩
      exact hblind (h heq.symm)

/-- The members that are brought back, on a bridge that has of them those it had when the gadget
was bound. -/
theorem restorals_phase (hlawful : s.Lawful) (n : Nat) (e : Device)
    (hin : ∀ m ∈ s.bridge, m ∈ e.members ↔ m ∈ s.rebound kernel d) :
    (Succeeds (onDevice kernel) (s.bridge.map .restoreMember) n e ↔
        ∀ p ∈ (s.bridge.map Action.restoreMember).zipIdx n, ¬s.Reports kernel d p.1 p.2) ∧
      (Succeeds (onDevice kernel) (s.bridge.map .restoreMember) n e →
        ∀ m, m ∈ (ending (onDevice kernel) (s.bridge.map .restoreMember) n e).members ↔
          m ∈ e.members ∨ m ∈ s.bridge) := by
  obtain ⟨hok, hend⟩ := succeeds_iff (onDevice kernel) Action.restoreMember
    (fun pending f => pending.Nodup ∧
      (∀ m ∈ pending, m ∈ f.members ↔ m ∈ s.rebound kernel d) ∧
      ∀ m, (m ∈ f.members ∨ m ∈ pending) ↔ m ∈ e.members ∨ m ∈ s.bridge)
    (fun action n => ¬s.Reports kernel d action n)
    (fun member rest n f hinv => by
      refine (restoreMember_eq f).1.trans (not_congr (or_congr_right (or_congr_right ?_)))
      simp only [hinv.2.1 member List.mem_cons_self])
    (fun member rest n f hinv hok => by
      obtain ⟨hnodup, hkeys, hall⟩ := hinv
      rw [List.nodup_cons] at hnodup
      have hmembers : ∀ m, m ∈ (onDevice kernel (.restoreMember member) n f).2.members ↔
          m ∈ f.members ∨ m = member := by
        intro m
        have heq : (onDevice kernel (.restoreMember member) n f).2.members =
          if member ∈ f.members then f.members else f.members ++ [member] :=
          (restoreMember_eq f).2.1 hok
        rw [heq]
        split_ifs with hhas
        · exact (or_iff_left_of_imp fun h => h ▸ hhas).symm
        · rw [List.mem_append, List.mem_singleton]
      refine ⟨hnodup.2, fun m hm => ?_, fun m => ?_⟩
      · have hne : m ≠ member := fun h => hnodup.1 (h ▸ hm)
        rw [hmembers, or_iff_left hne, hkeys m (List.mem_cons_of_mem _ hm)]
      · rw [hmembers, or_assoc, ← hall m, List.mem_cons])
    s.bridge n e ⟨hlawful.bridge_nodup, hin, fun _ => Iff.rfl⟩
  refine ⟨hok, fun h m => ?_⟩
  rw [← (hend h).2.2 m, or_iff_left List.not_mem_nil]

/-- An interface of USB's comes and goes without the others. -/
theorem others_eq {member : String} (husb : isUsbInterface member = true)
    (members : List String) :
    others (members.filter (· ≠ member)) = others members ∧
      others (members ++ [member]) = others members := by
  constructor
  · rw [others, others, List.filter_filter]
    refine List.filter_congr fun m _ => ?_
    by_cases hsame : m = member
    · simp [hsame, husb]
    · simp [hsame]
  · rw [others, others, List.filter_append, List.filter_singleton, husb]
    exact List.append_nil _

variable (kernel) in
/-- What a removal from the bridge does not touch. -/
theorem removeBridgeMember_frame {n : Nat} {member : String}
    (husb : isUsbInterface member = true) (e : Device) :
    (removeBridgeMember kernel n member e).2.files = e.files ∧
      (removeBridgeMember kernel n member e).2.entries = e.entries ∧
      others (removeBridgeMember kernel n member e).2.members = others e.members := by
  unfold removeBridgeMember
  split_ifs
  · split
    · exact ⟨rfl, rfl, rfl⟩
    · exact ⟨rfl, rfl, (others_eq husb e.members).1⟩
  · exact ⟨rfl, rfl, rfl⟩

variable (kernel) in
/-- What a restored member does not touch. -/
theorem restoreMember_frame {n : Nat} {member : String} (husb : isUsbInterface member = true)
    (e : Device) :
    (RestoreHardware.restoreMember kernel n member e).2.files = e.files ∧
      (RestoreHardware.restoreMember kernel n member e).2.entries = e.entries ∧
      others (RestoreHardware.restoreMember kernel n member e).2.members =
        others e.members := by
  unfold RestoreHardware.restoreMember
  split
  · exact ⟨rfl, rfl, rfl⟩
  · split
    · exact ⟨rfl, rfl, rfl⟩
    · unfold addBridgeMember
      split_ifs
      · exact ⟨rfl, rfl, rfl⟩
      · exact ⟨rfl, rfl, rfl⟩
      · split
        · exact ⟨rfl, rfl, rfl⟩
        · exact ⟨rfl, rfl, (others_eq husb e.members).2⟩

variable (kernel) in
/-- What the steps on the bridge do not touch: the gadget, and the interfaces that are none of
USB's. -/
theorem bridge_frame (hlawful : s.Lawful) (members : List String) (n : Nat) (e : Device) :
    (ending (onDevice kernel) (s.bridgePlan members) n e).files = e.files ∧
      (ending (onDevice kernel) (s.bridgePlan members) n e).entries = e.entries ∧
      others (ending (onDevice kernel) (s.bridgePlan members) n e).members =
        others e.members := by
  have hstep : ∀ action ∈ s.bridgePlan members, ∀ n e,
      ((onDevice kernel action n e).2.files, (onDevice kernel action n e).2.entries,
          others (onDevice kernel action n e).2.members) =
        (e.files, e.entries, others e.members) := by
    intro action haction n e
    rcases List.mem_append.mp haction with hremove | hrestore
    · obtain ⟨m, hm, rfl⟩ := List.mem_map.mp hremove
      have husb := (Bool.and_eq_true_iff.mp (List.mem_filter.mp hm).2).1
      obtain ⟨hfiles, hentries, hothers⟩ :=
        removeBridgeMember_frame kernel (n := n) husb e
      exact Prod.ext hfiles (Prod.ext hentries hothers)
    · obtain ⟨m, hm, rfl⟩ := List.mem_map.mp hrestore
      obtain ⟨hfiles, hentries, hothers⟩ :=
        restoreMember_frame kernel (n := n) (hlawful.bridge_usb m hm) e
      exact Prod.ext hfiles (Prod.ext hentries hothers)
  have hframe := ending_frame (onDevice kernel)
    (fun e => (e.files, e.entries, others e.members)) _ hstep n e
  exact ⟨congrArg Prod.fst hframe, congrArg (·.2.1) hframe, congrArg (·.2.2) hframe⟩

variable (s kernel d) in
/-- The gadget is unbound and its functions are unlinked. -/
theorem opening_phase :
    (Succeeds (onDevice kernel) [.write udcPath "", .removeLinks] 0 d ↔
        ∀ p ∈ [Action.write udcPath "", .removeLinks].zipIdx 0, ¬s.Reports kernel d p.1 p.2) ∧
      (Succeeds (onDevice kernel) [.write udcPath "", .removeLinks] 0 d →
        ∀ x, x ∈ (ending (onDevice kernel) [.write udcPath "", .removeLinks] 0 d).entries ↔
          x ∈ d.entries ∧ ¬kernel.Sees 1 x) ∧
      (ending (onDevice kernel) [.write udcPath "", .removeLinks] 0 d).members =
        kernel.settle 0 d.members := by
  obtain ⟨hwrite, -, hentries, hmembers⟩ :=
    write_eq kernel 0 udcPath "" d
  rw [if_pos rfl] at hmembers
  obtain ⟨hunlink, hleft, -, hkeeps⟩ := removeConfigLinks_eq kernel 1
    (RestoreHardware.write kernel 0 udcPath "" d).2
  rw [hentries] at hunlink hleft
  have hend : ending (onDevice kernel) [.write udcPath "", .removeLinks] 0 d =
      (removeConfigLinks kernel 1 (RestoreHardware.write kernel 0 udcPath "" d).2).2 := rfl
  have hok : Succeeds (onDevice kernel) [.write udcPath "", .removeLinks] 0 d ↔
      error? (RestoreHardware.write kernel 0 udcPath "" d).1 = none ∧
        error? (removeConfigLinks kernel 1
          (RestoreHardware.write kernel 0 udcPath "" d).2).1 = none := by
    rw [succeeds_cons, succeeds_singleton]
    rfl
  refine ⟨?_, fun h => ?_, by rw [hend, hkeeps, hmembers]⟩
  · rw [hok, hwrite, hunlink, List.zipIdx_cons, List.zipIdx_cons, List.zipIdx_nil,
      List.forall_mem_cons, List.forall_mem_singleton]
    rfl
  · rw [hend]
    exact hleft (hok.mp h).2

variable (kernel d) in
/-- The steps on the gadget: when none of them fails, and what they leave then. -/
theorem gadget_phase (hlawful : s.Lawful) :
    (Succeeds (onDevice kernel) s.gadgetPlan 0 d ↔
        ∀ p ∈ s.gadgetPlan.zipIdx 0, ¬s.Reports kernel d p.1 p.2) ∧
      (Succeeds (onDevice kernel) s.gadgetPlan 0 d →
        (∀ x, x ∈ (ending (onDevice kernel) s.gadgetPlan 0 d).entries ↔
          (x ∈ d.entries ∧ ¬kernel.Sees 1 x) ∨ ∃ l ∈ s.links, x = (l.1, some l.2)) ∧
        (∀ a ∈ s.attributes,
          (ending (onDevice kernel) s.gadgetPlan 0 d).files a.1 = some a.2) ∧
        (ending (onDevice kernel) s.gadgetPlan 0 d).files udcPath = some s.udc) ∧
      (ending (onDevice kernel) s.gadgetPlan 0 d).members = s.rebound kernel d := by
  obtain ⟨hopen, hseen, hsettled⟩ := opening_phase s kernel d
  -- The states between the phases.
  generalize hfirst : ending (onDevice kernel) [.write udcPath "", .removeLinks] 0 d = e₂
    at hseen hsettled
  obtain ⟨hattributes, hfiles⟩ := attributes_phase kernel d hlawful 2 e₂
  obtain ⟨hentries₃, hmembers₃⟩ := attributes_frame kernel hlawful 2 e₂
  generalize hsecond : ending (onDevice kernel)
    (s.attributes.map fun a => .write a.1 a.2) 2 e₂ = e₃ at hfiles hentries₃ hmembers₃
  obtain ⟨hfiles₄, hmembers₄⟩ :=
    links_frame s kernel (2 + s.attributes.length) e₃
  have hlinks := links_phase kernel d hlawful (2 + s.attributes.length) e₃
  generalize hthird : ending (onDevice kernel) (s.links.map fun l => .link l.2 l.1)
    (2 + s.attributes.length) e₃ = e₄ at hfiles₄ hmembers₄ hlinks
  obtain ⟨hbind, hbound, hentries₅, hmembers₅⟩ :=
    write_eq kernel s.bindStep udcPath s.udc e₄
  rw [if_pos rfl, hmembers₄, hmembers₃, hsettled] at hmembers₅
  have hlen₁ : ([Action.write udcPath "", .removeLinks] ++
      s.attributes.map (fun a => Action.write a.1 a.2)).length = 2 + s.attributes.length := by
    rw [List.length_append, List.length_map]
    rfl
  have hlen₂ : ([Action.write udcPath "", .removeLinks] ++
      s.attributes.map (fun a => Action.write a.1 a.2) ++
      s.links.map (fun l => Action.link l.2 l.1)).length = s.bindStep := by
    rw [List.length_append, hlen₁, List.length_map]
    rfl
  have hend₃ : ending (onDevice kernel) ([Action.write udcPath "", .removeLinks] ++
      s.attributes.map (fun a => Action.write a.1 a.2)) 0 d = e₃ := by
    rw [ending_append, hfirst]
    exact hsecond
  have hend₄ : ending (onDevice kernel) ([Action.write udcPath "", .removeLinks] ++
      s.attributes.map (fun a => Action.write a.1 a.2) ++
      s.links.map (fun l => Action.link l.2 l.1)) 0 d = e₄ := by
    rw [ending_append, hend₃, hlen₁, Nat.zero_add]
    exact hthird
  have hend : ending (onDevice kernel) s.gadgetPlan 0 d =
      (RestoreHardware.write kernel s.bindStep udcPath s.udc e₄).2 := by
    rw [gadgetPlan, ending_append, hend₄, hlen₂, Nat.zero_add]
    rfl
  have hok : Succeeds (onDevice kernel) s.gadgetPlan 0 d ↔
      ((Succeeds (onDevice kernel) [.write udcPath "", .removeLinks] 0 d ∧
        Succeeds (onDevice kernel) (s.attributes.map fun a => .write a.1 a.2) 2 e₂) ∧
        Succeeds (onDevice kernel) (s.links.map fun l => .link l.2 l.1)
          (2 + s.attributes.length) e₃) ∧
        error? (RestoreHardware.write kernel s.bindStep udcPath s.udc e₄).1 = none := by
    rw [gadgetPlan, succeeds_append, succeeds_append, succeeds_append, hend₄, hend₃, hfirst, hlen₁,
      hlen₂, succeeds_singleton]
    simp only [List.length_cons, List.length_nil, Nat.zero_add, Nat.reduceAdd]
    rfl
  have hgood : (∀ p ∈ s.gadgetPlan.zipIdx 0, ¬s.Reports kernel d p.1 p.2) ↔
      (((∀ p ∈ [Action.write udcPath "", .removeLinks].zipIdx 0, ¬s.Reports kernel d p.1 p.2) ∧
        ∀ p ∈ (s.attributes.map fun a => Action.write a.1 a.2).zipIdx 2,
          ¬s.Reports kernel d p.1 p.2) ∧
        ∀ p ∈ (s.links.map fun l => Action.link l.2 l.1).zipIdx (2 + s.attributes.length),
          ¬s.Reports kernel d p.1 p.2) ∧ ¬kernel.faults s.bindStep .write ≠ none := by
    rw [gadgetPlan, List.zipIdx_append, List.zipIdx_append, List.zipIdx_append,
      List.forall_mem_append, List.forall_mem_append, List.forall_mem_append, hlen₁, hlen₂,
      List.zipIdx_singleton, List.forall_mem_singleton]
    simp only [List.length_cons, List.length_nil, Nat.zero_add, Nat.reduceAdd]
    rfl
  have hkept : Succeeds (onDevice kernel) [.write udcPath "", .removeLinks] 0 d →
      ∀ path, path ∈ e₃.entries.map Prod.fst ↔
        ∃ x ∈ d.entries, ¬kernel.Sees 1 x ∧ x.1 = path := by
    intro h path
    rw [hentries₃]
    simp only [List.mem_map, hseen h, and_assoc]
  refine ⟨?_, fun h => ?_, by rw [hend, hmembers₅]; rfl⟩
  · rw [hok, hgood, hopen.symm, hattributes, hbind]
    exact and_congr_left fun _ => and_congr_right fun h => (hlinks (hkept h.1)).1
  · obtain ⟨⟨⟨h₁, h₂⟩, h₃⟩, h₄⟩ := hok.mp h
    refine ⟨fun x => ?_, fun a ha => ?_, ?_⟩
    · rw [hend, hentries₅, (hlinks (hkept h₁)).2 h₃, hentries₃, hseen h₁]
    · rw [hend, hbound h₄, Function.update_of_ne (hlawful.attributes_ne a ha), hfiles₄]
      exact hfiles h₂ a ha
    · rw [hend, hbound h₄, Function.update_self]

/-- An interface that should not be in the bridge. -/
theorem mem_strays {m : String} :
    m ∈ s.strays kernel d ↔
      m ∈ s.rebound kernel d ∧ isUsbInterface m = true ∧ m ∉ s.bridge := by
  simp only [strays, strangers, List.mem_filter, List.mem_insertionSort, Bool.and_eq_true,
    Bool.not_eq_true', List.contains_eq_mem, decide_eq_false_iff_not]

/-- No interface strays twice. -/
theorem strays_nodup : (s.strays kernel d).Nodup := by
  have hrebound : (s.rebound kernel d).Nodup :=
    kernel.settle_nodup _ _ (kernel.settle_nodup _ _ d.members_nodup)
  exact ((List.perm_insertionSort _ _).nodup_iff.mpr hrebound).filter _

/-- The steps on the bridge, once the gadget is bound. -/
theorem bridge_phase (hlawful : s.Lawful) (n : Nat) (e : Device)
    (hmembers : e.members = s.rebound kernel d) :
    (Succeeds (onDevice kernel)
          (s.bridgePlan ((s.rebound kernel d).insertionSort (· ≤ ·))) n e ↔
        ∀ p ∈ (s.bridgePlan ((s.rebound kernel d).insertionSort (· ≤ ·))).zipIdx n,
          ¬s.Reports kernel d p.1 p.2) ∧
      (Succeeds (onDevice kernel)
          (s.bridgePlan ((s.rebound kernel d).insertionSort (· ≤ ·))) n e →
        ∀ m, m ∈ (ending (onDevice kernel)
            (s.bridgePlan ((s.rebound kernel d).insertionSort (· ≤ ·))) n e).members ↔
          (m ∈ s.rebound kernel d ∧
            ∀ p ∈ (s.strays kernel d).zipIdx n, p.1 = m → kernel.Blind p.2) ∨
          m ∈ s.bridge) := by
  have hplan : s.bridgePlan ((s.rebound kernel d).insertionSort (· ≤ ·)) =
      (s.strays kernel d).map .removeMember ++ s.bridge.map .restoreMember := rfl
  have hin : ∀ m ∈ s.strays kernel d, m ∈ e.members := by
    intro m hm
    rw [hmembers]
    exact (mem_strays.mp hm).1
  have hleave := removals_leave kernel (s.strays kernel d) n e strays_nodup hin
  -- None of the interfaces to be restored is among those that are removed.
  have hwas : Succeeds (onDevice kernel) ((s.strays kernel d).map .removeMember) n e →
      ∀ m ∈ s.bridge, m ∈ (ending (onDevice kernel)
          ((s.strays kernel d).map .removeMember) n e).members ↔ m ∈ s.rebound kernel d := by
    intro hok m hm
    rw [hleave hok, hmembers]
    refine and_iff_left fun p hp heq => ?_
    obtain rfl := heq
    exact absurd hm (mem_strays.mp (List.fst_mem_of_mem_zipIdx hp)).2.2
  rw [hplan, succeeds_append, ending_append, List.length_map, List.zipIdx_append,
    List.forall_mem_append, List.length_map]
  refine ⟨?_, fun h m => ?_⟩
  · rw [← removals_succeed (s := s) (d := d) _ n e strays_nodup hin]
    exact and_congr_right fun hok => (restorals_phase hlawful _ _ (hwas hok)).1
  · rw [(restorals_phase hlawful _ _ (hwas h.1)).2 h.2, hleave h.1, hmembers]

/-- The number of the step that reads the bridge. -/
theorem length_gadgetPlan : s.gadgetPlan.length = s.bindStep + 1 := by
  simp only [gadgetPlan, List.length_append, List.length_map, List.length_cons, List.length_nil,
    bindStep]

/-- The steps on the device are those of the plan. -/
theorem steps_eq_plan (hlawful : s.Lawful) :
    s.steps (restoreHardware kernel) d = s.plan kernel d := by
  rw [steps, plan, length_gadgetPlan]
  congr 3
  rcases checkedBridgeMembers_eq kernel (s.bindStep + 1)
    (ending (onDevice kernel) s.gadgetPlan 0 d) with ⟨hblind, e, heq⟩ | ⟨hsees, heq⟩
  · rw [if_pos hblind]
    exact congrArg answered heq
  · rw [if_neg hsees, ← (gadget_phase kernel d hlawful).2.2]
    exact congrArg answered heq

/-- The members are read in a step of their own. -/
theorem succeeds_members (rest : List Action) (n : Nat) (e : Device) :
    Succeeds (onDevice kernel) (.members :: rest) n e ↔
      ¬kernel.Blind n ∧ Succeeds (onDevice kernel) rest (n + 1) e := by
  rw [succeeds_cons]
  refine and_congr ?_ Iff.rfl
  have hstep : (onDevice kernel .members n e).1 =
      (checkedBridgeMembers kernel n e).map fun _ => () := rfl
  rw [hstep]
  rcases checkedBridgeMembers_eq kernel n e with ⟨hblind, x, heq⟩ | ⟨hsees, heq⟩
  · rw [heq]
    exact iff_of_false (by rintro ⟨⟩) (not_not_intro hblind)
  · rw [heq]
    exact iff_of_true rfl hsees

/-- When the whole plan succeeds, and what it leaves then. -/
theorem plan_phase (hlawful : s.Lawful) :
    (Succeeds (onDevice kernel) (s.plan kernel d) 0 d ↔
        ∀ p ∈ (s.plan kernel d).zipIdx 0, ¬s.Reports kernel d p.1 p.2) ∧
      (Succeeds (onDevice kernel) (s.plan kernel d) 0 d →
        ∀ m, m ∈ (ending (onDevice kernel) (s.plan kernel d) 0 d).members ↔
          (m ∈ s.rebound kernel d ∧
            ∀ p ∈ (s.strays kernel d).zipIdx (s.bindStep + 2), p.1 = m → kernel.Blind p.2) ∨
          m ∈ s.bridge) := by
  obtain ⟨hgadget, -, hmembers⟩ := gadget_phase kernel d hlawful
  obtain ⟨hbridge, hleft⟩ := bridge_phase hlawful (s.bindStep + 2) _ hmembers
  rw [plan, succeeds_append, ending_append, List.zipIdx_append, List.forall_mem_append,
    List.zipIdx_cons, List.forall_mem_cons, succeeds_members, length_gadgetPlan, Nat.zero_add,
    hgadget]
  by_cases hblind : kernel.Blind (s.bindStep + 1)
  · refine ⟨iff_of_false (fun h => h.2.1 hblind) fun h => h.2.1 hblind, fun h => ?_⟩
    exact absurd hblind h.2.1
  · rw [if_neg hblind, ← hgadget]
    refine ⟨and_congr_right fun _ => and_congr_right fun _ => hbridge, fun h => ?_⟩
    exact hleft h.2.2

/-! ### The restoration -/

/-- The device is as a snapshot has it, and what else is in the bridge is as it was before. -/
structure Restored (s : GadgetSnapshot) (before after : Device) : Prop where
  links : ∀ x, (x ∈ after.entries ∧ isFunction x = true) ↔
    ∃ l ∈ s.links, x = (l.1, some l.2)
  attributes : ∀ a ∈ s.attributes, after.files a.1 = some a.2
  udc : after.files udcPath = some s.udc
  usb : ∀ m, isUsbInterface m = true → (m ∈ after.members ↔ m ∈ s.bridge)
  others : Usb.others after.members = Usb.others before.members

/-- What a restoration is to do: every step is tried, in its order; it succeeds only when the
device is restored; and a step that fails makes it fail. -/
structure Restores (s : GadgetSnapshot) (kernel : Kernel) (d : Device) : Prop where
  ordered : (s.restore kernel d).2.log.map Prod.fst = s.plan kernel d
  restored : (s.restore kernel d).1 = .ok () → s.Restored d (s.restore kernel d).2.state
  reported : ∀ step ∈ (s.restore kernel d).2.log, step.2 ≠ none →
    (s.restore kernel d).1 ≠ .ok ()

variable (kernel d) in
/-- The steps on the bridge leave the gadget as it was bound, and the interfaces that are none of
USB's as they were before. -/
theorem plan_frame (hlawful : s.Lawful) :
    (ending (onDevice kernel) (s.plan kernel d) 0 d).files =
        (ending (onDevice kernel) s.gadgetPlan 0 d).files ∧
      (ending (onDevice kernel) (s.plan kernel d) 0 d).entries =
        (ending (onDevice kernel) s.gadgetPlan 0 d).entries ∧
      others (ending (onDevice kernel) (s.plan kernel d) 0 d).members = others d.members := by
  -- Reading the members changes nothing.
  have hend : ending (onDevice kernel) (s.plan kernel d) 0 d =
      ending (onDevice kernel) (s.bridgePlan (if kernel.Blind (s.bindStep + 1) then []
        else (s.rebound kernel d).insertionSort (· ≤ ·))) (s.bindStep + 2)
        (ending (onDevice kernel) s.gadgetPlan 0 d) := by
    rw [plan, ending_append, length_gadgetPlan, Nat.zero_add]
    rfl
  obtain ⟨hfiles, hentries, hothers⟩ := bridge_frame kernel hlawful
    (if kernel.Blind (s.bindStep + 1) then [] else (s.rebound kernel d).insertionSort (· ≤ ·))
    (s.bindStep + 2) (ending (onDevice kernel) s.gadgetPlan 0 d)
  have hrebound := (gadget_phase kernel d hlawful).2.2
  rw [← hend] at hfiles hentries hothers
  refine ⟨hfiles, hentries, ?_⟩
  rw [hothers, hrebound, rebound, kernel.settle_others, kernel.settle_others]

/-- A restoration without an error, of which nothing was overlooked. -/
theorem restored_of_succeeds (hlawful : s.Lawful)
    (hok : Succeeds (onDevice kernel) (s.plan kernel d) 0 d) (hall : ¬s.Overlooks kernel d) :
    s.Restored d (ending (onDevice kernel) (s.plan kernel d) 0 d) := by
  obtain ⟨hseen, hgone⟩ := not_or.mp hall
  have hmembers := (plan_phase hlawful).2 hok
  obtain ⟨hfiles, hlinks, hothers⟩ := plan_frame kernel d hlawful
  rw [plan, succeeds_append] at hok
  obtain ⟨hentries, hattributes, hudc⟩ :=
    (gadget_phase kernel d hlawful).2.1 hok.1
  refine ⟨fun x => ?_, fun a ha => ?_, ?_, fun m husb => ?_, ?_⟩
  · rw [hlinks, hentries]
    constructor
    · rintro ⟨⟨hin, hunseen⟩ | hlink, hfunction⟩
      · exact absurd ⟨x, hin, hfunction, hunseen⟩ hseen
      · exact hlink
    · rintro ⟨l, hl, rfl⟩
      refine ⟨.inr ⟨l, hl, rfl⟩, ?_⟩
      rw [isFunction, hlawful.links_functions l hl]
      rfl
  · rw [hfiles, hattributes a ha]
  · rw [hfiles, hudc]
  · rw [hmembers]
    refine or_iff_right_of_imp fun hkept => ?_
    by_contra hout
    have hstray : m ∈ s.strays kernel d := mem_strays.mpr ⟨hkept.1, husb, hout⟩
    rw [← List.zipIdx_map_fst (s.bindStep + 2) (s.strays kernel d)] at hstray
    obtain ⟨p, hp, rfl⟩ := List.mem_map.mp hstray
    exact hgone ⟨p, hp, hkept.2 p hp rfl⟩
  · exact hothers

/-- What was overlooked stays. -/
theorem not_restored_of_overlooks (hlawful : s.Lawful)
    (hok : Succeeds (onDevice kernel) (s.plan kernel d) 0 d) (hall : s.Overlooks kernel d) :
    ¬s.Restored d (ending (onDevice kernel) (s.plan kernel d) 0 d) := by
  intro hrestored
  have hmembers := (plan_phase hlawful).2 hok
  have hquiet := (plan_phase hlawful).1.mp hok
  rcases hall with ⟨x, hin, hfunction, hunseen⟩ | ⟨p, hp, hblind⟩
  · have hkept : x ∈ (ending (onDevice kernel) (s.plan kernel d) 0 d).entries := by
      rw [plan, succeeds_append] at hok
      rw [(plan_frame kernel d hlawful).2.1,
        ((gadget_phase kernel d hlawful).2.1 hok.1).1 x]
      exact .inl ⟨hin, hunseen⟩
    -- A link under its path would have found it there.
    obtain ⟨l, hl, rfl⟩ := (hrestored.links x).mp ⟨hkept, hfunction⟩
    have hstep : Action.link l.2 l.1 ∈ s.plan kernel d :=
      List.mem_append_left _ (List.mem_append_left _ (List.mem_append_right _
        (List.mem_map_of_mem hl)))
    rw [← List.zipIdx_map_fst 0 (s.plan kernel d)] at hstep
    obtain ⟨q, hq, heq⟩ := List.mem_map.mp hstep
    have hlinked := hquiet q hq
    rw [heq] at hlinked
    exact hlinked (.inr ⟨_, hin, hunseen, rfl⟩)
  · obtain ⟨hrebound, husb, hout⟩ := mem_strays.mp (List.fst_mem_of_mem_zipIdx hp)
    refine hout ((hrestored.usb p.1 husb).mp ((hmembers p.1).mpr (.inl ⟨hrebound, ?_⟩)))
    intro q hq hsame
    obtain rfl : q = p := by
      refine List.inj_on_of_nodup_map ?_ hq hp hsame
      rw [List.zipIdx_map_fst]
      exact strays_nodup
    exact hblind

/-- A restoration does what it is to do exactly when no failure is overlooked, or another one is
reported. -/
theorem restores_iff (s : GadgetSnapshot) (hlawful : s.Lawful) (kernel : Kernel) (d : Device) :
    s.Restores kernel d ↔
      (s.Overlooks kernel d →
        ∃ p ∈ (s.plan kernel d).zipIdx, s.Reports kernel d p.1 p.2) := by
  have hresult : (s.restore kernel d).1 = .ok () ↔
      Succeeds (onDevice kernel) (s.plan kernel d) 0 d := by
    rw [restore, restoreWith_ok_iff, steps_eq_plan hlawful]
  have hstate : (s.restore kernel d).2.state =
      ending (onDevice kernel) (s.plan kernel d) 0 d := by
    rw [restore, restoreWith_logged, steps_eq_plan hlawful]
  have hreports : (∃ p ∈ (s.plan kernel d).zipIdx, s.Reports kernel d p.1 p.2) ↔
      ¬Succeeds (onDevice kernel) (s.plan kernel d) 0 d := by
    rw [(plan_phase hlawful).1]
    simp only [not_forall, not_not, exists_prop]
  rw [hreports]
  constructor
  · intro h hall hok
    have hrestored := h.restored (hresult.mpr hok)
    rw [hstate] at hrestored
    exact not_restored_of_overlooks hlawful hok hall hrestored
  · intro h
    refine ⟨?_, fun hok => ?_, restoreWith_reports s (restoreHardware kernel) d⟩
    · rw [restore, restoreWith_order, steps_eq_plan hlawful]
    · rw [hstate]
      exact restored_of_succeeds hlawful (hresult.mp hok) fun hall => h hall (hresult.mp hok)

/-! ### A read that fails unheard -/

/-- The device with one function, and its interface in the bridge. -/
def stock : Device where
  files path :=
    if path = gadgetDir ++ "/idProduct" then some "0x1405\n"
    else if path = udcPath then some "a600000.dwc3\n" else none
  entries := [(configDir ++ "/f1", some (gadgetDir ++ "/functions/gsi.ecm"))]
  members := ["ecm0", "wlan0"]
  entries_nodup := List.nodup_singleton _
  members_nodup := by decide

/-- Its snapshot. -/
def stockSnapshot : GadgetSnapshot where
  udc := "a600000.dwc3"
  attributes := [(gadgetDir ++ "/idProduct", "0x1405")]
  links := [(configDir ++ "/f1", gadgetDir ++ "/functions/gsi.ecm")]
  bridge := ["ecm0"]

/-- The device after a switch that failed late. -/
def switched : Device where
  files path :=
    if path = gadgetDir ++ "/idProduct" then some "0x1406"
    else if path = udcPath then some "a600000.dwc3" else none
  entries := [(configDir ++ "/f1", some (gadgetDir ++ "/functions/ncm.0"))]
  members := ["ncm0", "wlan0"]
  entries_nodup := List.nodup_singleton _
  members_nodup := by decide

/-- One read fails: the members, in the step that removes `ncm0` from the bridge. -/
def membersFault : Nat → Call → Option String
  | 6, .members => some "Input/output error (os error 5)"
  | _, _ => none

/-- The kernel with that fault. -/
def oneFault : Kernel := .still membersFault

theorem stockSnapshot_lawful : stockSnapshot.Lawful :=
  capture_lawful (fun _ => none) stock rfl

/-- `restores_iff` on that restoration. -/
theorem restores_iff_oneFault :
    stockSnapshot.Restores oneFault switched ↔
      (stockSnapshot.Overlooks oneFault switched →
        ∃ p ∈ (stockSnapshot.plan oneFault switched).zipIdx,
          stockSnapshot.Reports oneFault switched p.1 p.2) :=
  restores_iff stockSnapshot stockSnapshot_lawful oneFault switched

/-- The restoration reports success, and `ncm0` is still in the bridge. -/
theorem stray_kept :
    ¬∀ (s : GadgetSnapshot) (kernel : Kernel) (d : Device), s.Lawful → s.Restores kernel d := by
  intro h
  have hrestored := (h stockSnapshot oneFault switched stockSnapshot_lawful).restored rfl
  exact absurd ((hrestored.usb "ncm0" (by decide)).mp (by decide)) (by decide)

end GadgetSnapshot

end OpenUI.Agent.Usb
