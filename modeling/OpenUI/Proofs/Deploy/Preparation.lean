import OpenUI.Proofs.Deploy.Recovery

/-!
# `OpenUI.Proofs.Deploy.Preparation`: `begin` after a power loss

A `begin` that finds no lock comes to its end, and wherever it is cut off after the snapshot has its
identity, the device can be recovered.

* `safely_begin`: what is kept, and when it succeeds.
-/

set_option autoImplicit false

namespace OpenUI.Deploy

open OpenUI.Shell OpenUI.Shell.FileTree OpenUI.Shell.Weather

section Preparation

variable {kind : Target → Bool} {begun : List (String × String)} {id : String} {t t' : FileTree}

/-! ### More transactions, and other files -/

/-- One more transaction was begun. -/
theorem Recoverable.cons (h : Recoverable kind begun t) (entry : String × String) :
    Recoverable kind (entry :: begun) t where
  docile := h.docile
  announced := h.announced
  stored := by
    refine ⟨fun id hid hnot => h.stored.fresh id hid fun hmem => hnot ?_, fun id hid hstate => ?_⟩
    · exact List.mem_cons_of_mem entry.1 hmem
    · obtain ⟨hknown, identity, hmem, hrecorded⟩ := h.stored.recorded id hid hstate
      exact ⟨hknown, identity, List.mem_cons_of_mem entry hmem, hrecorded⟩
  marks := by
    rcases h.marks with hfree | ⟨id, hid, hvalid, hlocked, hknown⟩
    · exact .inl hfree
    · refine .inr ⟨id, hid, hvalid, hlocked, hknown.imp_left fun hun => ?_⟩
      obtain ⟨identity, hmem, hidentity⟩ := hun.identity
      exact ⟨hun.active, hun.state, identity, List.mem_cons_of_mem entry hmem, hidentity⟩

/-- Nothing changes in the transactions' directory. -/
theorem Recoverable.of_below (h : Recoverable kind begun t)
    (hbelow : ∀ x q, get (base ++ x :: q) t' = get (base ++ x :: q) t) (hdocile : Docile kind t')
    (habove : ∀ target ∈ targets, (get (above target) t).isDirectory = true →
      (get (above target) t').isDirectory = true) : Recoverable kind begun t' where
  docile := hdocile
  announced := by
    have hnew : get activeNew t' = get activeNew t := hbelow "active.new" []
    rw [Announced, hnew]
    exact h.announced
  stored := by
    refine ⟨fun id hid hnot => (hbelow id []).trans (h.stored.fresh id hid hnot),
      fun id hid hstate => ?_⟩
    have hstate₁ : get (stateFile id) t' = get (stateFile id) t := hbelow id ["state"]
    rw [hstate₁] at hstate
    obtain ⟨hknown, identity, hmem, hrecorded⟩ := h.stored.recorded id hid hstate
    rw [contents_congr hstate₁]
    exact ⟨hknown, identity, hmem, hrecorded.of_same (hbelow id ["before"]) (hbelow id ["present"])
      (hbelow id ["identity"]) habove⟩
  marks := h.marks.of_same (hbelow "lock" []) (hbelow "active" []) fun id _ =>
    ⟨hbelow id ["state"], hbelow id ["identity"]⟩

/-- `mkdir -p "$base"`. -/
theorem recoverable_mkdirs (h : Recoverable kind begun t) :
    Recoverable kind begun ((Operation.mkdirs base).exec t).2 := by
  refine h.of_below (fun x q => mkdirs_below base x q t)
    (h.docile.of_same fun target ht => ?_) fun target ht => ?_
  · exact Operation.exec_apart (by simpa [Operation.touches] using base_target ht []) t
  · refine Operation.exec_isDirectory (fun p hp => ?_)
    obtain rfl : p = base := by simpa [Operation.touches] using hp
    exact clear_above ht (.inl (by simpa using base_target ht []))

/-! ### The snapshot -/

/-- A path below the snapshot's two directories. -/
def InSnapshot (id : String) (p : Path) : Prop :=
  ∃ x ∈ ["before", "present"], ∃ y q, p = base ++ id :: x :: y :: q

theorem inSnapshot_before (id : String) (target : Target) : InSnapshot id (before id target) :=
  ⟨"before", by simp, name target, [], rfl⟩

theorem inSnapshot_present (id : String) (target : Target) : InSnapshot id (present id target) :=
  ⟨"present", by simp, name target, [], rfl⟩

/-- The snapshot is being taken. -/
structure Taking (kind : Target → Bool) (begun : List (String × String)) (id : String)
    (t : FileTree) : Prop where
  recoverable : Recoverable kind begun t
  holds : Holds begun id t
  unfinished : Unfinished begun id t
  before : (get (transaction id ++ ["before"]) t).isDirectory = true
  present : (get (transaction id ++ ["present"]) t).isDirectory = true

/-- The snapshot grows. -/
theorem Taking.steady (h : Taking kind begun id t) (hsteady : Steady (InSnapshot id) t t')
    (hbefore : (get (transaction id ++ ["before"]) t').isDirectory = true)
    (hpresent : (get (transaction id ++ ["present"]) t').isDirectory = true) :
    Taking kind begun id t' := by
  have hid := h.holds.unmarked
  -- A path is kept that is apart from all below the two directories.
  have hsame : ∀ q, (∀ x ∈ ["before", "present"], ∀ y r, Apart (base ++ id :: x :: y :: r) q) →
      get q t' = get q t := by
    intro q hq
    refine hsteady.same q fun p hp => ?_
    obtain ⟨x, hx, y, r, rfl⟩ := hp
    exact hq x hx y r
  have hactive : get active t' = get active t :=
    hsame active fun x hx y r => by simp [active, hid.active]
  have hlock : get lock t' = get lock t := hsame lock fun x hx y r => by simp [lock, hid.lock]
  have hnew : get activeNew t' = get activeNew t :=
    hsame activeNew fun x hx y r => by simp [activeNew, hid.activeNew]
  have hpart : ∀ part ∉ ["before", "present"],
      get (base ++ [id, part]) t' = get (base ++ [id, part]) t := by
    refine fun part hpart => hsame _ fun x hx y r => ?_
    have hne : x ≠ part := fun heq => hpart (heq ▸ hx)
    simp [hne]
  have hstate : get (stateFile id) t' = get (stateFile id) t := hpart "state" (by decide)
  have hidentity : get (identityFile id) t' = get (identityFile id) t :=
    hpart "identity" (by decide)
  -- There is still no state, and the identity is as it was.
  have hunfinished : Unfinished begun id t' := by
    obtain ⟨identity, hmem, hvalid, heq⟩ := h.unfinished.identity
    exact ⟨hactive.trans h.unfinished.active, hstate.trans h.unfinished.state, identity, hmem,
      hvalid, (contents_congr hidentity).trans heq⟩
  have hholds : Holds begun id t' := h.holds.of_same hlock hactive hstate hidentity
  have hone : Apiece id t t' := by
    refine ⟨fun id' _ hne => hsame _ fun x hx y r => ?_, hsteady.above⟩
    simp [transaction, hne.symm]
  obtain ⟨identity, hmem, -⟩ := h.unfinished.identity
  refine ⟨⟨?_, ?_, ?_, .inr ⟨id, hholds⟩⟩, hholds, hunfinished, hbefore, hpresent⟩
  · exact h.recoverable.docile.of_same fun target ht =>
      hsame target fun x hx y r => base_target ht _
  · exact h.recoverable.stored.apiece hone (List.mem_map.mpr ⟨(id, identity), hmem, rfl⟩)
      fun hsome => absurd hunfinished.state hsome
  · rw [Announced, hnew]
    exact h.recoverable.announced

/-- A part of a script that only adds to the snapshot. -/
theorem safely_taking {P : Cut Point → Prop} {s : Script Point Unit}
    (hs : Touches (InSnapshot id) s.run) (h : Taking kind begun id t) :
    Safely P (Taking kind begun id) (fun _ => Taking kind begun id) s.run t := by
  have hclear : ∀ p, InSnapshot id p → ∀ target ∈ targets, Operation.Clear p (above target) := by
    rintro p ⟨x, hx, y, q, rfl⟩ target ht
    exact clear_above ht (.inl (base_target ht _))
  have hdirectory : ∀ x ∈ ["before", "present"], ∀ p, InSnapshot id p →
      Operation.Clear p (transaction id ++ [x]) := by
    rintro x hx p ⟨x', hx', y, q, rfl⟩
    by_cases heq : x' = x
    · exact .inr ⟨y, q, by simp [transaction, heq]⟩
    · exact .inl (by simp [transaction, heq])
  have hsteady := safely_steady (P := P) hclear hs (.refl _ t)
  have hbefore := hs.directory (P := P) (hdirectory "before" (by simp)) h.before
  have hpresent := hs.directory (P := P) (hdirectory "present" (by simp)) h.present
  have htaking : ∀ t', Steady (InSnapshot id) t t' ∧
      (get (transaction id ++ ["before"]) t').isDirectory = true ∧
      (get (transaction id ++ ["present"]) t').isDirectory = true → Taking kind begun id t' :=
    fun t' h' => h.steady h'.1 h'.2.1 h'.2.2
  exact ((hsteady.and (hbefore.and hpresent)).weaken htaking).mono fun _ t' h' => htaking t' h'

/-- One round succeeds. -/
theorem snapshot_succeeds {target : Target} (h : Taking kind begun id t)
    (hbefore : get (before id target) t = none) (hpresent : get (present id target) t = none) :
    Ends (fun r _ => r = .ok ()) (snapshot id target) t := by
  refine Ends.require (fun hfail => by cases hfail) fun _ => ?_
  show Ends _ _ t
  refine Ends.ask ?_
  -- A target that is not there leaves no mark.
  cases htarget : get target t with
  | none =>
    rw [Option.isSome_none, if_neg Bool.false_ne_true]
    exact Safely.pure rfl
  | some n =>
    rw [Option.isSome_some, if_pos rfl]
    have hcopy : (Operation.copy target (before id target)).exec t =
        (true, put (before id target) (some n) t) := by
      refine Operation.exec_copy hbefore htarget ?_
      simpa [above, before, transaction, base] using h.before
    refine Ends.require (fun hfail => by rw [hcopy] at hfail; cases hfail) fun _ => ?_
    rw [hcopy]
    have habove : (get (above (present id target))
        (put (before id target) (some n) t)).isDirectory = true := by
      have hsplit : above (present id target) = transaction id ++ ["present"] := by
        simp [above, present, transaction, base]
      rw [hsplit, get_put_apart (by simp [before, transaction])]
      exact h.present
    have hmark := Operation.exec_write (c := "") habove
      (.inl (by rw [get_put_apart (before_present id target target), hpresent]))
    refine Ends.require_last (fun hfail => ?_) fun _ => rfl
    rw [hmark] at hfail
    cases hfail

/-- A round copies its target. -/
theorem snapshot_copied {target : Target} (ht : target ∈ targets) (h : Taking kind begun id t)
    (hcopy : get (before id target) ((snapshot id target).result t).2 = get target t)
    (hmark : (get (present id target) ((snapshot id target).result t).2).isFile =
      (get target t).isSome) : Usable kind id target ((snapshot id target).result t).2 := by
  intro hfile
  rw [hmark] at hfile
  have hsome : get target t ≠ none := Option.isSome_iff_ne_none.mp hfile
  have hkept : get target ((snapshot id target).result t).2 = get target t :=
    Touches.result (snapshot_touches id target (base_target ht _) (base_target ht _)) t
  rw [hcopy]
  refine ⟨hsome, (h.recoverable.docile target ht).resolve_left hsome, ?_⟩
  refine isDirectory_of_get (x := nameOf target) ?_
  rw [← target_split target ht, hkept]
  exact hsome

/-- It leaves the copies of the others. -/
theorem snapshot_other {target other : Target} (ht : target ∈ targets) (ho : other ∈ targets)
    (hne : target ≠ other) :
    get (before id other) ((snapshot id target).result t).2 = get (before id other) t ∧
      get (present id other) ((snapshot id target).result t).2 = get (present id other) t :=
  ⟨Touches.result (snapshot_touches id target (before_apart ht ho hne)
      (present_before id target other)) t,
    Touches.result (snapshot_touches id target (before_present id target other)
      (present_apart ht ho hne)) t⟩

/-- And the targets' directories. -/
theorem snapshot_above (target : Target) {other : Target} (ho : other ∈ targets)
    (hd : (get (above other) t).isDirectory = true) :
    (get (above other) ((snapshot id target).result t).2).isDirectory = true := by
  have htouches : Touches (InSnapshot id) (snapshot id target).run :=
    snapshot_touches id target (inSnapshot_before id target) (inSnapshot_present id target)
  refine (htouches.directory (P := fun _ => False) (fun p hp => ?_) hd).result
  obtain ⟨x, hx, y, q, rfl⟩ := hp
  exact clear_above ho (.inl (base_target ho _))

/-- The loop succeeds, and all targets are copied. -/
theorem safely_snapshots {P : Cut Point → Prop} (h : Taking kind begun id t)
    (hnone : ∀ target ∈ targets,
      get (before id target) t = none ∧ get (present id target) t = none) :
    Safely P (Recoverable kind begun) (fun r t' => r = .ok () ∧ Taking kind begun id t' ∧
      ∀ target ∈ targets, Usable kind id target t')
      (Script.each (snapshot id) targets).run t := by
  -- The targets that are done are usable, and of the others nothing is there yet.
  let J : List Target → FileTree → Prop := fun done t => Taking kind begun id t ∧
    ∀ target ∈ targets, (target ∈ done → Usable kind id target t) ∧
      (target ∉ done → get (before id target) t = none ∧ get (present id target) t = none)
  have hJ : J [] t := ⟨h, fun target ht => ⟨by simp, fun _ => hnone target ht⟩⟩
  have hnodup : targets.Nodup := by decide +kernel
  refine (Safely.each (J := J) (E := fun _ _ => False) targets ?_
    (List.nil_append targets) hJ).mono fun r t' h' => ?_
  · intro done a rest t hall hJ
    have ha : a ∈ targets := hall ▸ List.mem_append_right done List.mem_cons_self
    have hnew : a ∉ done := by
      intro hmem
      rw [← hall] at hnodup
      exact (List.nodup_append.mp hnodup).2.2 a hmem a List.mem_cons_self rfl
    obtain ⟨hbefore, hpresent⟩ := (hJ.2 a ha).2 hnew
    have htaking := safely_taking (P := P)
      (snapshot_touches id a (inSnapshot_before id a) (inSnapshot_present id a)) hJ.1
    -- How the round ends, whatever the cuts in it leave.
    have hends : Ends (fun r t' => r = .ok () ∧ ∀ target ∈ targets,
        (target ∈ done ++ [a] → Usable kind id target t') ∧
        (target ∉ done ++ [a] →
          get (before id target) t' = none ∧ get (present id target) t' = none))
        (snapshot id a) t := by
      have hok := ends_iff.mp (snapshot_succeeds hJ.1 hbefore hpresent)
      obtain ⟨hcopy, hmark⟩ := ends_iff.mp (snapshot_round hbefore hpresent) hok
      refine ends_iff.mpr ⟨hok, fun target ht => ?_⟩
      by_cases hne : a = target
      · subst hne
        exact ⟨fun _ => snapshot_copied ha hJ.1 hcopy hmark, fun hnot => (hnot (by simp)).elim⟩
      · obtain ⟨hbefore', hpresent'⟩ := snapshot_other (t := t) ha ht hne
        rw [Usable, hbefore', hpresent']
        refine ⟨fun hmem hfile => ?_, fun hnot =>
          (hJ.2 target ht).2 fun hmem => hnot (List.mem_append_left [a] hmem)⟩
        have hdone : target ∈ done := (List.mem_append.mp hmem).resolve_right fun hlast =>
          hne (List.mem_singleton.mp hlast).symm
        obtain ⟨hsome, hkind, hdirectory⟩ := (hJ.2 target ht).1 hdone hfile
        exact ⟨hsome, hkind, snapshot_above a ht hdirectory⟩
    exact ((htaking.and hends.safely).weaken fun _ h' => h'.1.recoverable).mono fun r t' h' =>
      ⟨fun _ => ⟨h'.1, h'.2.2⟩, fun n hn => by rw [h'.2.1] at hn; cases hn⟩
  · cases r with
    | error n => exact (h'.2 n rfl).elim
    | ok u =>
      obtain ⟨htaking, hcopied⟩ := h'.1 rfl
      exact ⟨rfl, htaking, fun target ht => (hcopied target ht).1 ht⟩

/-! ### The markers of a new transaction -/

/-- The lock, its owner and the transaction's directory. -/
def opened (id : String) (t : FileTree) : FileTree :=
  put (transaction id) (some (.directory []))
    (put owner (some (.file (line id))) (put lock (some (.directory [])) t))

/-- The snapshot's two directories. -/
def parted (id : String) (t : FileTree) : FileTree :=
  put (transaction id ++ ["present"]) (some (.directory []))
    (put (transaction id ++ ["before"]) (some (.directory [])) t)

/-- A path that is apart from the lock and the transaction is as it was. -/
theorem get_opened {q : Path} (hlock : Apart lock q) (howner : Apart owner q)
    (hown : Apart (transaction id) q) (t : FileTree) : get q (opened id t) = get q t := by
  rw [opened, get_put_apart hown, get_put_apart howner, get_put_apart hlock]

theorem get_parted {q : Path} (hbefore : Apart (transaction id ++ ["before"]) q)
    (hpresent : Apart (transaction id ++ ["present"]) q) (t : FileTree) :
    get q (parted id t) = get q t := by
  rw [parted, get_put_apart hpresent, get_put_apart hbefore]

/-- The lock has its owner, and the transaction is empty. -/
theorem opened_spec (hid : Unmarked id) (hvalid : validId id = true)
    (hbase : (get base t).isDirectory = true) :
    Locked id (opened id t) ∧ get (transaction id) (opened id t) = some (.directory []) := by
  have hlock : get lock (put lock (some (.directory [])) t) = some (.directory []) :=
    get_put_child _ hbase
  have hlocked := locked_put_owner hlock (contents_of_line hvalid rfl)
  have hbase₁ : (get base (put owner (some (.file (line id)))
      (put lock (some (.directory [])) t))).isDirectory = true := by
    show (get base
      (put (base ++ "lock" :: ["owner"]) _ (put (base ++ "lock" :: []) _ t))).isDirectory = true
    rw [isDirectory_get_put, isDirectory_get_put, hbase]
  refine ⟨hlocked.of_same (get_put_apart (by simp [transaction, lock, hid.lock]) _ _), ?_⟩
  exact get_put_child _ hbase₁

/-- Both directories are empty, and nothing else is in the transaction. -/
theorem parted_spec (h : get (transaction id) t = some (.directory [])) :
    get (transaction id) (parted id t) = some (.directory
      [("present", .directory []), ("before", .directory [])]) := by
  rw [parted, get_put_append, get_put_append, h]
  rfl

/-- With the identity, as far as it was written. -/
def identified (id c : String) (t : FileTree) : FileTree :=
  put (identityFile id) (some (.file c)) (parted id (opened id t))

theorem get_identified {q : Path} (hlock : Apart lock q) (howner : Apart owner q)
    (hown : Apart (transaction id) q) (c : String) (t : FileTree) :
    get q (identified id c t) = get q t := by
  have hidentity : Apart (identityFile id) q := hown.append_left ["identity"]
  rw [identified, get_put_apart hidentity,
    get_parted (hown.append_left ["before"]) (hown.append_left ["present"]),
    get_opened hlock howner hown]

/-- What is in the transaction by then. -/
theorem identified_spec (h : get (transaction id) (opened id t) = some (.directory []))
    (c : String) : get (transaction id) (identified id c t) = some (.directory
      [("identity", .file c), ("present", .directory []), ("before", .directory [])]) := by
  show get (transaction id) (put (transaction id ++ "identity" :: []) _ _) = _
  rw [get_put_append, parted_spec h]
  rfl

/-- One transaction is new, the others are as they were. -/
theorem apiece_identified (id c : String) (t : FileTree) : Apiece id t (identified id c t) :=
  ((((((apiece_put (.inr (by simp)) [] _ t).trans (apiece_put (.inr (by simp)) ["owner"] _ _)).trans
    (apiece_put (.inl rfl) [] _ _)).trans (apiece_put (.inl rfl) ["before"] _ _)).trans
    (apiece_put (.inl rfl) ["present"] _ _)).trans (apiece_put (.inl rfl) ["identity"] _ _))

/-- Once the identity is written, the snapshot is being taken, and it is empty. -/
theorem taking_identified (h : Recoverable kind begun t) {identity : String}
    (hmem : (id, identity) ∈ begun) (hid : Unmarked id) (hvalid : validId id = true)
    (hidentity : validIdentity identity = true) (hbase : (get base t).isDirectory = true)
    (hactive : get active t = none) {c : String} (hc : contents [] (some (.file c)) = identity) :
    Taking kind begun id (identified id c t) ∧
      contents (identityFile id) (identified id c t) = identity ∧
      ∀ target ∈ targets, get (before id target) (identified id c t) = none ∧
        get (present id target) (identified id c t) = none := by
  obtain ⟨hlocked, hopened⟩ := opened_spec hid hvalid hbase
  -- All that is in the transaction by now.
  have hpart : ∀ q, get (transaction id ++ q) (identified id c t) =
      get q (some (.directory [("identity", .file c), ("present", .directory []),
        ("before", .directory [])])) := fun q => by rw [get_append, identified_spec hopened]
  have hstate : get (stateFile id) (identified id c t) = none := hpart ["state"]
  have hidentified : contents (identityFile id) (identified id c t) = identity := by
    have hget : get (identityFile id) (identified id c t) = some (.file c) := hpart ["identity"]
    rw [← hc]
    unfold contents
    rw [hget]
    rfl
  have hactive₁ : get active (identified id c t) = none := by
    rw [get_identified (by simp [lock, active]) (by simp [owner, active])
      (by simp [transaction, active, hid.active]), hactive]
  have hlocked₁ : Locked id (identified id c t) := by
    refine hlocked.of_same ?_
    rw [identified, get_put_apart (by simp [identityFile, lock, hid.lock]),
      get_parted (by simp [transaction, lock, hid.lock]) (by simp [transaction, lock, hid.lock])]
  have hunfinished : Unfinished begun id (identified id c t) :=
    ⟨hactive₁, hstate, identity, hmem, hidentity, hidentified⟩
  have hholds : Holds begun id (identified id c t) := ⟨hid, hvalid, hlocked₁, .inl hunfinished⟩
  -- The other transactions and the targets are not touched.
  have hrecoverable : Recoverable kind begun (identified id c t) := by
    refine ⟨?_, ?_, ?_, .inr ⟨id, hholds⟩⟩
    · exact h.docile.of_same fun target ht =>
        get_identified (base_target ht _) (base_target ht _) (base_target ht _) c t
    · exact h.stored.apiece (apiece_identified id c t)
        (List.mem_map.mpr ⟨(id, identity), hmem, rfl⟩) fun hsome => absurd hstate hsome
    · rw [Announced, get_identified (by simp [lock, activeNew]) (by simp [owner, activeNew])
        (by simp [transaction, activeNew, hid.activeNew])]
      exact h.announced
  refine ⟨⟨hrecoverable, hholds, hunfinished, ?_, ?_⟩, hidentified, fun target _ =>
    ⟨hpart ["before", name target], hpart ["present", name target]⟩⟩
  · rw [hpart ["before"]]
    rfl
  · rw [hpart ["present"]]
    rfl

/-! ### The active marker -/

/-- A file is put at a marker. -/
theorem recoverable_put_marker (h : Recoverable kind begun t) {x : String}
    (hx : x ∈ ["active", "active.new"]) (v : FileTree)
    (hannounced : Announced (put (base ++ [x]) v t))
    (hmarks : Marks begun (put (base ++ [x]) v t)) :
    Recoverable kind begun (put (base ++ [x]) v t) := by
  -- No id is the name of a marker.
  have hapart : ∀ id, Unmarked id → Apart (base ++ [x]) (transaction id) := by
    intro id hid
    have hne : x ≠ id := by
      rintro rfl
      simp [hid.active, hid.activeNew] at hx
    simp [transaction, hne]
  have hother : ∀ id, Unmarked id →
      get (transaction id) (put (base ++ [x]) v t) = get (transaction id) t := fun id hid =>
    get_put_apart (hapart id hid) v t
  have habove : ∀ target ∈ targets, (get (above target) t).isDirectory = true →
      (get (above target) (put (base ++ [x]) v t)).isDirectory = true := fun target ht =>
    Operation.put_shallow Operation.shallow_isDirectory (clear_above ht (.inl (base_target ht _))) v
  refine ⟨h.docile.of_same fun target ht => get_put_apart (base_target ht _) v t, ⟨?_, ?_⟩,
    hannounced, hmarks⟩
  · intro id hid hnot
    rw [hother id hid]
    exact h.stored.fresh id hid hnot
  · intro id hid hstate
    have hbelow := fun q => get_below (hother id hid) q
    have hsame : get (stateFile id) (put (base ++ [x]) v t) = get (stateFile id) t :=
      hbelow ["state"]
    rw [hsame] at hstate
    obtain ⟨hknown, identity, hmem, hrecorded⟩ := h.stored.recorded id hid hstate
    rw [contents_congr hsame]
    exact ⟨hknown, identity, hmem, hrecorded.of_same (hbelow _) (hbelow _) (hbelow ["identity"])
      habove⟩

/-- `active.new` is none of the markers that count. -/
theorem Marks.put_new (h : Marks begun t) (v : FileTree) : Marks begun (put activeNew v t) := by
  refine h.of_same (get_put_apart (by simp [activeNew, lock]) v t)
    (get_put_apart (by simp [activeNew, active]) v t) fun id hid =>
      ⟨get_put_apart ?_ v t, get_put_apart ?_ v t⟩
  · simp [activeNew, stateFile, hid.activeNew.symm]
  · simp [activeNew, identityFile, hid.activeNew.symm]

/-- `active.new` is written. -/
theorem recoverable_put_new (h : Recoverable kind begun t) (c : String) :
    Recoverable kind begun (put activeNew (some (.file c)) t) := by
  refine recoverable_put_marker h (x := "active.new") (by simp) _ ?_ (h.marks.put_new _)
  rcases get_put_or_none (p := activeNew) (by simp [activeNew, base]) (some (.file c)) t with
    hput | hnone
  · exact .inr (by rw [← activeNew, hput]; rfl)
  · exact .inl hnone

/-- The transaction becomes the active one. -/
theorem safely_activate (x : Invocation) (h : Recoverable kind begun t)
    (hholds : Holds begun x.id t) (hstate : get (stateFile x.id) t ≠ none)
    (hactive : get active t = none) :
    Safely x.spares (Recoverable kind begun) (fun r t' => r = .ok () ∧ Recoverable kind begun t')
      (activate x.id).run t := by
  have hid := hholds.unmarked
  have hbase := (directories_of_state hstate).2
  refine Safely.require (fun _ => h) (fun _ _ _ htorn => htorn.elim) (fun hfail => by cases hfail)
    fun _ => ?_
  show Safely _ _ _ _ t
  have hwrite : (Operation.write activeNew (line x.id)).exec t =
      (true, put activeNew (some (.file (line x.id))) t) := Operation.exec_write hbase h.announced
  refine Safely.require (fun _ => h) (fun left t' _ htorn => ?_) (fun hfail => ?_) fun _ => ?_
  · obtain ⟨-, ⟨part, -, rfl⟩, rfl⟩ := htorn
    exact recoverable_put_new h part
  · rw [hwrite] at hfail
    cases hfail
  rw [hwrite]
  have h₁ := recoverable_put_new h (line x.id)
  have hnew₁ : get activeNew (put activeNew (some (.file (line x.id))) t) =
      some (.file (line x.id)) := get_put_child _ hbase
  have hactive₁ : get active (put activeNew (some (.file (line x.id))) t) = none := by
    rw [get_put_apart (by simp [activeNew, active]), hactive]
  have hstate₁ : get (stateFile x.id) (put activeNew (some (.file (line x.id))) t) ≠ none := by
    rw [get_put_apart (by simp [activeNew, stateFile, hid.activeNew.symm])]
    exact hstate
  have hlocked₁ : Locked x.id (put activeNew (some (.file (line x.id))) t) :=
    hholds.locked.of_same (get_put_apart (by simp [activeNew, lock]) _ t)
  show Safely _ _ _ _ (put activeNew (some (.file (line x.id))) t)
  generalize put activeNew (some (.file (line x.id))) t = t₁ at *
  have hbase₁ := (directories_of_state hstate₁).2
  -- `mv` within a directory is a rename, which is done at once.
  have hwithin : Operation.within activeNew active t₁ = active :=
    Operation.within_of_not_directory (by rw [hactive₁]; rfl) activeNew
  have hmove : (Operation.move activeNew active).exec t₁ =
      (true, put active (some (.file (line x.id))) (put activeNew none t₁)) := by
    rw [Operation.exec, hwithin, Operation.rename, hnew₁]
    exact if_pos ⟨hbase₁, by rw [hactive₁]; rfl⟩
  refine Safely.require (fun _ => h₁) (fun left t' _ htorn => ?_) (fun hfail => ?_) fun _ => ?_
  · obtain ⟨-, hne, -⟩ := htorn
    rw [hwithin] at hne
    exact absurd rfl hne
  · rw [hmove] at hfail
    cases hfail
  rw [hmove]
  -- The marker that is moved is gone from its old place first.
  have h₂ : Recoverable kind begun
      (put active (some (.file (line x.id))) (put activeNew none t₁)) := by
    have hnone : get activeNew (put activeNew none t₁) = none := get_put_none activeNew t₁
    have hstate₂ : get (stateFile x.id) (put activeNew none t₁) ≠ none := by
      rw [get_put_apart (by simp [activeNew, stateFile, hid.activeNew.symm])]
      exact hstate₁
    have hremoved : Recoverable kind begun (put activeNew none t₁) :=
      recoverable_put_marker h₁ (x := "active.new") (by simp) none (.inl hnone) (h₁.marks.put_new _)
    refine recoverable_put_marker hremoved (x := "active") (by simp) _ (.inl ?_) (.inr ⟨x.id, ?_⟩)
    · rw [get_put_apart (by simp [activeNew]), hnone]
    · exact holds_put_active hid hholds.valid
        (hlocked₁.of_same (get_put_apart (by simp [activeNew, lock]) _ _)) hstate₂
        (contents_of_line hholds.valid rfl)
  refine Safely.require (fun _ => h₂) (fun _ _ _ htorn => htorn.elim) (fun hfail => by cases hfail)
    fun _ => ?_
  exact ⟨fun _ => h₂, fun _ _ _ htorn => htorn.elim, rfl, h₂⟩

/-! ### `begin` -/

/-- From the finished snapshot on. -/
theorem safely_finish (x : Invocation) (h : Taking kind begun x.id t)
    (hmem : (x.id, x.identity) ∈ begun) (hidentity : validIdentity x.identity = true)
    (hsame : contents (identityFile x.id) t = x.identity)
    (husable : ∀ target ∈ targets, Usable kind x.id target t) :
    Safely x.spares (Recoverable kind begun) (fun r t' => r = .ok () ∧ Recoverable kind begun t')
      (do
        Script.require .snapshotSync .idle
        Script.require .state (.write (stateFile x.id) (line "pending"))
        activate x.id : Script Point Unit).run t := by
  have hid := h.holds.unmarked
  have hrecoverable := h.recoverable
  have hdirectory : (get (transaction x.id) t).isDirectory = true := by
    refine isDirectory_of_get (x := "before") fun hnone => ?_
    have hbefore := h.before
    rw [hnone] at hbefore
    cases hbefore
  -- Any known state can be put back from now on, also one that is written in part.
  have hput : ∀ c, contents [] (some (.file c)) ∈ knownStates →
      Recoverable kind begun (put (stateFile x.id) (some (.file c)) t) := fun c hc =>
    recoverable_put_state hrecoverable hid hdirectory
      ⟨x.identity, hmem, hidentity, hsame, husable⟩ hc
  refine Safely.require (fun _ => hrecoverable) (fun _ _ _ htorn => htorn.elim)
    (fun hfail => by cases hfail) fun _ => ?_
  show Safely _ _ _ _ t
  have hwrite : (Operation.write (stateFile x.id) (line "pending")).exec t =
      (true, put (stateFile x.id) (some (.file (line "pending"))) t) := by
    refine Operation.exec_write ?_ (.inl h.unfinished.state)
    simpa [above, stateFile, transaction, base] using hdirectory
  refine Safely.require (fun _ => hrecoverable) (fun left t' hspares htorn => ?_) (fun hfail => ?_)
    fun _ => ?_
  · obtain ⟨-, ⟨part, -, rfl⟩, rfl⟩ := htorn
    refine hput part ?_
    rw [hspares.2.1 "pending" rfl]
    simp [knownStates]
  · rw [hwrite] at hfail
    cases hfail
  rw [hwrite]
  have hpending : contents [] (some (.file (line "pending"))) = "pending" :=
    contents_of_line (by decide) rfl
  have hstate₁ : get (stateFile x.id) (put (stateFile x.id) (some (.file (line "pending"))) t) ≠
      none := by
    have hself : get (stateFile x.id) (put (stateFile x.id) (some (.file (line "pending"))) t) =
        some (.file (line "pending")) := get_put_self _ (by simp [stateFile, base]) hdirectory
    rw [hself]
    simp
  have hactive₁ : get active (put (stateFile x.id) (some (.file (line "pending"))) t) = none := by
    rw [get_put_apart (by simp [stateFile, active, hid.active])]
    exact h.unfinished.active
  refine safely_activate x (hput _ (by rw [hpending]; simp [knownStates])) ?_ hstate₁ hactive₁
  refine ⟨hid, h.holds.valid, h.holds.locked.of_same ?_, .inr ⟨hstate₁, .inl hactive₁⟩⟩
  exact get_put_apart (by simp [stateFile, lock, hid.lock]) _ t

/-- An identity could be an id. -/
theorem validId_of_validIdentity {identity : String} (h : validIdentity identity = true) :
    validId identity = true := by
  obtain ⟨hne, hall⟩ := Bool.and_eq_true_iff.mp h
  refine Bool.and_eq_true_iff.mpr ⟨hne, List.all_eq_true.mpr fun c hc => ?_⟩
  have hchar := List.all_eq_true.mp hall c hc
  have halphanum : c.isAlphanum = true := by
    show (c.isAlpha || c.isDigit) = true
    rcases Bool.or_eq_true_iff.mp hchar with hdigit | hletter
    · rw [hdigit, Bool.or_true]
    · obtain ⟨ha, hf⟩ := Bool.and_eq_true_iff.mp hletter
      have hle := of_decide_eq_true ha
      have hge : c ≤ 'z' := Char.le_trans (of_decide_eq_true hf) (by decide)
      have hlower : c.isLower = true :=
        Bool.and_eq_true_iff.mpr ⟨decide_eq_true hle, decide_eq_true hge⟩
      have halpha : c.isAlpha = true := by
        show (c.isUpper || c.isLower) = true
        rw [hlower, Bool.or_true]
      rw [halpha, Bool.true_or]
  rw [halphanum, Bool.true_or]

/-- The two directories are made. -/
theorem exec_parts (h : get (transaction id) t = some (.directory [])) :
    (Operation.mkdir [transaction id ++ ["before"], transaction id ++ ["present"]]).exec t =
      (true, parted id t) := by
  have hdirectory : ∀ x, above (transaction id ++ [x]) = transaction id := fun x => by
    simp [above, transaction, base]
  have hbefore : Operation.makeDirectory (transaction id ++ ["before"]) t =
      (true, put (transaction id ++ ["before"]) (some (.directory [])) t) := by
    refine Operation.makeDirectory_of_none ?_ ?_
    · rw [hdirectory, h]
      rfl
    · rw [get_append, h]
      rfl
  have hbetween : get (transaction id)
      (put (transaction id ++ ["before"]) (some (.directory [])) t) =
      some (.directory [("before", .directory [])]) := by
    rw [get_put_append, h]
    rfl
  have hpresent : Operation.makeDirectory (transaction id ++ ["present"])
      (put (transaction id ++ ["before"]) (some (.directory [])) t) = (true, parted id t) := by
    refine Operation.makeDirectory_of_none ?_ ?_
    · rw [hdirectory, hbetween]
      rfl
    · rw [get_append, hbetween]
      rfl
  simp only [Operation.exec, Operation.makeDirectories, hbefore, hpresent, Bool.and_self]

/-- From the lock on. -/
theorem safely_beginLocked (x : Invocation) (h : Recoverable kind begun t)
    (hmem : (x.id, x.identity) ∈ begun) (hid : Unmarked x.id) (hvalid : validId x.id = true)
    (hidentity : validIdentity x.identity = true) (hnew : get (transaction x.id) t = none)
    (hbase : (get base t).isDirectory = true) (hfree : Free t) :
    Safely x.spares (Recoverable kind begun) (fun r t' => r = .ok () ∧ Recoverable kind begun t')
      (beginLocked x.id x.identity).run (put lock (some (.directory [])) t) := by
  have hlock : get lock (put lock (some (.directory [])) t) = some (.directory []) :=
    get_put_child _ hbase
  have howner : (Operation.write owner (line x.id)).exec (put lock (some (.directory [])) t) =
      (true, put owner (some (.file (line x.id))) (put lock (some (.directory [])) t)) := by
    refine Operation.exec_write ?_ (.inl ?_)
    · show (get lock _).isDirectory = true
      rw [hlock]
      rfl
    · show get (lock ++ ["owner"]) _ = none
      rw [get_append, hlock]
      rfl
  refine Safely.require (fun hspares => (hspares (by decide)).elim)
    (fun _ _ hspares => (hspares.1 (by decide)).elim) (fun hfail => ?_) fun _ => ?_
  · rw [howner] at hfail
    cases hfail
  rw [howner]
  -- The transaction's directory is new, so nothing has to be undone.
  have hmade : (Operation.mkdir [transaction x.id]).exec
      (put owner (some (.file (line x.id))) (put lock (some (.directory [])) t)) =
      (true, opened x.id t) := by
    rw [Operation.exec_mkdir_one]
    refine Operation.makeDirectory_of_none ?_ ?_
    · show (get base
        (put (base ++ "lock" :: ["owner"]) _ (put (base ++ "lock" :: []) _ t))).isDirectory = true
      rw [isDirectory_get_put, isDirectory_get_put, hbase]
    · rw [get_put_apart (by simp [owner, transaction, hid.lock.symm]),
        get_put_apart (by simp [lock, transaction, hid.lock.symm]), hnew]
  refine Safely.status (fun hspares => (hspares (by decide)).elim)
    (fun _ _ hspares => (hspares.1 (by decide)).elim) ?_
  rw [hmade]
  show Safely _ _ _ (prepareTrapped x.id x.identity).run (opened x.id t)
  obtain ⟨-, hopened⟩ := opened_spec hid hvalid hbase
  refine Safely.trap (fun hspares => (hspares (by decide)).elim) ?_
  have hparted : (Operation.mkdir
      [transaction x.id ++ ["before"], transaction x.id ++ ["present"]]).exec (opened x.id t) =
      (true, parted x.id (opened x.id t)) := exec_parts hopened
  refine Safely.require (fun hspares => (hspares (by decide)).elim)
    (fun _ _ hspares => (hspares.1 (by decide)).elim) (fun hfail => ?_) fun _ => ?_
  · rw [hparted] at hfail
    cases hfail
  rw [hparted]
  -- From the identity on the snapshot can be discarded, also when its last byte is missing.
  have htaking := fun c hc =>
    taking_identified h hmem hid hvalid hidentity hbase hfree.1 (c := c) hc
  have hwrite : (Operation.write (identityFile x.id) (line x.identity)).exec
      (parted x.id (opened x.id t)) = (true, identified x.id (line x.identity) t) := by
    have hparts := parted_spec hopened
    refine Operation.exec_write ?_ (.inl ?_)
    · have habove : above (identityFile x.id) = transaction x.id := by
        simp [above, identityFile, transaction, base]
      rw [habove, hparts]
      rfl
    · show get (transaction x.id ++ ["identity"]) _ = none
      rw [get_append, hparts]
      rfl
  refine Safely.require (fun hspares => (hspares (by decide)).elim)
    (fun left t' hspares htorn => ?_) (fun hfail => ?_) fun _ => ?_
  · obtain ⟨-, ⟨part, -, rfl⟩, rfl⟩ := htorn
    exact (htaking part (hspares.2.1 x.identity rfl)).1.recoverable
  · rw [hwrite] at hfail
    cases hfail
  rw [hwrite]
  obtain ⟨htaken, hsame, hnone⟩ :=
    htaking (line x.identity) (contents_of_line (validId_of_validIdentity hidentity) rfl)
  -- The loop leaves the identity, which is needed for the state.
  have htouches : Touches (InSnapshot x.id) (Script.each (snapshot x.id) targets).run :=
    .each fun target _ =>
      snapshot_touches x.id target (inSnapshot_before x.id target) (inSnapshot_present x.id target)
  have hloop := (safely_snapshots (P := x.spares) htaken hnone).and
    (htouches.safely (Same.refl _ (identified x.id (line x.identity) t)))
  refine Safely.andThen (hloop.weaken fun _ h' => h'.1) (fun n t' h' => ?_) fun _ t' h' => ?_
  · cases h'.1.1
  · obtain ⟨⟨-, htaken', husable⟩, hkept⟩ := h'
    refine safely_finish x htaken' hmem hidentity ?_ husable
    rw [contents_congr (hkept (identityFile x.id) ?_), hsame]
    rintro p ⟨y, hy, z, q, rfl⟩
    have hne : y ≠ "identity" := by
      rintro rfl
      simp at hy
    simp [identityFile, hne]

/-- Without a lock there are no markers. -/
theorem Marks.free (h : Marks begun t) (hlock : get lock t = none) : Free t := by
  rcases h with hfree | ⟨id, hholds⟩
  · exact hfree
  · obtain ⟨c, hlocked, -⟩ := hholds.locked
    rw [hlock] at hlocked
    cases hlocked

/-- What `mkdir -p` leaves when it succeeds. -/
theorem isDirectory_base (h : ((Operation.mkdirs base).exec t).1 = true) :
    (get base ((Operation.mkdirs base).exec t).2).isDirectory = true := by
  simp only [Operation.exec] at h ⊢
  split
  · rename_i hdir
    exact hdir
  · rename_i hdir
    rw [if_neg hdir] at h
    split
    · rename_i t' he
      exact Operation.ensure_isDirectory he
    · rename_i he
      rw [he] at h
      cases h

/-- `begin`, with a new id. It succeeds where there is no lock. -/
theorem safely_begin (x : Invocation) (h : Recoverable kind begun t)
    (hnew : x.id ∉ begun.map Prod.fst) (hid : Unmarked x.id) (hvalid : validId x.id = true)
    (hidentity : validIdentity x.identity = true) :
    Safely x.spares (Recoverable kind ((x.id, x.identity) :: begun))
      (fun r t' => Recoverable kind ((x.id, x.identity) :: begun) t' ∧
        (((Operation.mkdirs base).exec t).1 = true → get lock t = none → r = .ok ()))
      (begin x.id x.identity).run t := by
  have hcons := h.cons (x.id, x.identity)
  have h₁ := recoverable_mkdirs h
  refine Safely.require (fun _ => hcons) (fun _ _ _ htorn => htorn.elim) (fun hfail => ?_)
    fun hdone => ?_
  · refine ⟨h₁.cons _, fun hdone => ?_⟩
    rw [hdone] at hfail
    cases hfail
  have hbase₁ := isDirectory_base hdone
  have hlock₁ : get lock ((Operation.mkdirs base).exec t).2 = get lock t :=
    mkdirs_below base "lock" [] t
  rw [← hlock₁]
  generalize ((Operation.mkdirs base).exec t).2 = t₁ at *
  refine Safely.status (fun _ => h₁.cons _) (fun _ _ hspares => (hspares.1 (by decide)).elim) ?_
  rw [Operation.exec_mkdir_one]
  -- Only a free device has no lock.
  by_cases hlock : get lock t₁ = none
  · rw [Operation.makeDirectory_of_none (p := lock) hbase₁ hlock]
    refine (safely_beginLocked x (h₁.cons _) List.mem_cons_self hid hvalid hidentity
      (h₁.stored.fresh x.id hid hnew) hbase₁ (h₁.marks.free hlock)).mono fun r t' h' => ?_
    exact ⟨h'.2, fun _ _ => h'.1⟩
  · rw [Operation.makeDirectory_of_some hlock]
    exact Safely.pure ⟨h₁.cons _, fun _ hnone => absurd hnone hlock⟩

/-! ### Its end -/

/-- The script leaves no trap behind when it succeeds. -/
def Untraps (script : Script Point Unit) : Prop :=
  ∀ s s', calm.play script.run s = .ok (.ok (), s') → s'.trap = none

theorem Untraps.andThen {α : Type} {p : Script Point α} {f : α → Script Point Unit}
    (h : ∀ a, Untraps (f a)) : Untraps (p >>= f) := by
  intro s s' hs
  rw [play_andThen] at hs
  cases hp : calm.play p.run s with
  | error out => rw [hp] at hs; cases hs
  | ok r =>
    obtain ⟨r, s₁⟩ := r
    rw [hp] at hs
    cases r with
    | error n => cases hs
    | ok a => exact h a s₁ s' hs

theorem untraps_begin (id identity : String) : Untraps (begin id identity) := by
  have hthrow : ∀ n, Untraps (throw n) := by
    intro n s s' hs
    cases hs
  have huntrap : Untraps (Script.trap .untrap none) := by
    intro s s' hs
    rw [play_trap] at hs
    cases hs
    rfl
  refine Untraps.andThen fun _ => Untraps.andThen fun taken => ?_
  cases taken with
  | false => exact hthrow 73
  | true =>
    refine Untraps.andThen fun _ => Untraps.andThen fun made => ?_
    cases made with
    | false => exact Untraps.andThen fun _ => Untraps.andThen fun _ => hthrow 73
    | true =>
      refine Untraps.andThen fun _ => Untraps.andThen fun _ => Untraps.andThen fun _ =>
        Untraps.andThen fun _ => Untraps.andThen fun _ => Untraps.andThen fun _ => ?_
      exact Untraps.andThen fun _ => Untraps.andThen fun _ => Untraps.andThen fun _ =>
        Untraps.andThen fun _ => huntrap

/-- When it succeeds, the shell exits with 0 and leaves what the script leaves. -/
theorem Untraps.ending {script : Script Point Unit} (h : Untraps script) {t' : FileTree}
    (hresult : script.result t = (.ok (), t')) :
    calm.ending script ⟨t, none⟩ = (.exited 0, t') := by
  obtain ⟨trap, hplay⟩ := play_calm script.run ⟨t, none⟩
  have hinterpret : (script.run.interpret plain t) = (.ok (), t') := hresult
  simp only [hinterpret] at hplay
  -- The trap was given up, so nothing runs at the exit.
  have hnone : trap = none := h _ _ hplay
  rw [Weather.ending, hplay, hnone]
  rfl

/-- What a `begin` leaves, at its end. -/
theorem begin_ending (x : Invocation) (h : Recoverable kind begun t)
    (hnew : x.id ∉ begun.map Prod.fst) (hid : Unmarked x.id) (hvalid : validId x.id = true)
    (hidentity : validIdentity x.identity = true) :
    Recoverable kind ((x.id, x.identity) :: begun)
        (calm.ending (begin x.id x.identity) ⟨t, none⟩).2 ∧
      (((Operation.mkdirs base).exec t).1 = true → get lock t = none →
        (calm.ending (begin x.id x.identity) ⟨t, none⟩).1 = .exited 0) := by
  obtain ⟨hrecoverable, hok⟩ := (safely_begin x h hnew hid hvalid hidentity).result
  have h₁ := (recoverable_mkdirs h).cons (x.id, x.identity)
  have hrequire := calm.ending_require Point.base (.mkdirs base) (fun _ => do
    let taken ← Script.status .lock (.mkdir [lock])
    if taken then beginLocked x.id x.identity else throw 73) t
  by_cases hdone : ((Operation.mkdirs base).exec t).1 = true
  · by_cases hlock : get lock t = none
    · have hending := (untraps_begin x.id x.identity).ending
        (Prod.ext (hok hdone hlock) rfl : (begin x.id x.identity).result t = (.ok (), _))
      rw [hending]
      exact ⟨hrecoverable, fun _ _ => rfl⟩
    · -- The lock is someone's.
      have hlock₁ : get lock ((Operation.mkdirs base).exec t).2 ≠ none := by
        rw [show get lock ((Operation.mkdirs base).exec t).2 = get lock t from
          mkdirs_below base "lock" [] t]
        exact hlock
      have hstatus := calm.ending_status Point.lock (.mkdir [lock])
        (fun taken => if taken then beginLocked x.id x.identity else throw 73)
        ((Operation.mkdirs base).exec t).2
      have hfailed : (Operation.mkdir [lock]).exec ((Operation.mkdirs base).exec t).2 =
          (false, ((Operation.mkdirs base).exec t).2) := by
        rw [Operation.exec_mkdir_one, Operation.makeDirectory_of_some hlock₁]
      have hending : calm.ending (begin x.id x.identity) ⟨t, none⟩ =
          (.exited 73, ((Operation.mkdirs base).exec t).2) := by
        refine hrequire.trans ?_
        rw [if_neg (by simp [calm]), perform_calm rfl, if_pos hdone]
        refine hstatus.trans ?_
        rw [if_neg (by simp [calm]), perform_calm rfl, hfailed]
        rfl
      rw [hending]
      exact ⟨h₁, fun _ hnone => absurd hnone hlock⟩
  · have hending : calm.ending (begin x.id x.identity) ⟨t, none⟩ =
        (.exited 1, ((Operation.mkdirs base).exec t).2) := by
      refine hrequire.trans ?_
      rw [if_neg (by simp [calm]), perform_calm rfl, if_neg hdone]
    rw [hending]
    exact ⟨h₁, fun hsome => absurd hsome hdone⟩

end Preparation

end OpenUI.Deploy
