import OpenUI.Proofs.Agent.Esim.Runs

/-!
# `OpenUI.Proofs.Agent.Esim.Persistence`: the state file follows the state

`save_state` takes its snapshot under the mutex and writes it afterwards, without it. Two callers
can write in the other order than they took their snapshots, and the file then goes back to the
older one. `state_saved` shows that this, and a write that fails, are the only ways to lose a
change: in every run in which each snapshot reaches the file before a later one does, the file
holds the state whenever no caller of `save_state` is left.

* `Saved` is the invariant: the latest snapshot is the state or some thread is about to take one,
  and it is in the file or some thread is about to write it.
* `Loadable` says what a reload needs of the state in memory.
-/

set_option autoImplicit false

namespace OpenUI.Agent.Esim

open OpenUI.Json OpenUI.Text OpenUI.Concurrency

variable {P : Platform} {t : Timing}

/-- Once no thread has a change to save or a snapshot to write, the state file holds the state,
and a restart loads it: the salt, the card, the locks and the pending receipts. -/
def StateSaved (w : World) (cs : List Ctx) : Prop :=
  cs ≠ [] → (∀ c ∈ cs, c.dirty = false ∧ c.saving = none) →
    w.stateFile = some w.inner.snapshot ∧ ∀ salt : List UInt8,
      let loaded := Inner.load salt (w.stateFile.getD .null)
      loaded.salt = w.inner.salt ∧ loaded.card = w.inner.card ∧
        loaded.locked = w.inner.locked ∧ loaded.receipts.pending = w.inner.receipts.pending

/-- Every snapshot that is written reaches the file, and before a later one does. -/
def writesInOrder : Steps where
  act w _ c a e := match a, e with
    | .writeState _, .io r => r.changed && c.saving.all (fun s => w.history.landed < s.1)
    | _, _ => true
  outside _ _ := true

/-- The latest snapshot and the state file follow the state in memory. -/
structure Saved (w : World) (cs : List Ctx) : Prop where
  landed : w.history.landed ≤ w.history.snapshots
  saving : ∀ c ∈ cs, ∀ n v, c.saving = some (n, v) → n ≤ w.history.snapshots ∧
    (n = w.history.snapshots → w.history.lastSnapshot = some v)
  file : w.history.landed = w.history.snapshots → w.stateFile = w.history.lastSnapshot
  behind : w.history.landed < w.history.snapshots →
    ∃ c ∈ cs, c.dirty = true ∨ ∃ v, c.saving = some (w.history.snapshots, v)
  current : cs ≠ [] → (∃ c ∈ cs, c.dirty = true) ∨ w.history.lastSnapshot = some w.inner.snapshot
  started : w.serving = true → cs ≠ []

/-- What a reload needs of the state in memory. -/
structure Loadable (inner : Inner) : Prop where
  salt : inner.salt.length = 16
  card : ∀ h, inner.card = some h → optText (.str h) = some h
  locked : inner.locked.Nodup

/-- The snapshot shows the salt, the card, the locks and the queue. -/
theorem snapshot_congr {inner inner' : Inner} (hs : inner'.salt = inner.salt)
    (hc : inner'.card = inner.card) (hl : inner'.locked = inner.locked)
    (hq : inner'.receipts.pending = inner.receipts.pending) :
    inner'.snapshot = inner.snapshot := by
  rw [Inner.snapshot, Inner.snapshot, hs, hc, hl, hq]

/-- A step that leaves the file and its history alone. A thread that changes what the file should
hold is dirty afterwards. -/
theorem Saved.step {w w' : World} {cs new : List Ctx} {i : Nat} {c c' : Ctx} (h : Saved w cs)
    (hc : cs[i]? = some c) (hfile : w.Same w' .file) (hsaving : c'.saving = c.saving)
    (hdirty : c.dirty = true → c'.dirty = true) (hnew : ∀ x ∈ new, x.saving = none)
    (hcurrent : c'.dirty = true ∨ w'.inner.snapshot = w.inner.snapshot) :
    Saved w' (cs.set i c' ++ new) := by
  obtain ⟨hstate, hsnaps, hlast, hlanded⟩ := hfile
  have hne : cs ≠ [] := List.ne_nil_of_mem (List.mem_of_getElem? hc)
  refine ⟨?_, fun x hx n v hv => ?_, fun hl => ?_, fun hl => ?_, fun _ => ?_,
    fun _ => List.ne_nil_of_mem (Pool.self_mem hc)⟩
  · rw [hlanded, hsnaps]
    exact h.landed
  · rw [hsnaps, hlast]
    rcases Pool.mem_update hx with rfl | ⟨j, -, hxj⟩ | hx
    · exact h.saving c (List.mem_of_getElem? hc) n v (hsaving ▸ hv)
    · exact h.saving x (List.mem_of_getElem? hxj) n v hv
    · rw [hnew x hx] at hv
      cases hv
  · rw [hlanded, hsnaps] at hl
    rw [hstate, hlast]
    exact h.file hl
  · rw [hlanded, hsnaps] at hl
    rw [hsnaps]
    exact Pool.exists_update hc (Or.imp hdirty (by rw [hsaving]; exact id)) (h.behind hl)
  · rcases hcurrent with hd | hsame
    · exact .inl ⟨c', Pool.self_mem hc, hd⟩
    · rw [hlast, hsame]
      exact (h.current hne).imp (Pool.exists_update hc hdirty) id

/-- New threads have nothing to write. -/
theorem spawns_saving {β : Type} {c : Ctx} {a : Act β} {r : β} :
    ∀ x ∈ (spawns c a r).map Prod.snd, x.saving = none := fun _ hx => (spawns_holds hx).2.2.2.2.1

/-- The snapshot changes only with the card, the locks and the queue. -/
theorem exec_snapshot {β : Type} {w w' : World} {c : Ctx} {a : Act β} {e : Choice} {r : β}
    (he : exec P t a c e w = some (r, w')) (hcard : a.touches .card = false)
    (hlocks : a.touches .locks = false) (hqueue : a.touches .queue = false) :
    w'.inner.snapshot = w.inner.snapshot :=
  snapshot_congr (exec_salt he) (exec_same he .card hcard).1 (exec_same he .locks hlocks)
    (congrArg Receipts.pending (exec_same he .queue hqueue).1)

theorem saved_snapshot {w w' : World} {cs : List Ctx} {i : Nat} {c : Ctx} {e : Choice} {r : Value}
    (hS : Saved w cs) (hc : cs[i]? = some c) (he : exec P t .snapshot c e w = some (r, w')) :
    Saved w' (cs.set i (c.after .snapshot r w) ++ []) := by
  simp only [exec, Option.some.injEq, Prod.mk.injEq] at he
  obtain ⟨rfl, rfl⟩ := he
  have hlanded := hS.landed
  refine ⟨Nat.le_succ_of_le hlanded, fun x hx n v hv => ?_, fun hl => ?_, fun _ => ?_,
    fun _ => .inr rfl, fun _ => List.ne_nil_of_mem (Pool.self_mem hc)⟩
  · rcases Pool.mem_update hx with rfl | ⟨j, -, hxj⟩ | hx
    · obtain ⟨rfl, rfl⟩ := Prod.mk.inj (Option.some.inj hv)
      exact ⟨Nat.le_refl _, fun _ => rfl⟩
    · have hle := (hS.saving x (List.mem_of_getElem? hxj) n v hv).1
      refine ⟨Nat.le_succ_of_le hle, fun heq => ?_⟩
      have heq : n = w.history.snapshots + 1 := heq
      omega
    · cases hx
  · have hl : w.history.landed = w.history.snapshots + 1 := hl
    omega
  · exact ⟨_, Pool.self_mem hc, .inr ⟨_, rfl⟩⟩

theorem saved_write {w w' : World} {cs : List Ctx} {i : Nat} {c : Ctx} {v : Value} {e : Choice}
    {r : Except String Unit} (hS : Saved w cs) (hc : cs[i]? = some c)
    (hok : c.allows (.writeState v)) (hK : writesInOrder.act w cs c (.writeState v) e = true)
    (he : exec P t (.writeState v) c e w = some (r, w')) :
    Saved w' (cs.set i (c.after (.writeState v) r w) ++ []) := by
  obtain ⟨n, hn⟩ := hok
  cases e <;> simp only [exec, reduceCtorEq, Option.some.injEq, Prod.mk.injEq] at he
  rename_i io
  obtain ⟨-, rfl⟩ := he
  simp only [writesInOrder, hn, Option.all_some, Bool.and_eq_true, decide_eq_true_eq] at hK
  rw [if_pos hK.1]
  obtain ⟨hle, hlatest⟩ := hS.saving c (List.mem_of_getElem? hc) n v hn
  have hlanded : (c.saving.map Prod.fst).getD w.history.landed = n := by rw [hn]; rfl
  simp only [World.note, hlanded]
  refine ⟨hle, fun x hx m u hu => ?_, fun hl => (hlatest hl).symm, fun hl => ?_, fun _ => ?_,
    fun _ => List.ne_nil_of_mem (Pool.self_mem hc)⟩
  · rcases Pool.mem_update hx with rfl | ⟨j, -, hxj⟩ | hx
    · cases hu
    · exact hS.saving x (List.mem_of_getElem? hxj) m u hu
    · cases hx
  · -- An older snapshot landed: the latest one is still to come from somebody else.
    have hl : n < w.history.snapshots := hl
    refine Pool.exists_update hc (Or.imp id fun hu => ?_) (hS.behind (Nat.lt_trans hK.2 hl))
    obtain ⟨u, hu⟩ := hu
    rw [hn] at hu
    have heq : n = w.history.snapshots := (Prod.mk.inj (Option.some.inj hu)).1
    exact absurd heq (Nat.ne_of_lt hl)
  · exact (hS.current (List.ne_nil_of_mem (List.mem_of_getElem? hc))).imp
      (Pool.exists_update hc id) id

theorem saved_act {β : Type} {w w' : World} {cs : List Ctx} {i : Nat} {c : Ctx} {a : Act β}
    {e : Choice} {r : β} (hS : Saved w cs) (hc : cs[i]? = some c) (hok : c.allows a)
    (hK : writesInOrder.act w cs c a e = true) (he : exec P t a c e w = some (r, w')) :
    Saved w' (cs.set i (c.after a r w) ++ (spawns c a r).map Prod.snd) := by
  have hframe : a.takes = false → a.touches .file = false → a.touches .card = false →
      a.touches .locks = false → a.touches .queue = false →
      Saved w' (cs.set i (c.after a r w) ++ (spawns c a r).map Prod.snd) := by
    intro ht hf hcard hlocks hqueue
    have hholds := after_holds (c := c) (r := r) (w := w) ht
    have hd : (c.after a r w).dirty = c.dirty := congrArg Holds.dirty hholds
    exact hS.step hc (exec_same he .file hf) (congrArg Holds.saving hholds) (hd ▸ id) spawns_saving
      (.inr (exec_snapshot he hcard hlocks hqueue))
  cases a with
  | snapshot => exact saved_snapshot hS hc he
  | writeState v => exact saved_write hS hc hok hK he
  | setLock handle locked =>
    cases r with
    | true =>
      exact hS.step hc (exec_same he .file rfl) rfl (fun _ => rfl) spawns_saving (.inl rfl)
    | false =>
      have hsame : w'.inner = w.inner := by
        simp only [exec, Option.some.injEq, Prod.mk.injEq] at he
        obtain ⟨hknown, rfl⟩ := he
        show (w.inner.setLock handle locked).2 = w.inner
        unfold Inner.setLock at hknown ⊢
        split at hknown
        · cases hknown
        · rw [if_neg ‹_›]
      exact hS.step hc (exec_same he .file rfl) rfl id spawns_saving (.inr (by rw [hsame]))
  | pushReceipts seqs =>
    exact hS.step hc (exec_same he .file rfl) rfl (fun _ => rfl) spawns_saving (.inl rfl)
  | absorbDelivery o =>
    exact hS.step hc (exec_same he .file rfl) rfl (fun _ => rfl) spawns_saving (.inl rfl)
  | absorbRead o ready =>
    have hdirty : c.dirty = true → (c.after (.absorbRead o ready) r w).dirty = true :=
      fun hd => by simp [hd]
    refine hS.step hc (exec_same he .file rfl) rfl hdirty spawns_saving ?_
    have hsalt := exec_salt he
    have hlocks : w'.inner.locked = w.inner.locked := exec_same he .locks rfl
    obtain ⟨inner, habs, hw⟩ := absorb_world he
    have hinner : w'.inner = inner := by rw [hw, noteAbsorbed_inner]
    rw [hinner] at hsalt hlocks ⊢
    cases r with
    | error error =>
      obtain ⟨hcard, hq, -⟩ := habs.of_error
      exact .inr (snapshot_congr hsalt hcard hlocks (by rw [hq]))
    | ok newCard =>
      cases newCard with
      | true => exact .inl (by simp)
      | false =>
        obtain ⟨hcard, hq⟩ := habs.of_same_card
        exact .inr (snapshot_congr hsalt hcard hlocks (by rw [hq]))
  | claimWorker =>
    refine hS.step hc (exec_same he .file rfl) rfl id spawns_saving (.inr ?_)
    refine snapshot_congr (exec_salt he) (exec_same he .card rfl).1 (exec_same he .locks rfl) ?_
    simp only [exec, Option.some.injEq, Prod.mk.injEq] at he
    obtain ⟨-, rfl⟩ := he
    unfold Inner.claimWorker
    split <;> rfl
  | workerRound =>
    refine hS.step hc (exec_same he .file rfl) (by cases r <;> rfl) (by cases r <;> exact id)
      spawns_saving (.inr ?_)
    refine snapshot_congr (exec_salt he) (exec_same he .card rfl).1 (exec_same he .locks rfl) ?_
    simp only [exec, Option.some.injEq, Prod.mk.injEq] at he
    obtain ⟨-, rfl⟩ := he
    unfold Inner.workerRound
    split <;> rfl
  | receiptsPending =>
    exact hS.step hc (exec_same he .file rfl) (by cases r <;> rfl) (by cases r <;> exact id)
      spawns_saving (.inr (exec_snapshot he rfl rfl rfl))
  | startHelper request =>
    generalize hx : c.after (.startHelper request) r w = c'
    cases hx ▸ after_startHelper c request w <;>
      exact hS.step hc (exec_same he .file rfl) rfl id spawns_saving
        (.inr (exec_snapshot he rfl rfl rfl))
  | spawn b =>
    exact hS.step hc (exec_same he .file rfl) (by cases b <;> rfl) (by cases b <;> exact id)
      spawns_saving (.inr (exec_snapshot he rfl rfl rfl))
  | lockCard | tryLockCard | unlockCard =>
    exact hS.step hc (exec_same he .file rfl) rfl id spawns_saving
      (.inr (exec_snapshot he rfl rfl rfl))
  | _ => exact hframe rfl rfl rfl rfl rfl

/-- At the start of the process the main thread saves what it loaded; a request changes nothing. -/
theorem saved_outside {w : World} {cs : List Ctx} {x : Outside} {o : Occurrence Ctx World Body}
    (hS : Saved w cs) (ho : occur x w = some o) :
    Saved o.world ((if o.kill then [] else cs) ++ o.starts.map Prod.snd) := by
  rcases occur_cases ho with ⟨d, rfl⟩ | ⟨r, hs, rfl⟩ | ⟨salt, readable, -, -, rfl⟩
  · rw [List.map_nil, List.append_nil]
    exact ⟨hS.landed, hS.saving, hS.file, hS.behind, hS.current, hS.started⟩
  · have hleft : ∀ {p : Ctx → Prop}, (∃ c ∈ cs, p c) → ∃ c ∈ cs ++ [Ctx.newClient], p c :=
      fun h => h.imp fun c hc => ⟨List.mem_append_left _ hc.1, hc.2⟩
    refine ⟨hS.landed, fun x hx n v hv => ?_, hS.file, fun hl => hleft (hS.behind hl),
      fun _ => (hS.current (hS.started hs)).imp hleft id, fun _ => List.append_ne_nil_of_left_ne_nil
        (hS.started hs) _⟩
    rcases List.mem_append.mp hx with hx | hx
    · exact hS.saving x hx n v hv
    · rw [List.mem_singleton.mp hx] at hv
      cases hv
  · refine ⟨hS.landed, fun x hx n v hv => ?_, hS.file, fun _ => ⟨.boot, List.mem_singleton_self _,
      .inl rfl⟩, fun _ => .inl ⟨.boot, List.mem_singleton_self _, rfl⟩, by simp⟩
    rw [List.mem_singleton.mp hx] at hv
    cases hv

/-! ### What a reload needs -/

/-- Inserting a handle keeps the locks without duplicates. -/
theorem nodup_insertHandle {handle : String} {locked : List String} (h : locked.Nodup) :
    (insertHandle handle locked).Nodup := by
  unfold insertHandle
  split
  · exact h
  · exact List.nodup_cons.mpr ⟨‹_›, h⟩

/-- What the process loads can be loaded again. -/
theorem loadable_load {salt : List UInt8} (hsalt : salt.length = 16) (saved : Value) :
    Loadable (Inner.load salt saved) := by
  refine ⟨?_, fun h hh => optText_read hh, ?_⟩
  · show ((((saved.get "salt").asStr.bind unhex).filter (fun s => s.length == 16)).getD salt).length
      = 16
    cases hf : ((saved.get "salt").asStr.bind unhex).filter (fun s => s.length == 16) with
    | none => exact hsalt
    | some s => exact beq_iff_eq.mp (Option.filter_eq_some_iff.mp hf).2
  · show ((saved.get "locked").strings.foldr insertHandle []).Nodup
    induction (saved.get "locked").strings with
    | nil => exact List.nodup_nil
    | cons x xs ih => exact nodup_insertHandle ih

/-- Every action keeps the state loadable: a card is remembered by its hash, and the locks stay
a set. -/
theorem loadable_act {β : Type} {w w' : World} {c : Ctx} {a : Act β} {e : Choice} {r : β}
    (hL : Loadable w.inner) (he : exec P t a c e w = some (r, w')) : Loadable w'.inner := by
  have hsalt : w'.inner.salt = w.inner.salt := exec_salt he
  have hframe : a.touches .card = false → a.touches .locks = false → Loadable w'.inner :=
    fun hcard hlocks => ⟨hsalt ▸ hL.salt, (exec_same he .card hcard).1 ▸ hL.card,
      (show w'.inner.locked = w.inner.locked from exec_same he .locks hlocks) ▸ hL.locked⟩
  cases a with
  | absorbRead o ready =>
    have hlocks : w'.inner.locked = w.inner.locked := exec_same he .locks rfl
    refine ⟨hsalt ▸ hL.salt, ?_, hlocks ▸ hL.locked⟩
    obtain ⟨inner, habs, rfl⟩ := absorb_world he
    rw [noteAbsorbed_inner]
    cases habs with
    | taken data _ _ hcard _ =>
      intro h hh
      rw [hcard] at hh
      obtain rfl := Option.some.inj hh
      exact optText_cardHash P _ _
    | kept _ hcard _ | lost _ _ hcard _ => exact hcard ▸ hL.card
  | setLock handle locked =>
    refine ⟨hsalt ▸ hL.salt, (exec_same he .card rfl).1 ▸ hL.card, ?_⟩
    simp only [exec, Option.some.injEq, Prod.mk.injEq] at he
    obtain ⟨-, rfl⟩ := he
    show (w.inner.setLock handle locked).2.locked.Nodup
    unfold Inner.setLock
    split
    · cases locked
      · exact hL.locked.filter _
      · exact nodup_insertHandle hL.locked
    · exact hL.locked
  | _ => exact hframe rfl rfl

/-- In every run a started process can be loaded again from its state. -/
theorem loadable_run {K : Steps} {s : AgentState} (h : Reaches P t K s) (hne : s.ctxs ≠ []) :
    Loadable s.world.inner := by
  have hJ : (s.world.serving = true → s.ctxs ≠ []) ∧ (s.ctxs ≠ [] → Loadable s.world.inner) := by
    refine run_invariant (J := fun w cs => (w.serving = true → cs ≠ []) ∧
      (cs ≠ [] → Loadable w.inner)) ?_ ?_ ⟨by rintro ⟨⟩, fun h => absurd rfl h⟩ h
    · intro β w w' cs i c a e r _ hJ hc _ _ he
      exact ⟨fun _ => List.ne_nil_of_mem (Pool.self_mem hc),
        fun _ => loadable_act (hJ.2 (List.ne_nil_of_mem (List.mem_of_getElem? hc))) he⟩
    · intro w cs x o _ hJ _ ho
      rcases occur_cases ho with ⟨d, rfl⟩ | ⟨r, hs, rfl⟩ | ⟨salt, readable, -, hsalt, rfl⟩
      · rw [List.map_nil, List.append_nil]
        exact hJ
      · have hcs := hJ.1 hs
        exact ⟨fun _ => List.append_ne_nil_of_left_ne_nil hcs _, fun _ => hJ.2 hcs⟩
      · exact ⟨by simp, fun _ => loadable_load hsalt _⟩
  exact hJ.2 hne

/-- The invariant holds in every run whose snapshots land in order. -/
theorem saved_run {s : AgentState} (h : Reaches P t writesInOrder s) : Saved s.world s.ctxs :=
  run_invariant (fun _ hJ hc hok hK he => saved_act hJ hc hok hK he)
    (fun _ hJ _ ho => saved_outside hJ ho)
    ⟨Nat.le_refl _, fun _ hc => absurd hc List.not_mem_nil, fun _ => rfl,
      fun h => absurd h (Nat.lt_irrefl _), fun h => absurd rfl h, fun h => by cases h⟩ h

/-- **The state file follows the state.** In every run in which every snapshot that is written
reaches the file, before a later one does, the file holds the state in memory whenever no thread
has a change to save or a snapshot to write, and a restart loads exactly that. -/
theorem state_saved {s : AgentState} (h : Reaches P t writesInOrder s) :
    StateSaved s.world s.ctxs := by
  intro hne hidle
  have hS := saved_run h
  have hlast : s.world.history.lastSnapshot = some s.world.inner.snapshot := by
    rcases hS.current hne with ⟨c, hc, hd⟩ | hlast
    · rw [(hidle c hc).1] at hd
      cases hd
    · exact hlast
  have hlanded : s.world.history.landed = s.world.history.snapshots := by
    refine Nat.le_antisymm hS.landed (Nat.not_lt.mp fun hl => ?_)
    obtain ⟨c, hc, hd | ⟨v, hv⟩⟩ := hS.behind hl
    · rw [(hidle c hc).1] at hd
      cases hd
    · rw [(hidle c hc).2] at hv
      cases hv
  have hfile : s.world.stateFile = some s.world.inner.snapshot := (hS.file hlanded).trans hlast
  have hload := loadable_run h hne
  refine ⟨hfile, fun salt => ?_⟩
  rw [hfile]
  exact Inner.load_snapshot salt hload.salt hload.card hload.locked

/-- The body of a lock request. -/
def sampleLock (iccid : String) (locked : Bool) : Option Value :=
  some (.obj [("handle", .str (handleFor samplePlatform sampleSalt iccid)),
    ("locked", .bool locked)])

/-- A profile of the sample card is locked, and the lock is saved. -/
def lockTurns : List Turn :=
  loadedTurns ++ .outside (.request (.lock (sampleLock "8988" true))) :: turns 2 2 ++ fileDone 2
    ++ turns 2 2

theorem state_saved_sample : ∃ s, Reaches samplePlatform {} writesInOrder s ∧
    s.world.inner.locked ≠ [] ∧ s.world.stateFile = some s.world.inner.snapshot := by
  obtain ⟨s, hs, hcheck⟩ := sample_run writesInOrder lockTurns
    (fun s => !s.ctxs.isEmpty && s.ctxs.all (fun c => !c.dirty && c.saving.isNone)
      && !s.world.inner.locked.isEmpty) (by decide +kernel)
  simp only [Bool.and_eq_true, Bool.not_eq_true', List.all_eq_true, Option.isNone_iff_eq_none,
    List.isEmpty_eq_false_iff] at hcheck
  obtain ⟨⟨hne, hidle⟩, hlocked⟩ := hcheck
  exact ⟨s, hs, hlocked, (state_saved hs hne hidle).1⟩

/-- Two profiles are locked at once. Thread `2` takes its snapshot first and writes it last. -/
def overtakenTurns : List Turn :=
  loadedTurns ++ .outside (.request (.lock (sampleLock "8988" true))) :: turns 2 2
    ++ .outside (.request (.lock (sampleLock "8989" true))) :: turns 3 2 ++ fileDone 3
    ++ fileDone 2

/-- The second lock is in memory and not in the state file. -/
theorem lock_overtaken :
    ¬ ∀ (P : Platform) (t : Timing) (s : AgentState), Reaches P t .any s →
      StateSaved s.world s.ctxs := by
  intro hall
  obtain ⟨s, hs, hcheck⟩ := sample_run .any overtakenTurns
    (fun s => !s.ctxs.isEmpty && s.ctxs.all (fun c => !c.dirty && c.saving.isNone)
      && s.world.inner.locked.length == 2
      && ((s.world.stateFile.getD .null).get "locked").strings.length == 1) (by decide +kernel)
  simp only [Bool.and_eq_true, Bool.not_eq_true', List.all_eq_true, Option.isNone_iff_eq_none,
    List.isEmpty_eq_false_iff, beq_iff_eq] at hcheck
  obtain ⟨⟨⟨hne, hidle⟩, htwo⟩, hone⟩ := hcheck
  obtain ⟨hfile, -⟩ := hall _ _ s hs hne hidle
  rw [hfile, Option.getD_some, show s.world.inner.snapshot.get "locked" =
    Value.ofStrings s.world.inner.locked from rfl, Value.strings_ofStrings, htwo] at hone
  cases hone

end OpenUI.Agent.Esim
