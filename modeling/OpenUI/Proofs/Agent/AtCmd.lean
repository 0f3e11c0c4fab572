import OpenUI.Agent.AtCmd
import OpenUI.Concurrency.Mutex

/-!
# `OpenUI.Proofs.Agent.AtCmd`: one command at a time

The lock of `AtPort` serialises the requests. `regime` says what a thread may do where it stands,
and `Serialized` ties the lock, the numbers of the commands and their readers together.

* `exec_effect`: what an action that was executed returned and did.
* `program_keeps`: every thread keeps to its regime.
* `commands_serialized`: one thread at a time is inside, the lock is never left behind, and a reader
  that was not told to stop belongs to the command under way.
-/

set_option autoImplicit false

namespace OpenUI.Agent.AtCmd

open OpenUI.Text OpenUI.Euicc OpenUI.Concurrency

/-! ### What an action does -/

@[simp] theorem World.sends_setSend (w : World) (id n : Nat) (f : Sending → Sending) :
    (w.setSend id f).sends n = if n = id then f (w.sends n) else w.sends n := rfl

@[simp] theorem World.queue_setSend (w : World) (id : Nat) (f : Sending → Sending) :
    (w.setSend id f).queue = w.queue := rfl

@[simp] theorem World.sends_setQueue (w : World) (port : String) (bytes : List Written) :
    (w.setQueue port bytes).sends = w.sends := rfl

@[simp] theorem World.queue_setQueue (w : World) (port p : String) (bytes : List Written) :
    (w.setQueue port bytes).queue p = if p = port then bytes else w.queue p := rfl

/-- The world after a read of `n` bytes. -/
def World.afterRead (w : World) (id n : Nat) : World :=
  (w.setSend id fun s => { s with taken := s.taken ++ (w.front id n).map Written.byte }).setQueue
    (w.sends id).port ((w.queue (w.sends id).port).drop n)

/-- What an action that was executed returned and did. -/
def Effect (c : Ctx) (e : Choice) (w : World) : {β : Type} → Act β → β → World → Prop
  | _, .lock, _, w' => w.locked = false ∧ w' = { w with locked := true }
  | _, .unlock, _, w' => w' = { w with locked := false }
  | _, .readState, state, w' => state = w.state ∧ w' = w
  | _, .writeState state, _, w' => w' = { w with
      state
      log := match state with
        | .found port => .settled port w.clock :: w.log
        | .notFound instant => .gaveUp (instant - probeBackoff) :: w.log
        | .unknown => w.log }
  | _, .now, now, w' => now = w.clock ∧ w' = w
  | _, .openRead port, _, w' => w' = { w with log := .opened port w.clock :: w.log }
  | _, .spawn port, id, w' => id = w.next ∧
      w' = { w.setSend w.next fun _ => ⟨port, false, "", false, [], []⟩ with
        next := w.next + 1
        current := some w.next }
  | _, .write id _, _, w' => w' = w.setSend id fun s => { s with written := true }
  | _, .peek id, text, w' => text = (w.sends id).buffer ∧ w' = w
  | _, .stop id, _, w' => w' = { w.setSend id fun s => { s with stop := true } with
      current := if c.gaveUp then none else w.current }
  | _, .collect id, _, w' => w' = { w with
      current := none
      replies := ⟨id, (w.sends id).buffer, !c.matched⟩ :: w.replies }
  | _, .read id, bytes, w' => (bytes = none ∧ w' = w) ∨
      ∃ n, e = .bytes (some n) ∧ bytes = some ((w.front id n).map Written.byte) ∧
        w' = w.afterRead id n
  | _, .append id text, _, w' => w' = w.setSend id fun s => { s with buffer := s.buffer ++ text }
  | _, .sleepUntil _, _, w' | _, .exists _, _, w' | _, .openWrite _, _, w' | _, .stopped _, _, w'
  | _, .poll _ _, _, w' => w' = w

theorem exec_effect {β : Type} {a : Act β} {c : Ctx} {e : Choice} {w w' : World} {r : β}
    (h : exec a c e w = some (r, w')) : Effect c e w a r w' := by
  cases a with
  | lock =>
    simp only [exec] at h
    split at h
    · cases h
    · rename_i hfree
      cases h
      exact ⟨by simpa using hfree, rfl⟩
  | sleepUntil instant =>
    simp only [exec] at h
    split at h
    · cases h
      exact rfl
    · cases h
  | poll id instant =>
    cases e with
    | polled p =>
      cases p with
      | readable =>
        simp only [exec] at h
        split at h
        · cases h
        · cases h
          exact rfl
      | nothing | failed =>
        cases h
        exact rfl
    | go | there | result | bytes => cases h
  | read id =>
    cases e with
    | bytes n =>
      cases n with
      | none =>
        cases h
        exact .inl ⟨rfl, rfl⟩
      | some n =>
        simp only [exec] at h
        split at h
        · cases h
          exact .inr ⟨n, rfl, rfl, rfl⟩
        · cases h
    | go | there | result | polled => cases h
  | «exists» port | openRead port | openWrite port | write id text =>
    cases e with
    | there b | result b =>
      cases h
      try exact rfl
    | go | polled | bytes => cases h
  | readState | now | spawn port | peek id =>
    cases h
    exact ⟨rfl, rfl⟩
  | unlock | writeState state | stop id | collect id | stopped id | append id text =>
    cases h
    exact rfl

/-! ### What a thread may do -/

/-- A port may be opened: it is the settled one, or it is swept. -/
def View.may : View → String → Prop
  | .settled p, port => port = p
  | .sweep _, port => port ∈ ports
  | _, _ => False

/-- What a thread must know to go on after `raw_send`. -/
def Purpose.fits : Purpose → View → Prop
  | .reply, _ => True
  | .probe port rest _, .sweep _ => port ∈ ports ∧ rest ⊆ ports
  | .probe _ _ _, _ => False

/-- What a thread may do where it stands. -/
def Ctx.allows (c : Ctx) {β : Type} : Act β → Prop
  | .lock => c = .idle
  | .unlock => ∃ view, c = .holding view
  | .readState => ∃ view, c = .holding view
  | .writeState (.found port) => (∃ t, c = .holding (.sweep t)) ∧ port ∈ ports
  | .writeState (.notFound instant) => ∃ t, c = .holding (.sweep t) ∧ instant = t + probeBackoff
  | .writeState .unknown => False
  | .openRead port => ∃ view, c = .holding view ∧ view.may port
  | .spawn _ => ∃ view, c = .holding view
  | .write id _ => ∃ view, c = .sending id view .open
  | .peek id => ∃ view, c = .sending id view .open
  | .stop id => (∃ view watch, c = .sending id view watch) ∨ ∃ view, c = .holding view
  | .collect id => (∃ view, c = .sending id view .closing) ∨ ∃ view, c = .holding view
  | .stopped id => c = .reader id []
  | .poll id _ => c = .reader id []
  | .read id => c = .reader id []
  | .append id text => ∃ bytes, c = .reader id bytes ∧ text = fromUtf8Lossy bytes
  | .now => True
  | .sleepUntil _ => True
  | .exists _ => True
  | .openWrite _ => True

/-- What the parts of a thread start from, and where threads end. -/
def regime : machine.Regime where
  ok c a := c.allows a
  facts _ _ _ := True
  pre body c := match body with
    | .request _ => c = .idle
    | .await id _ purpose => ∃ view, c = .sending id view .open ∧ purpose.fits view
    | .reader id => c = .reader id []
  fin c := c = .idle ∨ ∃ id, c = .reader id []

/-- A part of a thread keeps to this. -/
abbrev Keeps (c : Ctx) (p : Program Act (Next Body)) : Prop :=
  regime.discipline.wp p regime.ends c

theorem View.may_look {view : View} {port : String} (h : view.may port) (now : Nat) :
    (view.look now).may port := by
  cases view with
  | settled p => exact h
  | sweep t => exact h
  | blank | wait t => exact h.elim

theorem Purpose.fits_look {purpose : Purpose} {view : View} (h : purpose.fits view) (now : Nat) :
    purpose.fits (view.look now) := by
  cases purpose with
  | reply => exact trivial
  | probe port rest caller =>
    cases view with
    | sweep t => exact h
    | blank | wait t | settled p => exact h.elim

theorem finish_keeps (view : View) : Keeps (.holding view) finish :=
  ⟨⟨view, rfl⟩, fun _ _ _ => .inl rfl⟩

/-- A command is sent by a thread that may open the port, and goes on knowing the same. -/
theorem rawSend_keeps {port command : String} {timeoutSecs : Nat} {purpose : Purpose}
    {failed : String → Program Act (Next Body)}
    (hfailed : ∀ e view, view.may port → purpose.fits view → Keeps (.holding view) (failed e))
    {view : View} (hmay : view.may port) (hfits : purpose.fits view) :
    Keeps (.holding view) (rawSend port command timeoutSecs purpose failed) := by
  unfold rawSend
  refine ⟨⟨view, rfl, hmay⟩, fun rd w _ => ?_⟩
  have hmay₁ := View.may_look hmay w.clock
  have hfits₁ := Purpose.fits_look hfits w.clock
  cases rd with
  | error e => exact hfailed _ _ hmay₁ hfits₁
  | ok _ =>
    refine ⟨trivial, fun wr _ _ => ?_⟩
    cases wr with
    | error e => exact hfailed _ _ hmay₁ hfits₁
    | ok _ =>
      refine ⟨⟨_, rfl⟩, fun id _ _ => ⟨trivial, fun instant _ _ => ⟨trivial, fun _ _ _ => ?_⟩⟩⟩
      have hmay₂ := View.may_look hmay₁ instant
      have hfits₂ := Purpose.fits_look hfits₁ instant
      refine ⟨⟨_, rfl⟩, fun written _ _ => ?_⟩
      cases written with
      | error e => exact ⟨.inl ⟨_, _, rfl⟩, fun _ _ _ => hfailed _ _ hmay₂ hfits₂⟩
      | ok _ => exact ⟨trivial, fun now _ _ => ⟨_, rfl, Purpose.fits_look hfits₂ now⟩⟩

/-- After `detect`. -/
theorem detected_keeps (caller : Caller) {port : Option String} {view : View}
    (hport : ∀ p, port = some p → view.may p) : Keeps (.holding view) (detected caller port) := by
  cases caller with
  | probe => exact finish_keeps view
  | send command timeoutSecs =>
    cases port with
    | none => exact finish_keeps view
    | some p =>
      exact rawSend_keeps (fun _ view _ _ => finish_keeps view) (hport p rfl) trivial

/-- The loop over the ports. Every port it tries is one of them, and a sweep that ends has just
looked at the clock. -/
theorem sweep_keeps (caller : Caller) {rest : List String} (hrest : rest ⊆ ports) (t : Nat) :
    Keeps (.holding (.sweep t)) (sweep caller rest) := by
  induction rest generalizing t with
  | nil =>
    refine ⟨trivial, fun instant _ _ => ⟨⟨instant, rfl, rfl⟩, fun _ _ _ => ?_⟩⟩
    exact detected_keeps caller fun p hp => by cases hp
  | cons port rest ih =>
    obtain ⟨hport, hrest⟩ := List.cons_subset.mp hrest
    refine ⟨trivial, fun there _ _ => ?_⟩
    show Keeps _ (if there then _ else _)
    split
    · refine rawSend_keeps (fun _ view _ hfits => ?_) hport ⟨hport, hrest⟩
      cases view with
      | sweep t => exact ih hrest t
      | blank | wait t | settled p => exact hfits.elim
    · exact ih hrest t

theorem detect_keeps (caller : Caller) (view : View) :
    Keeps (.holding view) (detect caller) := by
  refine ⟨⟨view, rfl⟩, fun state _ _ => ?_⟩
  cases state with
  | unknown => exact sweep_keeps caller (List.Subset.refl _) 0
  | found port =>
    refine detected_keeps caller fun p hp => ?_
    cases hp
    exact rfl
  | notFound instant =>
    refine ⟨trivial, fun now _ _ => ?_⟩
    show Keeps (.holding (if now < instant then .blank else .sweep now))
      (if now < instant then _ else _)
    split
    · exact detected_keeps caller fun p hp => by cases hp
    · exact sweep_keeps caller (List.Subset.refl _) now

/-- After `raw_send`. -/
theorem answered_keeps (response : String) {purpose : Purpose} {view : View}
    (hfits : purpose.fits view) : Keeps (.holding view) (answered response purpose) := by
  cases purpose with
  | reply => exact finish_keeps view
  | probe port rest caller =>
    cases view with
    | blank | wait t | settled p => exact hfits.elim
    | sweep t =>
      show Keeps _ (if contains response "OK" then _ else _)
      split
      · refine ⟨⟨⟨t, rfl⟩, hfits.1⟩, fun _ _ _ => ?_⟩
        refine detected_keeps caller fun p hp => ?_
        cases hp
        exact rfl
      · exact sweep_keeps caller hfits.2 t

/-- `raw_send` after its loop, whether the end of the answer was seen or the time is over. -/
theorem conclude_keeps (id : Nat) {purpose : Purpose} {view : View} (watch : Watch)
    (hfits : purpose.fits view) : Keeps (.sending id view watch) (conclude id purpose) := by
  cases watch with
  | «open» =>
    refine ⟨.inl ⟨_, _, rfl⟩, fun _ _ _ => ⟨trivial, fun now _ _ => ⟨trivial, fun _ _ _ => ?_⟩⟩⟩
    refine ⟨.inr ⟨_, rfl⟩, fun response _ _ => ⟨.inr ⟨_, rfl⟩, fun _ _ _ => ?_⟩⟩
    exact answered_keeps response (Purpose.fits_look hfits now)
  | matched | closing =>
    refine ⟨.inl ⟨_, _, rfl⟩, fun _ _ _ => ⟨trivial, fun now _ _ => ⟨trivial, fun _ _ _ => ?_⟩⟩⟩
    refine ⟨.inl ⟨_, rfl⟩, fun response _ _ => ⟨.inr ⟨_, rfl⟩, fun _ _ _ => ?_⟩⟩
    exact answered_keeps response (Purpose.fits_look hfits now)

theorem await_keeps (id deadline : Nat) {purpose : Purpose} {view : View}
    (hfits : purpose.fits view) : Keeps (.sending id view .open) (await id deadline purpose) := by
  refine ⟨trivial, fun now _ _ => ?_⟩
  have hfits₁ := Purpose.fits_look hfits now
  show Keeps (.sending id (view.look now) .open) (if deadline ≤ now then _ else _)
  split
  · exact conclude_keeps id .open hfits₁
  · refine ⟨⟨_, rfl⟩, fun buf _ _ => ?_⟩
    show Keeps (.sending id (view.look now) (if isAnswered buf then .matched else .open))
      (if isAnswered buf then _ else _)
    split
    · exact conclude_keeps id .matched hfits₁
    · refine ⟨trivial, fun instant _ _ => ⟨trivial, fun _ _ _ => ?_⟩⟩
      exact ⟨_, rfl, Purpose.fits_look hfits₁ instant⟩

theorem reader_keeps (id : Nat) : Keeps (.reader id []) (reader id) := by
  refine ⟨rfl, fun stopped _ _ => ?_⟩
  show Keeps (.reader id []) (if stopped then _ else _)
  split
  · exact .inr ⟨id, rfl⟩
  · refine ⟨trivial, fun instant _ _ => ⟨rfl, fun n _ _ => ?_⟩⟩
    cases n with
    | failed => exact .inr ⟨id, rfl⟩
    | nothing => exact rfl
    | readable =>
      refine ⟨rfl, fun tmp _ _ => ?_⟩
      cases tmp with
      | none => exact rfl
      | some bytes => exact ⟨⟨bytes, rfl, rfl⟩, fun _ _ _ => rfl⟩

/-- Every thread keeps to it. -/
theorem program_keeps : regime.Bodies := by
  intro body c hc
  cases body with
  | request caller =>
    obtain rfl : c = .idle := hc
    exact ⟨rfl, fun _ _ _ => detect_keeps caller .blank⟩
  | await id deadline purpose =>
    obtain ⟨view, rfl, hfits⟩ : ∃ view, c = .sending id view .open ∧ purpose.fits view := hc
    exact await_keeps id deadline hfits
  | reader id =>
    obtain rfl : c = .reader id [] := hc
    exact reader_keeps id

/-! ### One command at a time -/

/-- A thread that holds the lock. -/
def Ctx.inside : Ctx → Bool
  | .holding _ | .sending _ _ _ => true
  | _ => false

/-- The reader of a command. -/
def Ctx.reads (id : Nat) : Ctx → Bool
  | .reader n _ => n == id
  | _ => false

/-- The thread of a command that has not told its reader to stop. -/
def Ctx.sends (id : Nat) : Ctx → Bool
  | .sending n _ watch => n == id && watch != .closing
  | _ => false

/-- The command of a thread. -/
def Ctx.command : Ctx → Option Nat
  | .sending id _ _ | .reader id _ => some id
  | _ => none

/-- The lock, the numbers of the commands and their readers. -/
structure Serialized (w : World) (cs : List Ctx) : Prop where
  lock : Exclusive w.locked Ctx.inside cs
  held : w.locked = true → ∃ c ∈ cs, c.inside = true
  below : ∀ c ∈ cs, ∀ id, c.command = some id → id < w.next
  once : ∀ id, cs.countP (Ctx.reads id) ≤ 1
  told : ∀ c ∈ cs, ∀ id, c.reads id = true →
    (w.sends id).stop = true ∨ ∃ c' ∈ cs, c'.sends id = true

theorem Ctx.command_of_reads {c : Ctx} {id : Nat} (h : c.reads id = true) :
    c.command = some id := by
  cases c with
  | reader n bytes =>
    obtain rfl : n = id := eq_of_beq h
    rfl
  | idle | holding view | sending n view watch => cases h

theorem Ctx.command_of_sends {c : Ctx} {id : Nat} (h : c.sends id = true) :
    c.command = some id := by
  cases c with
  | sending n view watch =>
    obtain rfl : n = id := eq_of_beq (Bool.and_eq_true _ _ ▸ h).1
    rfl
  | idle | holding view | reader n bytes => cases h

/-- What the actions other than those on the lock, and the start of a reader, do to a thread: it
stays inside or outside, and a command is only left. -/
structure Steady (c c' : Ctx) : Prop where
  inside : c'.inside = c.inside
  reads : ∀ id, c'.reads id = c.reads id
  command : ∀ id, c'.command = some id → c.command = some id

theorem Steady.refl (c : Ctx) : Steady c c := ⟨rfl, fun _ => rfl, fun _ h => h⟩

theorem Steady.view (view view' : View) : Steady (.holding view) (.holding view') :=
  ⟨rfl, fun _ => rfl, fun _ h => h⟩

theorem Steady.watch (id : Nat) (view view' : View) (watch watch' : Watch) :
    Steady (.sending id view watch) (.sending id view' watch') :=
  ⟨rfl, fun _ => rfl, fun _ h => h⟩

theorem Steady.leave (id : Nat) (view : View) (watch : Watch) :
    Steady (.sending id view watch) (.holding view) :=
  ⟨rfl, fun _ => rfl, fun _ h => by cases h⟩

theorem Steady.pending (id : Nat) (bytes bytes' : Bytes) :
    Steady (.reader id bytes) (.reader id bytes') :=
  ⟨rfl, fun _ => rfl, fun _ h => h⟩

section Actions

variable {w : World} {cs : List Ctx} {i : Nat} {c : Ctx}

/-- A step that leaves lock and numbers alone. The thread of a command goes on with it, or has told
the reader to stop. -/
theorem Serialized.steady (h : Serialized w cs) (hc : cs[i]? = some c) {c' : Ctx} {w' : World}
    (hsteady : Steady c c') (hlocked : w'.locked = w.locked) (hnext : w'.next = w.next)
    (hstop : ∀ id, (w.sends id).stop = true → (w'.sends id).stop = true)
    (hsends : ∀ id, c.sends id = true → c'.sends id = true ∨ (w'.sends id).stop = true) :
    Serialized w' (cs.set i c' ++ []) where
  lock := by
    rw [hlocked]
    exact h.lock.keep hc hsteady.inside (by simp)
  held hl := by
    rw [hlocked] at hl
    exact Pool.exists_update hc (fun hin => hsteady.inside.trans hin) (h.held hl)
  below := by
    rw [hnext]
    exact Pool.forall_update h.below
      (fun id hid => h.below c (List.mem_of_getElem? hc) id (hsteady.command id hid)) (by simp)
  once id := by
    have hcount := Pool.countP_update (Ctx.reads id) c' [] hc
    have honce := h.once id
    rw [hsteady.reads id, List.countP_nil] at hcount
    omega
  told := by
    have hkeep : ∀ id, ((w.sends id).stop = true ∨ ∃ c' ∈ cs, c'.sends id = true) →
        (w'.sends id).stop = true ∨ ∃ x ∈ cs.set i c' ++ [], x.sends id = true := by
      rintro id (hold | ⟨x, hx, hxs⟩)
      · exact .inl (hstop id hold)
      · obtain ⟨j, hj⟩ := List.mem_iff_getElem?.mp hx
        by_cases hij : j = i
        · subst hij
          obtain rfl : c = x := Option.some.inj (hc.symm.trans hj)
          rcases hsends id hxs with hgoes | htold
          · exact .inr ⟨c', Pool.self_mem hc, hgoes⟩
          · exact .inl htold
        · exact .inr ⟨x, Pool.other_mem hij hj, hxs⟩
    refine Pool.forall_update (fun x hx id hr => hkeep id (h.told x hx id hr)) ?_ (by simp)
    intro id hr
    rw [hsteady.reads id] at hr
    exact hkeep id (h.told c (List.mem_of_getElem? hc) id hr)

/-- The lock is taken or given back by a thread that has no command. -/
theorem Serialized.relock (h : Serialized w cs) (hc : cs[i]? = some c) {c' : Ctx} {locked : Bool}
    (hcommand : c.command = none) (hcommand' : c'.command = none)
    (hlock : Exclusive locked Ctx.inside (cs.set i c' ++ []))
    (hheld : locked = true → c'.inside = true) :
    Serialized { w with locked := locked } (cs.set i c' ++ []) where
  lock := hlock
  held hl := ⟨c', Pool.self_mem hc, hheld hl⟩
  below := Pool.forall_update h.below (fun id hid => by simp [hcommand'] at hid) (by simp)
  once id := by
    have hreads : c'.reads id = false := by
      by_contra hne
      have := Ctx.command_of_reads (Bool.of_not_eq_false hne)
      simp [hcommand'] at this
    have hcount := Pool.countP_update (Ctx.reads id) c' [] hc
    have honce := h.once id
    rw [hreads, List.countP_nil] at hcount
    simp only [Bool.false_eq_true, if_false] at hcount
    omega
  told := by
    refine Pool.forall_update (fun x hx id hr => ?_) (fun id hr => ?_) (by simp)
    · rcases h.told x hx id hr with hold | ⟨y, hy, hys⟩
      · exact .inl hold
      · obtain ⟨j, hj⟩ := List.mem_iff_getElem?.mp hy
        by_cases hij : j = i
        · subst hij
          obtain rfl : c = y := Option.some.inj (hc.symm.trans hj)
          have := Ctx.command_of_sends hys
          simp [hcommand] at this
        · exact .inr ⟨y, Pool.other_mem hij hj, hys⟩
    · have := Ctx.command_of_reads hr
      simp [hcommand'] at this

/-- A new command gets a reader of its own. -/
theorem Serialized.spawned (h : Serialized w cs) {view : View}
    (hc : cs[i]? = some (.holding view)) (s : Sending) (current : Option Nat) :
    Serialized { w.setSend w.next fun _ => s with next := w.next + 1, current := current }
      (cs.set i (.sending w.next view .open) ++ [.reader w.next []]) where
  lock := h.lock.keep hc rfl (by simp [Ctx.inside])
  held _ := ⟨_, Pool.self_mem hc, rfl⟩
  below := by
    refine Pool.forall_update (fun x hx id hid => ?_) (fun id hid => ?_) (fun x hx id hid => ?_)
    · exact Nat.lt_succ_of_lt (h.below x hx id hid)
    · cases hid
      exact Nat.lt_succ_self _
    · obtain rfl := List.mem_singleton.mp hx
      cases hid
      exact Nat.lt_succ_self _
  once id := by
    have hcount := Pool.countP_update (Ctx.reads id) (.sending w.next view .open)
      [.reader w.next []] hc
    simp only [Ctx.reads, Bool.false_eq_true, if_false, List.countP_singleton] at hcount
    have honce := h.once id
    by_cases hid : w.next = id
    · -- No reader has the number of the next command.
      have hnone : cs.countP (Ctx.reads id) = 0 := by
        refine List.countP_eq_zero.mpr fun x hx hr => ?_
        have := h.below x hx id (Ctx.command_of_reads hr)
        omega
      simp only [hid, beq_self_eq_true, if_true] at hcount
      show List.countP (Ctx.reads id) _ ≤ 1
      rw [hid]
      omega
    · have hne : (w.next == id) = false := by simpa using hid
      simp only [hne, Bool.false_eq_true, if_false] at hcount
      show List.countP (Ctx.reads id) _ ≤ 1
      omega
  told := by
    have hnew : ∃ x ∈ cs.set i (.sending w.next view .open) ++ [.reader w.next []],
        x.sends w.next = true :=
      ⟨_, Pool.self_mem hc, by simp [Ctx.sends]⟩
    refine Pool.forall_update (fun x hx id hr => ?_) (fun id hr => by cases hr) fun x hx id hr => ?_
    · have hlt := h.below x hx id (Ctx.command_of_reads hr)
      rcases h.told x hx id hr with hold | ⟨y, hy, hys⟩
      · left
        show (if id = w.next then s else w.sends id).stop = true
        rw [if_neg (by omega)]
        exact hold
      · obtain ⟨j, hj⟩ := List.mem_iff_getElem?.mp hy
        have hij : j ≠ i := by
          rintro rfl
          obtain rfl := Option.some.inj (hc.symm.trans hj)
          cases hys
        exact .inr ⟨y, Pool.other_mem hij hj, hys⟩
    · obtain rfl := List.mem_singleton.mp hx
      obtain rfl : w.next = id := eq_of_beq hr
      exact .inr hnew

/-- A field of the commands changes that is not the flag. -/
theorem stop_setSend {f : Sending → Sending} (hf : ∀ s, (f s).stop = s.stop) (id n : Nat) :
    ((w.setSend id f).sends n).stop = (w.sends n).stop := by
  rw [World.sends_setSend]
  split
  · exact hf _
  · rfl

theorem stop_afterRead (id n m : Nat) :
    ((w.afterRead id n).sends m).stop = (w.sends m).stop := by
  rw [World.afterRead, World.sends_setQueue]
  refine stop_setSend ?_ id m
  exact fun _ => rfl

/-- A look at the clock. -/
theorem steady_now (clock now : Nat) : Steady c (c.after clock .now now) ∧
    ∀ id, c.sends id = true → (c.after clock .now now).sends id = true := by
  cases c with
  | holding view => exact ⟨.view _ _, fun _ h => h⟩
  | sending n view watch => exact ⟨.watch _ _ _ _ _, fun _ h => h⟩
  | idle | reader n bytes => exact ⟨.refl _, fun _ h => h⟩

/-- Every action a thread may perform keeps it. -/
theorem serialized_act {β : Type} {a : Act β} {e : Choice} {r : β} {w' : World}
    (h : Serialized w cs) (hc : cs[i]? = some c) (hok : c.allows a)
    (he : exec a c e w = some (r, w')) :
    (∀ bc ∈ machine.spawns c a r, regime.pre bc.1 bc.2) ∧
    Serialized w' (cs.set i (machine.after c a r w) ++ (machine.spawns c a r).map Prod.snd) := by
  have heffect := exec_effect he
  cases a with
  | spawn port =>
    obtain ⟨view, rfl⟩ : ∃ view, c = .holding view := hok
    obtain ⟨rfl, rfl⟩ := heffect
    refine ⟨fun bc hbc => ?_, h.spawned hc _ _⟩
    obtain rfl := List.mem_singleton.mp hbc
    exact rfl
  | lock =>
    refine ⟨fun _ hbc => absurd hbc List.not_mem_nil, ?_⟩
    obtain rfl : c = .idle := hok
    obtain ⟨hfree, rfl⟩ := heffect
    exact h.relock hc rfl rfl ((hfree ▸ h.lock).take hc) fun _ => rfl
  | unlock =>
    refine ⟨fun _ hbc => absurd hbc List.not_mem_nil, ?_⟩
    obtain ⟨view, rfl⟩ : ∃ view, c = .holding view := hok
    obtain rfl := heffect
    exact h.relock hc rfl rfl (h.lock.release hc rfl rfl) fun hl => by cases hl
  | readState =>
    refine ⟨fun _ hbc => absurd hbc List.not_mem_nil, ?_⟩
    obtain ⟨view, rfl⟩ : ∃ view, c = .holding view := hok
    obtain ⟨-, rfl⟩ := heffect
    exact h.steady hc (.view _ _) rfl rfl (fun _ hs => hs) fun _ hs => by cases hs
  | writeState state =>
    refine ⟨fun _ hbc => absurd hbc List.not_mem_nil, ?_⟩
    obtain ⟨t, rfl⟩ : ∃ t, c = .holding (.sweep t) := by
      cases state with
      | unknown => exact hok.elim
      | found port => exact hok.1
      | notFound instant => exact hok.imp fun _ ht => ht.1
    obtain rfl := heffect
    refine h.steady hc ?_ rfl rfl (fun _ hs => hs) fun _ hs => by cases hs
    cases state with
    | unknown | found port | notFound instant => exact .view _ _
  | now =>
    refine ⟨fun _ hbc => absurd hbc List.not_mem_nil, ?_⟩
    obtain ⟨-, rfl⟩ := heffect
    obtain ⟨hsteady, hsends⟩ := steady_now (c := c) w'.clock r
    exact h.steady hc hsteady rfl rfl (fun _ hs => hs) fun id hs => .inl (hsends id hs)
  | openRead port =>
    refine ⟨fun _ hbc => absurd hbc List.not_mem_nil, ?_⟩
    obtain ⟨view, rfl, -⟩ : ∃ view, c = .holding view ∧ view.may port := hok
    obtain rfl := heffect
    exact h.steady hc (.view _ _) rfl rfl (fun _ hs => hs) fun _ hs => by cases hs
  | write id text =>
    refine ⟨fun _ hbc => absurd hbc List.not_mem_nil, ?_⟩
    obtain rfl := heffect
    refine h.steady hc (.refl c) rfl rfl (fun n hs => ?_) fun _ hs => .inl hs
    refine (stop_setSend ?_ id n).trans hs
    exact fun _ => rfl
  | peek id =>
    refine ⟨fun _ hbc => absurd hbc List.not_mem_nil, ?_⟩
    obtain ⟨view, rfl⟩ : ∃ view, c = .sending id view .open := hok
    obtain ⟨-, rfl⟩ := heffect
    refine h.steady hc (.watch _ _ _ _ _) rfl rfl (fun _ hs => hs) fun n hs => .inl ?_
    obtain rfl : id = n := eq_of_beq (Bool.and_eq_true _ _ ▸ hs).1
    show (id == id && (if isAnswered r then Watch.matched else .open) != .closing) = true
    cases isAnswered r with
    | false | true => simp
  | stop id =>
    refine ⟨fun _ hbc => absurd hbc List.not_mem_nil, ?_⟩
    obtain rfl := heffect
    have hstop : ∀ n, (w.sends n).stop = true →
        (if n = id then { w.sends n with stop := true } else w.sends n).stop = true := by
      intro n hs
      split
      · rfl
      · exact hs
    rcases hok with ⟨view, watch, rfl⟩ | ⟨view, rfl⟩
    · have hsteady : Steady (.sending id view watch)
          (machine.after (.sending id view watch) (.stop id) r w) := by
        cases watch with
        | «open» => exact .leave _ _ _
        | matched | closing => exact .watch _ _ _ _ _
      refine h.steady hc hsteady rfl rfl hstop fun n hs => .inr ?_
      obtain rfl : id = n := eq_of_beq (Bool.and_eq_true _ _ ▸ hs).1
      show (if id = id then { w.sends id with stop := true } else w.sends id).stop = true
      rw [if_pos rfl]
    · exact h.steady hc (.refl _) rfl rfl hstop fun _ hs => by cases hs
  | collect id =>
    refine ⟨fun _ hbc => absurd hbc List.not_mem_nil, ?_⟩
    obtain rfl := heffect
    rcases hok with ⟨view, rfl⟩ | ⟨view, rfl⟩
    · refine h.steady hc (.leave _ _ _) rfl rfl (fun _ hs => hs) fun n hs => ?_
      exact absurd (Bool.and_eq_true _ _ ▸ hs).2 (by decide)
    · exact h.steady hc (.refl _) rfl rfl (fun _ hs => hs) fun _ hs => by cases hs
  | read id =>
    refine ⟨fun _ hbc => absurd hbc List.not_mem_nil, ?_⟩
    obtain rfl : c = .reader id [] := hok
    rcases heffect with ⟨-, rfl⟩ | ⟨n, -, -, rfl⟩
    · exact h.steady hc (.pending _ _ _) rfl rfl (fun _ hs => hs) fun _ hs => by cases hs
    · refine h.steady hc (.pending _ _ _) rfl rfl (fun m hs => ?_) fun _ hs => by cases hs
      exact (stop_afterRead id n m).trans hs
  | append id text =>
    refine ⟨fun _ hbc => absurd hbc List.not_mem_nil, ?_⟩
    obtain ⟨bytes, rfl, -⟩ : ∃ bytes, c = .reader id bytes ∧ text = fromUtf8Lossy bytes := hok
    obtain rfl := heffect
    refine h.steady hc (.pending _ _ _) rfl rfl (fun n hs => ?_) fun _ hs => by cases hs
    refine (stop_setSend ?_ id n).trans hs
    exact fun _ => rfl
  | sleepUntil instant | «exists» port | openWrite port | stopped id | poll id instant =>
    refine ⟨fun _ hbc => absurd hbc List.not_mem_nil, ?_⟩
    obtain rfl := heffect
    exact h.steady hc (.refl c) rfl rfl (fun _ hs => hs) fun _ hs => .inl hs

/-- So does everything that happens outside. -/
theorem serialized_occur {x : Outside} {o : Occurrence Ctx World Body} (h : Serialized w cs)
    (ho : machine.occur x w = some o) :
    (∀ bc ∈ o.starts, regime.pre bc.1 bc.2) ∧
    Serialized o.world ((if o.kill then [] else cs) ++ o.starts.map Prod.snd) := by
  have hquiet : ∀ w' : World, w'.locked = w.locked → w'.next = w.next →
      (∀ id, (w'.sends id).stop = (w.sends id).stop) → Serialized w' (cs ++ []) := by
    intro w' hlocked hnext hstop
    rw [List.append_nil]
    exact ⟨hlocked ▸ h.lock, hlocked ▸ h.held, hnext ▸ h.below, h.once,
      fun c hc id hr => by rw [hstop]; exact h.told c hc id hr⟩
  cases x with
  | tick milliseconds =>
    cases ho
    exact ⟨fun _ hbc => absurd hbc List.not_mem_nil, hquiet _ rfl rfl fun _ => rfl⟩
  | request caller =>
    cases ho
    refine ⟨fun bc hbc => ?_, ?_⟩
    · obtain rfl := List.mem_singleton.mp hbc
      exact rfl
    · refine ⟨h.lock.spawn (by simp [Ctx.inside]), fun hl => ?_, fun c hc id hid => ?_,
        fun id => ?_, fun c hc id hr => ?_⟩
      · obtain ⟨c, hc, hin⟩ := h.held hl
        exact ⟨c, List.mem_append_left _ hc, hin⟩
      · rcases List.mem_append.mp hc with hc | hc
        · exact h.below c hc id hid
        · obtain rfl := List.mem_singleton.mp hc
          cases hid
      · show (cs ++ [Ctx.idle]).countP (Ctx.reads id) ≤ 1
        rw [List.countP_append]
        exact h.once id
      · rcases List.mem_append.mp hc with hc | hc
        · exact (h.told c hc id hr).imp_right fun ⟨c', hc', hs⟩ =>
            ⟨c', List.mem_append_left _ hc', hs⟩
        · obtain rfl := List.mem_singleton.mp hc
          cases hr
  | emit id chunk =>
    simp only [machine] at ho
    split at ho
    · cases ho
      refine ⟨fun _ hbc => absurd hbc List.not_mem_nil, hquiet _ rfl rfl fun n => ?_⟩
      rw [World.sends_setQueue]
      refine stop_setSend ?_ id n
      exact fun _ => rfl
    · cases ho
  | unsolicited port chunk =>
    cases ho
    exact ⟨fun _ hbc => absurd hbc List.not_mem_nil, hquiet _ rfl rfl fun _ => rfl⟩

end Actions

/-- It holds throughout, and every thread keeps to its regime. -/
theorem serialized_run {K : Condition Act Ctx World Choice Outside}
    {s : State Act Ctx World Body} (h : machine.Run K start s) :
    Serialized s.world s.ctxs ∧ ∀ t ∈ s.threads, regime.Keeps t := by
  have hstart : Serialized start.world start.ctxs := by
    refine ⟨.nil, fun hl => (by cases hl), ?_, fun _ => Nat.zero_le _, ?_⟩
    · exact fun _ hc => absurd hc List.not_mem_nil
    · exact fun _ hc => absurd hc List.not_mem_nil
  refine Machine.sound regime program_keeps (I := Serialized) ?_ ?_ hstart
    (fun _ ht => absurd ht List.not_mem_nil) h
  · intro β w w' cs i c a e r hI hc hok _ he
    exact ⟨trivial, serialized_act hI hc hok he⟩
  · intro w cs x o hI _ ho
    exact serialized_occur hI ho

/-- Only one thread is inside. -/
theorem inside_unique {w : World} {cs : List Ctx} (h : Serialized w cs) {i j : Nat} {c c' : Ctx}
    (hi : cs[i]? = some c) (hj : cs[j]? = some c') (hc : c.inside = true) (hc' : c'.inside = true) :
    i = j := by
  by_contra hne
  have := Pool.others_not h.lock.once hi hc (fun heq => hne heq.symm) hj
  rw [hc'] at this
  cases this

/-- **One command at a time.** In every state of every run at most one thread holds the lock, and
the thread that holds it has not ended. A reader that was not told to stop reads for the command
that this thread sends, and no other reader is without its notice to stop. -/
theorem commands_serialized {s : State Act Ctx World Body} (h : machine.Run .any start s) :
    (∀ (i j : Nat) (t t' : Thread Act Ctx Body), s.threads[i]? = some t → s.threads[j]? = some t' →
      t.ctx.inside = true → t'.ctx.inside = true → i = j) ∧
    (s.world.locked = true → ∃ t ∈ s.threads, t.ctx.inside = true ∧ t.prog ≠ .pure .stop) ∧
    ∀ (i : Nat) (t : Thread Act Ctx Body) (id : Nat), s.threads[i]? = some t →
      t.ctx.reads id = true → (s.world.sends id).stop = false →
        (∃ t' ∈ s.threads, t'.ctx.sends id = true) ∧
        ∀ (j : Nat) (t' : Thread Act Ctx Body) (id' : Nat), s.threads[j]? = some t' →
          t'.ctx.reads id' = true → (s.world.sends id').stop = false → j = i := by
  obtain ⟨hserial, hkeeps⟩ := serialized_run h
  have hsending : ∀ t ∈ s.threads, ∀ id, t.ctx.reads id = true → (s.world.sends id).stop = false →
      ∃ (j : Nat) (t' : Thread Act Ctx Body), s.threads[j]? = some t' ∧
        t'.ctx.sends id = true := by
    intro t ht id hr hstop
    rcases hserial.told t.ctx (List.mem_map_of_mem ht) id hr with htold | ⟨c, hc, hs⟩
    · rw [hstop] at htold
      cases htold
    · obtain ⟨t', ht', rfl⟩ := List.mem_map.mp hc
      obtain ⟨j, hj⟩ := List.mem_iff_getElem?.mp ht'
      exact ⟨j, t', hj, hs⟩
  have hinside : ∀ {c : Ctx} {id : Nat}, c.sends id = true → c.inside = true := by
    intro c id hs
    cases c with
    | sending n view watch => rfl
    | idle | holding view | reader n bytes => cases hs
  refine ⟨fun i j t t' hi hj ht ht' => ?_, fun hl => ?_, fun i t id hi hr hstop => ⟨?_, ?_⟩⟩
  · exact inside_unique hserial (Machine.ctxs_getElem? hi) (Machine.ctxs_getElem? hj) ht ht'
  · obtain ⟨c, hc, hin⟩ := hserial.held hl
    obtain ⟨t, ht, rfl⟩ := List.mem_map.mp hc
    refine ⟨t, ht, hin, fun hp => ?_⟩
    -- A thread that has ended is idle or was a reader.
    have hend := hkeeps t ht
    rw [Machine.Regime.Keeps, hp] at hend
    rcases hend with hidle | ⟨id, hreader⟩
    · rw [hidle] at hin
      cases hin
    · rw [hreader] at hin
      cases hin
  · obtain ⟨j, t', hj, hs⟩ := hsending t (List.mem_of_getElem? hi) id hr hstop
    exact ⟨t', List.mem_of_getElem? hj, hs⟩
  · intro j t' id' hj hr' hstop'
    obtain ⟨m, u, hm, hu⟩ := hsending t (List.mem_of_getElem? hi) id hr hstop
    obtain ⟨m', u', hm', hu'⟩ := hsending t' (List.mem_of_getElem? hj) id' hr' hstop'
    obtain rfl := inside_unique hserial (Machine.ctxs_getElem? hm) (Machine.ctxs_getElem? hm')
      (hinside hu) (hinside hu')
    obtain rfl := Option.some.inj (hm.symm.trans hm')
    have hid : id = id' := Option.some.inj
      ((Ctx.command_of_sends hu).symm.trans (Ctx.command_of_sends hu'))
    subst hid
    by_contra hne
    have := Pool.others_not (hserial.once id) (Machine.ctxs_getElem? hi) hr hne
      (Machine.ctxs_getElem? hj)
    rw [hr'] at this
    cases this

namespace Sample

/-- A thread goes on. -/
def go (i : Nat) : Event Choice Outside := .thread i .go

/-- The port is there, can be opened and takes the command. -/
def opened (i : Nat) : List (Event Choice Outside) :=
  [.thread i (.result (.ok ())), .thread i (.result (.ok ())), go i, go i, .outside (.tick 50),
    go i, .thread i (.result (.ok ())), go i, go i]

/-- A reader takes so many bytes. -/
def reads (i n : Nat) : List (Event Choice Outside) :=
  [go i, go i, .thread i (.polled .readable), .thread i (.bytes (some n)), go i, go i]

/-- The loop looks at the buffer, and the reply is taken. -/
def concluded (i : Nat) : List (Event Choice Outside) :=
  [go i, go i, go i, go i, .outside (.tick 50), go i, go i, go i]

/-- A command is requested, and the first port is probed. -/
def probed : List (Event Choice Outside) :=
  [.outside (.request (.send "AT+COPS?" 2)), go 0, go 0, .thread 0 (.there true)] ++ opened 0 ++
    [.outside (.emit 0 (utf8 "OK\r\n"))] ++ reads 1 4

/-- The run in which another thread asks for the port, evaluated. -/
def probeRun : PLift ((machine.run .any start (probed ++ [.outside (.request .probe)])).any
    (fun s => s.world.locked && s.threads.length == 3) = true) := ⟨by decide +kernel⟩

end Sample

open Sample in
/-- While a port is probed, another thread asks for the port. -/
theorem probe_serialized :
    ∃ s, machine.Run .any start s ∧ (s.world.locked && s.threads.length == 3) = true ∧
      ∃ t ∈ s.threads, t.ctx.inside = true ∧ t.prog ≠ .pure .stop := by
  obtain ⟨s, hs, hp⟩ := Machine.Run.exists_of_run probeRun.down
  exact ⟨s, hs, hp, (commands_serialized hs).2.1 (Bool.and_eq_true _ _ ▸ hp).1⟩

end OpenUI.Agent.AtCmd
