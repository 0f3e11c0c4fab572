import OpenUI.Concurrency.History
import OpenUI.Proofs.Agent.AtCmd

/-!
# `OpenUI.Proofs.Agent.AtPorts`: how often the AT ports are probed

`detect` remembers the port that answered, and for a minute that none did. It looks at what it
remembers at the beginning and writes it at the end, both under the lock of `AtPort`, so no two
threads sweep the ports at once.

* `Note.Paced`: what a note of a run has to do with the ones before it.
* `ports_probed_rarely`: no port is opened within a minute of a sweep that found nothing, and none
  but the settled one after one was settled.
-/

set_option autoImplicit false

namespace OpenUI.Agent.AtCmd

open OpenUI.Text OpenUI.Euicc OpenUI.Concurrency

/-! ### What is learnt of the ports -/

/-- The instant of a note. -/
def Note.time : Note → Nat
  | .opened _ clock => clock
  | .settled _ clock => clock
  | .gaveUp instant => instant

/-- Only known ports are opened. Once a port answered, nothing but it is opened. After a sweep that
found nothing there is a minute in which no port is opened and no sweep ends. -/
structure Note.Paced (n : Note) (earlier : List Note) : Prop where
  known : ∀ port t, n = .opened port t → port ∈ ports
  settled : ∀ port t, .settled port t ∈ earlier → ∃ t', n = .opened port t'
  gaveUp : ∀ instant, .gaveUp instant ∈ earlier → instant + probeBackoff ≤ n.time

/-- The state of the port agrees with the notes. -/
structure Learnt (w : World) : Prop where
  paced : Each Note.Paced w.log
  known : ∀ port, w.state = .found port → port ∈ ports
  settled : ∀ port t, .settled port t ∈ w.log → w.state = .found port
  gaveUp : ∀ instant, .gaveUp instant ∈ w.log →
    (∃ j, w.state = .notFound j ∧ instant + probeBackoff ≤ j) ∨
      (∃ port, w.state = .found port) ∧ instant + probeBackoff ≤ w.clock

/-- What a thread has learnt is so. -/
def View.Holds (w : World) : View → Prop
  | .blank => True
  | .wait instant => w.state = .notFound instant
  | .sweep t => t ≤ w.clock ∧ (∀ port, w.state ≠ .found port) ∧
      ∀ instant, .gaveUp instant ∈ w.log → instant + probeBackoff ≤ t
  | .settled port => w.state = .found port

/-- What the thread that stands here has learnt. -/
def Ctx.view : Ctx → View
  | .holding view | .sending _ view _ => view
  | _ => .blank

/-- The notes, and what the threads have learnt. -/
structure Paced (w : World) (cs : List Ctx) : Prop where
  learnt : Learnt w
  views : ∀ c ∈ cs, c.view.Holds w

section Actions

variable {w : World} {cs : List Ctx} {i : Nat} {c : Ctx}

/-- What was learnt stays so while the state stays, the clock goes on and ports are opened. -/
theorem View.Holds.later {w' : World} {view : View} (h : view.Holds w)
    (hstate : w'.state = w.state) (hclock : w.clock ≤ w'.clock)
    (hlog : ∀ instant, .gaveUp instant ∈ w'.log → .gaveUp instant ∈ w.log) : view.Holds w' := by
  cases view with
  | blank => exact trivial
  | wait instant => exact hstate.trans h
  | settled port => exact hstate.trans h
  | sweep t =>
    obtain ⟨ht, hfound, hgave⟩ := h
    refine ⟨ht.trans hclock, fun port hp => hfound port (hstate.symm.trans hp), ?_⟩
    intro instant hi
    exact hgave instant (hlog instant hi)

theorem Learnt.later {w' : World} (h : Learnt w) (hstate : w'.state = w.state)
    (hclock : w.clock ≤ w'.clock) (hlog : w'.log = w.log) : Learnt w' where
  paced := hlog ▸ h.paced
  known port hp := h.known port (hstate.symm.trans hp)
  settled port t ht := hstate.trans (h.settled port t (hlog ▸ ht))
  gaveUp instant hi := by
    rcases h.gaveUp instant (hlog ▸ hi) with ⟨j, hj, hle⟩ | ⟨⟨port, hp⟩, hle⟩
    · exact .inl ⟨j, hstate.trans hj, hle⟩
    · exact .inr ⟨⟨port, hstate.trans hp⟩, hle.trans hclock⟩

/-- A look at the clock by a thread that waits for an instant ends the waiting. -/
theorem View.Holds.look {view : View} (hl : Learnt w) (h : view.Holds w) :
    (view.look w.clock).Holds w := by
  cases view with
  | blank => exact trivial
  | settled port => exact h
  | sweep t =>
    obtain ⟨ht, hfound, hgave⟩ := h
    exact ⟨Nat.le_refl _, hfound, fun instant hi => (hgave instant hi).trans ht⟩
  | wait instant =>
    show View.Holds w (if w.clock < instant then .blank else .sweep w.clock)
    split
    · exact trivial
    · rename_i hover
      have hstate : w.state = .notFound instant := h
      refine ⟨Nat.le_refl _, fun port hp => ?_, fun earlier hi => ?_⟩
      · rw [hstate] at hp
        cases hp
      · rcases hl.gaveUp earlier hi with ⟨j, hj, hle⟩ | ⟨⟨port, hp⟩, -⟩
        · rw [hstate] at hj
          cases hj
          omega
        · rw [hstate] at hp
          cases hp

/-- A thread that may open a port knows that it is time to. -/
theorem paced_opened (h : Paced w cs) {view : View} (hview : view.Holds w) {port : String}
    (hmay : view.may port) : Note.Paced (.opened port w.clock) w.log := by
  cases view with
  | blank | wait instant => exact hmay.elim
  | settled p =>
    obtain rfl : port = p := hmay
    have hstate : w.state = .found port := hview
    refine ⟨fun p t heq => ?_, fun p t ht => ?_, fun instant hi => ?_⟩
    · cases heq
      exact h.learnt.known port hstate
    · have := h.learnt.settled p t ht
      rw [hstate] at this
      cases this
      exact ⟨_, rfl⟩
    · rcases h.learnt.gaveUp instant hi with ⟨j, hj, -⟩ | ⟨-, hle⟩
      · rw [hstate] at hj
        cases hj
      · exact hle
  | sweep t =>
    obtain ⟨ht, hfound, hgave⟩ := hview
    refine ⟨fun p t heq => ?_, fun p t hp => ?_, fun instant hi => ?_⟩
    · cases heq
      exact hmay
    · exact absurd (h.learnt.settled p t hp) (hfound p)
    · exact (hgave instant hi).trans ht

/-- An action after which the thread has learnt something that is so, and that notes nothing. -/
theorem Paced.quiet (h : Paced w cs) {w' : World} {c' : Ctx} {new : List Ctx}
    (hstate : w'.state = w.state) (hclock : w'.clock = w.clock) (hlog : w'.log = w.log)
    (hview : c'.view.Holds w) (hnew : ∀ x ∈ new, x.view = .blank) :
    Paced w' (cs.set i c' ++ new) where
  learnt := h.learnt.later hstate hclock.ge hlog
  views := by
    have hlater : ∀ {view : View}, view.Holds w → view.Holds w' := fun hv =>
      hv.later hstate hclock.ge fun _ hi => hlog ▸ hi
    refine Pool.forall_update (fun x hx => hlater (h.views x hx)) (hlater hview) fun x hx => ?_
    rw [hnew x hx]
    exact trivial

/-- While a thread is inside, the others know nothing. -/
theorem others_blank (hs : Serialized w cs) (hc : cs[i]? = some c) (hin : c.inside = true) {j : Nat}
    {x : Ctx} (hj : j ≠ i) (hx : cs[j]? = some x) : x.view = .blank := by
  have hout := Pool.others_not hs.lock.once hc hin hj hx
  cases x with
  | idle | reader n bytes => rfl
  | holding view | sending n view watch => cases hout

/-- The thread that sweeps writes down what it found. -/
theorem paced_writeState (hs : Serialized w cs) (h : Paced w cs) {state : PortState}
    (hc : cs[i]? = some c) (hok : c.allows (.writeState state)) {e : Choice} {w' : World}
    (he : Effect c e w (.writeState state) () w') :
    Paced w' (cs.set i (machine.after c (.writeState state) () w) ++ []) := by
  obtain ⟨t, rfl⟩ : ∃ t, c = .holding (.sweep t) := by
    cases state with
    | unknown => exact hok.elim
    | found port => exact hok.1
    | notFound instant => exact hok.imp fun _ ht => ht.1
  obtain ⟨ht, hfound, hgave⟩ : (View.sweep t).Holds w := h.views _ (List.mem_of_getElem? hc)
  -- Only the thread that holds the lock knows anything of the ports.
  have hviews : ∀ {w' : World} {view : View}, view.Holds w' →
      ∀ x ∈ cs.set i (.holding view) ++ [], x.view.Holds w' := by
    intro w' view hv x hx
    rcases Pool.mem_update hx with rfl | ⟨j, hj, hxj⟩ | hx
    · exact hv
    · rw [others_blank hs hc rfl hj hxj]
      exact trivial
    · cases hx
  cases state with
  | unknown => exact hok.elim
  | found port =>
    obtain rfl := he
    refine ⟨⟨h.learnt.paced.cons ⟨fun p t heq => (by cases heq), fun p t' hp => ?_, ?_⟩, ?_, ?_,
      ?_⟩, hviews rfl⟩
    · exact absurd (h.learnt.settled p t' hp) (hfound p)
    · exact fun instant hi => (hgave instant hi).trans ht
    · rintro p ⟨⟩
      exact hok.2
    · intro p t' hp
      rcases List.mem_cons.mp hp with heq | hold
      · cases heq
        rfl
      · exact absurd (h.learnt.settled p t' hold) (hfound p)
    · intro instant hi
      rcases List.mem_cons.mp hi with heq | hold
      · cases heq
      · exact .inr ⟨⟨port, rfl⟩, (hgave instant hold).trans ht⟩
  | notFound instant =>
    -- Nothing answered: the time of giving up is what the next sweep has to wait for.
    obtain ⟨t', heq, hinstant⟩ := hok
    cases heq
    have hback : instant - probeBackoff = t := by
      rw [hinstant, Nat.add_sub_cancel]
    dsimp only [Effect] at he
    rw [hback] at he
    subst he
    refine ⟨⟨h.learnt.paced.cons ⟨fun p t heq => (by cases heq), fun p t' hp => ?_, ?_⟩, ?_, ?_,
      ?_⟩, hviews trivial⟩
    · exact absurd (h.learnt.settled p t' hp) (hfound p)
    · exact hgave
    · rintro p ⟨⟩
    · intro p t' hp
      rcases List.mem_cons.mp hp with heq | hold
      · cases heq
      · exact absurd (h.learnt.settled p t' hold) (hfound p)
    · intro earlier hi
      refine .inl ⟨_, rfl, ?_⟩
      rcases List.mem_cons.mp hi with heq | hold
      · obtain rfl : earlier = t := Note.gaveUp.inj heq
        rw [hinstant]
      · rw [hinstant]
        exact (hgave earlier hold).trans (Nat.le_add_right t probeBackoff)

/-- A reader knows nothing when it starts. -/
theorem spawns_blank {β : Type} (c : Ctx) (a : Act β) (r : β) :
    ∀ x ∈ (machine.spawns c a r).map Prod.snd, x.view = .blank := by
  intro x hx
  cases a with
  | spawn port =>
    obtain rfl := List.mem_singleton.mp hx
    rfl
  | lock | unlock | readState | writeState | now | sleepUntil | «exists» | openRead | openWrite
  | write | peek | stop | collect | stopped | poll | read | append => cases hx

/-- Every action a thread may perform keeps it. -/
theorem paced_act {β : Type} {a : Act β} {e : Choice} {r : β} {w' : World}
    (hs : Serialized w cs) (h : Paced w cs) (hc : cs[i]? = some c) (hok : c.allows a)
    (he : exec a c e w = some (r, w')) :
    Paced w' (cs.set i (machine.after c a r w) ++ (machine.spawns c a r).map Prod.snd) := by
  have hview : c.view.Holds w := h.views c (List.mem_of_getElem? hc)
  have heffect := exec_effect he
  cases a with
  | writeState state => exact paced_writeState hs h hc hok heffect
  | openRead port =>
    obtain ⟨view, rfl, hmay⟩ : ∃ view, c = .holding view ∧ view.may port := hok
    obtain rfl := heffect
    -- A port is opened only if it is the one that answers, or if a sweep is due.
    have hpaced := paced_opened h hview hmay
    have hlater : ∀ {v : View}, v.Holds w →
        v.Holds { w with log := .opened port w.clock :: w.log } := fun hv =>
      hv.later rfl (Nat.le_refl _) fun instant hi => by simpa using hi
    refine ⟨⟨h.learnt.paced.cons hpaced, h.learnt.known, ?_, ?_⟩, ?_⟩
    · exact fun p t hp => h.learnt.settled p t (by simpa using hp)
    · exact fun instant hi => h.learnt.gaveUp instant (by simpa using hi)
    · refine Pool.forall_update (fun x hx => hlater (h.views x hx)) ?_ fun x hx => ?_
      · exact hlater (View.Holds.look h.learnt hview)
      · rw [spawns_blank _ _ _ x hx]
        exact trivial
  | now =>
    obtain ⟨rfl, rfl⟩ := heffect
    refine h.quiet rfl rfl rfl ?_ (spawns_blank _ _ _)
    cases c with
    | holding view | sending n view watch => exact View.Holds.look h.learnt hview
    | idle | reader n bytes => exact trivial
  | readState =>
    obtain ⟨view, rfl⟩ : ∃ view, c = .holding view := hok
    obtain ⟨rfl, rfl⟩ := heffect
    refine h.quiet rfl rfl rfl ?_ (spawns_blank _ _ _)
    show w'.state.view.Holds w'
    cases hstate : w'.state with
    | found port => exact hstate
    | notFound instant => exact hstate
    | unknown =>
      refine ⟨Nat.zero_le _, fun port hp => ?_, fun instant hi => ?_⟩
      · rw [hstate] at hp
        cases hp
      · rcases h.learnt.gaveUp instant hi with ⟨j, hj, -⟩ | ⟨⟨port, hp⟩, -⟩
        · rw [hstate] at hj
          cases hj
        · rw [hstate] at hp
          cases hp
  | lock =>
    obtain ⟨-, rfl⟩ := heffect
    exact h.quiet rfl rfl rfl trivial (spawns_blank _ _ _)
  | unlock =>
    obtain rfl := heffect
    exact h.quiet rfl rfl rfl trivial (spawns_blank _ _ _)
  | spawn port =>
    obtain ⟨view, rfl⟩ : ∃ view, c = .holding view := hok
    obtain ⟨rfl, rfl⟩ := heffect
    exact h.quiet rfl rfl rfl hview (spawns_blank _ _ _)
  | peek id =>
    obtain ⟨view, rfl⟩ : ∃ view, c = .sending id view .open := hok
    obtain ⟨-, rfl⟩ := heffect
    exact h.quiet rfl rfl rfl hview (spawns_blank _ _ _)
  | stop id =>
    obtain rfl := heffect
    refine h.quiet rfl rfl rfl ?_ (spawns_blank _ _ _)
    rcases hok with ⟨view, watch, rfl⟩ | ⟨view, rfl⟩
    · cases watch with
      | «open» | matched | closing => exact hview
    · exact hview
  | collect id =>
    obtain rfl := heffect
    refine h.quiet rfl rfl rfl ?_ (spawns_blank _ _ _)
    rcases hok with ⟨view, rfl⟩ | ⟨view, rfl⟩
    · exact hview
    · exact hview
  | read id =>
    obtain rfl : c = .reader id [] := hok
    rcases heffect with ⟨-, rfl⟩ | ⟨n, -, -, rfl⟩
    · exact h.quiet rfl rfl rfl trivial (spawns_blank _ _ _)
    · exact h.quiet rfl rfl rfl trivial (spawns_blank _ _ _)
  | append id text =>
    obtain ⟨bytes, rfl, -⟩ : ∃ bytes, c = .reader id bytes ∧ text = fromUtf8Lossy bytes := hok
    obtain rfl := heffect
    exact h.quiet rfl rfl rfl trivial (spawns_blank _ _ _)
  | write id text | sleepUntil instant | «exists» port | openWrite port | stopped id
  | poll id instant =>
    obtain rfl := heffect
    exact h.quiet rfl rfl rfl hview (spawns_blank _ _ _)

/-- So does everything that happens outside. -/
theorem paced_occur {x : Outside} {o : Occurrence Ctx World Body} (h : Paced w cs)
    (ho : machine.occur x w = some o) :
    Paced o.world ((if o.kill then [] else cs) ++ o.starts.map Prod.snd) := by
  have hquiet : ∀ {w' : World} {new : List Ctx}, w'.state = w.state → w.clock ≤ w'.clock →
      w'.log = w.log → (∀ x ∈ new, x.view = .blank) → Paced w' (cs ++ new) := by
    intro w' new hstate hclock hlog hnew
    refine ⟨h.learnt.later hstate hclock hlog, fun x hx => ?_⟩
    rcases List.mem_append.mp hx with hx | hx
    · exact (h.views x hx).later hstate hclock fun _ hi => hlog ▸ hi
    · rw [hnew x hx]
      exact trivial
  cases x with
  | tick milliseconds =>
    cases ho
    exact hquiet rfl (Nat.le_add_right _ _) rfl (by simp)
  | request caller =>
    cases ho
    refine hquiet rfl (Nat.le_refl _) rfl fun x hx => ?_
    obtain rfl := List.mem_singleton.mp hx
    rfl
  | emit id chunk =>
    simp only [machine] at ho
    split at ho
    · cases ho
      exact hquiet rfl (Nat.le_refl _) rfl (by simp)
    · cases ho
  | unsolicited port chunk =>
    cases ho
    exact hquiet rfl (Nat.le_refl _) rfl (by simp)

end Actions

namespace Sample

/-- The run of three requests, evaluated. -/
def portRun : PLift ((machine.run .any start
    ([.outside (.request .probe), go 0, go 0] ++ List.replicate 5 (.thread 0 (.there false)) ++
      [go 0, go 0, go 0, .outside (.tick 59999), .outside (.request .probe), go 1, go 1, go 1,
        go 1, .outside (.tick 1), .outside (.request .probe), go 2, go 2, go 2,
        .thread 2 (.there true), .thread 2 (.result (.error "busy"))])).any
    (fun s => decide (s.world.log = [.opened "/dev/at_mdm0" 60000, .gaveUp 0])) = true) :=
  ⟨by decide +kernel⟩

end Sample

end OpenUI.Agent.AtCmd
