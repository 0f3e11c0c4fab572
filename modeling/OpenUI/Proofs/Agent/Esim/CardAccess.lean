import OpenUI.Proofs.Agent.Esim.Boot

/-!
# `OpenUI.Proofs.Agent.Esim.CardAccess`: the card mutex and the inventory in memory

A card session takes the card mutex, so a read that begins after a write's answer shows the card
after the write. `mutex_act` and `reading_act` prove that every allowed action keeps `CardMutex`
and `Reading`.

* `absorbRead_cases`: what a read leaves of the card in memory.
* `Absorbed.inventory_kept`: while an operation is unresolved a known card is not lost.
-/

set_option autoImplicit false

namespace OpenUI.Agent.Esim

open OpenUI.Json OpenUI.Text OpenUI.Concurrency

variable {P : Platform} {t : Timing}

/-! ### The card mutex -/

/-- A new thread holds no mutex and reads nothing. -/
theorem spawns_holds {β : Type} {c : Ctx} {a : Act β} {r : β} {x : Ctx}
    (hx : x ∈ (spawns c a r).map Prod.snd) :
    x.card = false ∧ x.reading = false ∧ x.readOk = false ∧ x.dirty = false ∧ x.saving = none ∧
      x.pushed = false ∧ x.claimedWorker = false := by
  cases a with
  | spawn b =>
    cases b <;>
      (rw [List.mem_singleton.mp hx]; exact ⟨rfl, rfl, rfl, rfl, rfl, rfl, rfl⟩)
  | _ => cases hx

theorem after_card {β : Type} {c : Ctx} {a : Act β} {r : β} {w : World}
    (ha : a.touches .mutex = false) : (c.after a r w).card = c.card := by
  by_cases ht : a.takes = false
  · exact congrArg Holds.card (after_holds ht)
  · cases a with
    | receiptsPending => cases r <;> rfl
    | startHelper request =>
      cases request <;> first
        | rfl
        | (simp only [Ctx.after]; split <;> rfl)
    | setLock _ _ => cases r <;> rfl
    | workerRound => cases r <;> rfl
    | spawn b => cases b <;> rfl
    | snapshot | writeState _ | absorbRead _ _ | pushReceipts _ | claimWorker
    | absorbDelivery _ => rfl
    | lockCard | tryLockCard | unlockCard => cases ha
    | _ => exact absurd rfl ht

/-- A thread reads after the action only if it did before or starts to, under the mutex. -/
theorem after_reading {β : Type} {c : Ctx} {a : Act β} {r : β} {w : World} (hok : c.allows a)
    (h : (c.after a r w).reading = true) :
    c.reading = true ∧ (c.after a r w).fresh = c.fresh ∨
      c.card = true ∧ (c.client = true ∨ c.op.isSome = true) ∧
        (c.after a r w).fresh = (w.history.fate != .unsent) := by
  by_cases ht : a.takes = false
  · have hholds := after_holds (c := c) (r := r) (w := w) ht
    exact .inl ⟨(congrArg Holds.reading hholds).symm.trans h, congrArg Holds.fresh hholds⟩
  · cases a with
    | receiptsPending => cases r <;> exact .inl ⟨h, rfl⟩
    | startHelper request =>
      generalize hx : c.after (.startHelper request) r w = c' at h ⊢
      cases hx ▸ after_startHelper c request w with
      | read => exact .inr ⟨hok.1, hok.2.2, rfl⟩
      | notify | write _ _ | rename _ _ => exact .inl ⟨h, rfl⟩
    | setLock _ _ => cases r <;> exact .inl ⟨h, rfl⟩
    | workerRound => cases r <;> exact .inl ⟨h, rfl⟩
    | spawn b => cases b <;> exact .inl ⟨h, rfl⟩
    | absorbRead _ _ => cases h
    | snapshot | writeState _ | pushReceipts _ | claimWorker | absorbDelivery _ | lockCard
    | tryLockCard | unlockCard => exact .inl ⟨h, rfl⟩
    | _ => exact absurd rfl ht

theorem mutex_act {β : Type} {w w' : World} {cs : List Ctx} {i : Nat} {c : Ctx} {a : Act β}
    {e : Choice} {r : β} (hB : Base P w cs) (hc : cs[i]? = some c) (hok : c.allows a)
    (he : exec P t a c e w = some (r, w')) :
    CardMutex w' (cs.set i (c.after a r w) ++ (spawns c a r).map Prod.snd) := by
  obtain ⟨hone, hfree, hreading⟩ := hB.mutex
  have hmem := List.mem_of_getElem? hc
  have hcount := Pool.countP_update Ctx.card (c.after a r w) ((spawns c a r).map Prod.snd) hc
  have hzero : ((spawns c a r).map Prod.snd).countP Ctx.card = 0 :=
    List.countP_eq_zero.mpr fun x hx => by simp [(spawns_holds hx).1]
  have hread : ∀ x ∈ cs.set i (c.after a r w) ++ (spawns c a r).map Prod.snd, x.reading = true →
      x = c.after a r w ∨ x ∈ cs := by
    intro x hx hxr
    rcases Pool.mem_update hx with rfl | ⟨j, -, hxj⟩ | hx
    · exact .inl rfl
    · exact .inr (List.mem_of_getElem? hxj)
    · rw [(spawns_holds hx).2.1] at hxr; cases hxr
  -- Who reads keeps the mutex: no action lets go of it in the middle of a read.
  have hkeep : ∀ x ∈ cs.set i (c.after a r w) ++ (spawns c a r).map Prod.snd, x.reading = true →
      x.card = true ∧ (x.client = true ∨ x.op.isSome = true) := by
    intro x hx hxr
    rcases hread x hx hxr with rfl | hx'
    · have hbefore : c.card = true ∧ (c.client = true ∨ c.op.isSome = true) := by
        rcases after_reading hok hxr with ⟨h, -⟩ | h
        · exact hreading c hmem h
        · exact ⟨h.1, h.2.1⟩
      refine ⟨?_, ?_⟩
      · cases hm : a.touches .mutex with
        | false => rw [after_card hm]; exact hbefore.1
        | true =>
          cases a with
          | lockCard => rfl
          | tryLockCard => exact absurd (hbefore.1.symm.trans hok) (by simp)
          | unlockCard => exact absurd (hxr.symm.trans hok.2) (by simp)
          | _ => cases hm
      · rw [(after_booting c a r w).2]
        refine hbefore.2.imp id fun h => ?_
        cases hop : (c.after a r w).op with
        | some _ => rfl
        | none => rw [(after_op hop).1] at h; cases h
    · exact hreading x hx' hxr
  cases hm : a.touches .mutex with
  | false =>
    rw [after_card hm] at hcount
    have hsame : w'.card = w.card := exec_same he .mutex hm
    exact ⟨by omega, fun h => by have := hfree (hsame ▸ h); omega, hkeep⟩
  | true =>
    cases a with
    | lockCard =>
      have hcc : c.card = false := hok
      simp only [exec] at he
      split at he
      · cases he
      · rename_i hw
        cases he
        have := hfree (by simpa using hw)
        rw [hcc, show (c.after .lockCard () w).card = true from rfl, if_pos rfl] at hcount
        exact ⟨by omega, by simp, hkeep⟩
    | tryLockCard =>
      have hcc : c.card = false := hok
      simp only [exec] at he
      split at he
      · rename_i hw
        cases he
        rw [hcc, show (c.after .tryLockCard false w).card = false from rfl] at hcount
        exact ⟨by omega, fun h => absurd hw (by simp [h]), hkeep⟩
      · rename_i hw
        cases he
        have := hfree (by simpa using hw)
        rw [hcc, show (c.after .tryLockCard true w).card = true from rfl, if_pos rfl] at hcount
        exact ⟨by omega, by simp, hkeep⟩
    | unlockCard =>
      cases he
      have hcc : c.card = true := hok.1
      rw [hcc, show (c.after .unlockCard () w).card = false from rfl, if_pos rfl,
        if_neg Bool.false_ne_true] at hcount
      exact ⟨by omega, fun _ => by omega, hkeep⟩
    | _ => cases hm

/-! ### The inventory in memory -/

/-- What a read leaves of the card in memory: `some newCard` for a read that was taken in. -/
inductive Absorbed (P : Platform) (t : Timing) (now : Nat) (before after : Inner) :
    Except (String × String) Bool → Prop where
  /-- The inventory is taken in; a new card has an empty queue. -/
  | taken {inv : Inventory} (data : Value)
      (parsed : parseInventory P before.salt now data = some inv)
      (inventory : after.inventory = some inv)
      (card : after.card = some (cardHash P before.salt inv.eid))
      (receipts : after.receipts =
        if before.card != some (cardHash P before.salt inv.eid)
        then { worker := before.receipts.worker } else before.receipts) :
      Absorbed P t now before after
        (.ok (before.card != some (cardHash P before.salt inv.eid)))
  /-- The read failed. -/
  | kept {error : String × String} (inventory : after.inventory = before.inventory)
      (card : after.card = before.card) (receipts : after.receipts = before.receipts) :
      Absorbed P t now before after (.error error)
  /-- The SIM is no eSIM, and no change is in progress that would explain it. -/
  | lost {error : String × String} (inventory : after.inventory = none)
      (idle : before.card = none ∨ before.inChange t now = false)
      (card : after.card = before.card) (receipts : after.receipts = before.receipts) :
      Absorbed P t now before after (.error error)

theorem absorbRead_cases (now : Nat) (o : HelperOutcome) (ready : Bool) (inner : Inner) :
    Absorbed P t now inner (inner.absorbRead P t now o ready).2
      (inner.absorbRead P t now o ready).1 := by
  unfold Inner.absorbRead
  cases o with
  | ok data =>
    dsimp only
    split
    · rename_i inv hinv
      exact .taken data hinv rfl rfl rfl
    · exact .kept rfl rfl rfl
  | failed kind message detail =>
    dsimp only
    split
    · exact .kept rfl rfl rfl
    · split
      · split
        · exact .kept rfl rfl rfl
        · rename_i hreload
          refine .lost rfl ?_ rfl rfl
          simp only [Bool.and_eq_true, Option.isSome_iff_ne_none, Bool.or_eq_true, not_and, not_or]
            at hreload
          by_cases hcard : inner.card = none
          · exact .inl hcard
          · exact .inr (eq_false_of_ne_true (hreload hcard).1)
      · split
        · split <;> exact .kept rfl rfl rfl
        · exact .kept rfl rfl rfl
  | _ => exact .kept rfl rfl rfl

/-- Noting what a read produced leaves the guarded state alone. -/
@[simp] theorem noteProduced_inner (w : World) : w.noteProduced.inner = w.inner := by
  unfold World.noteProduced
  split <;> rfl

@[simp] theorem noteRead_inner (w : World) (fresh : Bool) (inv : Inventory) :
    (w.noteRead fresh inv).inner = w.inner := by
  unfold World.noteRead
  split
  · rw [noteProduced_inner]
    rfl
  · rfl

@[simp] theorem noteAbsorbed_inner (w : World) (fresh : Bool)
    (r : Except (String × String) Bool) : (w.noteAbsorbed fresh r).inner = w.inner := by
  unfold World.noteAbsorbed
  split
  · split
    · rw [noteRead_inner]
      rfl
    · rfl
  · rfl

theorem noteRead_reads (w : World) (fresh : Bool) (inv : Inventory) :
    (w.noteRead fresh inv).history.reads =
      if fresh && w.history.fate != .unsent then w.history.reads ++ [inv] else w.history.reads := by
  unfold World.noteRead
  split
  · exact noteProduced_same _ (p := .reads) (by simp)
  · rfl

/-- A read in the world: the section of the mutex, and what the history notes of it. -/
theorem absorb_world {o : HelperOutcome} {ready : Bool} {c : Ctx} {e : Choice} {w w' : World}
    {r : Except (String × String) Bool}
    (he : exec P t (.absorbRead o ready) c e w = some (r, w')) :
    ∃ inner, Absorbed P t w.now w.inner inner r ∧
      w' = { w with inner }.noteAbsorbed c.fresh r := by
  simp only [exec, Option.some.injEq, Prod.mk.injEq] at he
  obtain ⟨rfl, rfl⟩ := he
  exact ⟨_, absorbRead_cases w.now o ready w.inner, rfl⟩

theorem noteAbsorbed_ok (w : World) (fresh newCard : Bool) {inv : Inventory}
    (h : w.inner.inventory = some inv) :
    w.noteAbsorbed fresh (.ok newCard) = (w.noteCard newCard).noteRead fresh inv := by
  simp only [World.noteAbsorbed, h]

@[simp] theorem noteAbsorbed_error (w : World) (fresh : Bool) (error : String × String) :
    w.noteAbsorbed fresh (.error error) = w := rfl

/-- The action that takes a read in. -/
def Act.isAbsorb {β : Type} : Act β → Bool
  | .absorbRead _ _ => true
  | _ => false

/-- Only a read that is taken in makes a thread know the card. -/
theorem after_readOk {β : Type} {c : Ctx} {a : Act β} {r : β} {w : World}
    (hr : a.isAbsorb = false) (hk : (c.after a r w).readOk = true) : c.readOk = true := by
  by_cases hf : a.finds = false
  · exact (congrArg Findings.readOk (after_findings hf)).symm.trans hk
  · cases a with
    | absorbRead _ _ => cases hr
    | putOperation _ => cases hk
    | startHelper request =>
      generalize hx : c.after (.startHelper request) r w = c' at hk
      cases hx ▸ after_startHelper c request w <;> exact hk
    | helperAnswer =>
      simp only [Ctx.after, Ctx.answered] at hk
      split at hk <;> exact hk
    | runEvent =>
      cases r with
      | done o =>
        simp only [Ctx.after, Ctx.answered] at hk
        split at hk <;> exact hk
      | _ => exact hk
    | setOp _ _ =>
      simp only [Ctx.after, Ctx.publish] at hk
      split at hk <;> exact hk
    | spawn b => cases b <;> exact hk
    | readJournal | removeJournal | examine | findInstalled | newReceipts | listedReceipts
    | pushReceipts _ => exact hk
    | _ => exact absurd rfl hf

/-- Which contexts `known` speaks of does not change, except where the write is answered. -/
theorem after_known {β : Type} {c : Ctx} {a : Act β} {r : β} {w : World} (hok : c.allows a)
    (hr : a.isAbsorb = false) (ho : (c.after a r w).owns = true)
      (hk : (c.after a r w).readOk = true) :
    c.owns = true ∧ c.readOk = true ∧ ((c.after a r w).phase = c.phase ∨ c.phase ≠ .settling) := by
  have hread := after_readOk hr hk
  have hnew : c ≠ .newClient := fun h => by rw [h] at hread; cases hread
  cases hcl : a.claims with
  | false => exact ⟨(after_owns hok hcl ho).1, hread, (after_owns hok hcl ho).2⟩
  | true =>
    cases a with
    | putOperation _ => cases hk
    | admitChange _ _ _ _ => exact absurd hok.1 hnew
    | claimDownload _ => exact absurd hok.1 hnew
    | _ => cases hcl

/-- The reads start over: the write was answered, or a new operation was claimed. -/
theorem Reading.reset {w w' : World} {cs cs' : List Ctx} (h : Reading P w cs)
    (hcard : w.Same w' .card) (hsalt : w'.inner.salt = w.inner.salt)
    (hreads : w'.history.reads = [])
    (hfresh : ∀ x ∈ cs', x.reading = true → w'.history.fate ≠ .unsent → x.fresh = true)
    (hknown : ∀ x ∈ cs', x.owns = true → x.readOk = false) : Reading P w' cs' := by
  refine ⟨fun inv hinv => ?_, fun inv hinv => ?_, fun _ _ hne => absurd hreads hne,
    fun hne => absurd hreads hne, hfresh, fun x hx ho hk => ?_⟩
  · rw [hcard.2] at hinv
    rw [hcard.1, hsalt]
    exact h.hash inv hinv
  · exact h.handles inv (hcard.2 ▸ hinv)
  · rw [hknown x hx ho] at hk
    cases hk

/-- An action that takes no read in, answers no write and claims nothing keeps what is known. -/
theorem reading_frame {β : Type} {w w' : World} {cs : List Ctx} {i : Nat} {c : Ctx} {a : Act β}
    {e : Choice} {r : β} (hB : Base P w cs) (hc : cs[i]? = some c) (hok : c.allows a)
    (he : exec P t a c e w = some (r, w')) (hcard : w.Same w' .card) (hreads : w.Same w' .reads)
    (hfate : w.Same w' .fate) (habsorb : a.isAbsorb = false) :
    Reading P w' (cs.set i (c.after a r w) ++ (spawns c a r).map Prod.snd) := by
  obtain ⟨hhash, hhandles, hlast, hanswered, hfresh, hknown⟩ := hB.reading
  have hreads : w'.history.reads = w.history.reads := hreads
  have hsalt := exec_salt he
  have hnew : ∀ x ∈ (spawns c a r).map Prod.snd, x.reading = false ∧ x.readOk = false :=
    fun x hx => ⟨(spawns_holds hx).2.1, (spawns_holds hx).2.2.1⟩
  refine ⟨fun inv hinv => ?_, fun inv hinv => hhandles inv (hcard.2 ▸ hinv),
    fun inv hinv hne => ?_, fun hne => ?_, fun x hx hxr hne => ?_, fun x hx ho hk => ?_⟩
  · rw [hcard.1, hsalt]
    exact hhash inv (hcard.2 ▸ hinv)
  · rw [hreads] at hne ⊢
    exact hlast inv (hcard.2 ▸ hinv) hne
  · rw [hfate.1]
    exact hanswered (hreads ▸ hne)
  · rw [hfate.1] at hne
    rcases Pool.mem_update hx with rfl | ⟨j, -, hxj⟩ | hx
    · rcases after_reading hok hxr with ⟨h, hf⟩ | ⟨-, -, hf⟩
      · rw [hf]
        exact hfresh c (List.mem_of_getElem? hc) h hne
      · rw [hf]
        simpa using hne
    · exact hfresh x (List.mem_of_getElem? hxj) hxr hne
    · rw [(hnew x hx).1] at hxr; cases hxr
  · rw [hcard.2, hreads]
    rcases Pool.mem_update hx with rfl | ⟨j, -, hxj⟩ | hx
    · obtain ⟨hco, hck, hphase⟩ := after_known hok habsorb ho hk
      obtain ⟨hp, hinv⟩ := hknown c (List.mem_of_getElem? hc) hco hck
      rcases hphase with h | h
      · exact ⟨h.trans hp, hinv⟩
      · exact absurd hp h
    · exact hknown x (List.mem_of_getElem? hxj) ho hk
    · rw [(hnew x hx).2] at hk; cases hk

/-- The write was answered: no read was under way, so every read that counts begins after it. -/
theorem reading_answered {w : World} {cs : List Ctx} {i : Nat} {c : Ctx} (o : HelperOutcome)
    (left : List Nat) (hB : Base P w cs) (hc : cs[i]? = some c) (hcard : c.card = true)
    (hread : c.reading = false) (hp : c.phase = .running) :
    Reading P (w.noteAnswer c.phase o left) (cs.set i (c.answered o) ++ []) := by
  have ho : c.owns = true := Ctx.owns_iff.mpr (.inr (.inl hp))
  rw [World.noteAnswer, if_pos hp, Ctx.answered, if_pos hp]
  refine hB.reading.reset ⟨rfl, rfl⟩ rfl rfl (fun x hx hxr => ?_) fun x hx hxo => ?_
  · rcases Pool.mem_update hx with rfl | ⟨j, hj, hxj⟩ | hx
    · exact absurd (hread.symm.trans hxr) (by simp)
    · have := (hB.mutex.reading x (List.mem_of_getElem? hxj) hxr).1
      rw [Pool.others_not hB.mutex.one hc hcard hj hxj] at this
      cases this
    · cases hx
  · rcases Pool.mem_update hx with rfl | ⟨j, hj, hxj⟩ | hx
    · refine eq_false_of_ne_true fun hk => ?_
      exact absurd (hp.symm.trans (hB.reading.known c (List.mem_of_getElem? hc) ho hk).1) (by simp)
    · rw [Pool.others_not hB.ownership.one hc ho hj hxj] at hxo
      cases hxo
    · cases hx

/-- A claim of the free slot: nothing is known of the new operation. -/
theorem reading_claim {w w' : World} {cs : List Ctx} {i : Nat} {c' : Ctx}
    (hR : Reading P w cs) (hzero : cs.countP Ctx.owns = 0)
    (hcard : w.Same w' .card) (hsalt : w'.inner.salt = w.inner.salt)
    (hreads : w'.history.reads = [])
    (hnone : w'.history.fate = .unsent ∨ ∀ x ∈ cs.set i c' ++ [], x.reading = false)
    (hread : c'.readOk = false) : Reading P w' (cs.set i c' ++ []) := by
  refine hR.reset hcard hsalt hreads (fun x hx hxr hne => ?_) fun x hx hxo => ?_
  · rcases hnone with h | h
    · exact absurd h hne
    · rw [h x hx] at hxr
      cases hxr
  · rcases Pool.mem_update hx with rfl | ⟨j, hj, hxj⟩ | hx
    · exact hread
    · rw [Pool.not_of_countP_eq_zero hzero (List.mem_of_getElem? hxj)] at hxo
      cases hxo
    · cases hx

/-- While an operation is unresolved a known card is not lost: a failed read then counts as part
of the change. -/
theorem Absorbed.inventory_kept {now : Nat} {before after : Inner}
    {error : String × String} (h : Absorbed P t now before after (.error error))
    (hbusy : before.operationBusy = true) (hcard : before.card.isSome = true) :
    after.inventory = before.inventory := by
  cases h with
  | kept hinv => exact hinv
  | lost _ hidle =>
    rcases hidle with h | h
    · rw [h] at hcard
      cases hcard
    · rw [Inner.inChange, hbusy] at h
      cases h

/-- A failed read keeps the card in memory, and keeps or drops the inventory. -/
theorem Absorbed.of_error {now : Nat} {before after : Inner} {error : String × String}
    (h : Absorbed P t now before after (.error error)) :
    after.card = before.card ∧ after.receipts = before.receipts ∧
      (after.inventory = before.inventory ∨ after.inventory = none) := by
  cases h with
  | kept hinv hcard hq => exact ⟨hcard, hq, .inl hinv⟩
  | lost hinv _ hcard hq => exact ⟨hcard, hq, .inr hinv⟩

/-- A read of the card that was there before keeps the queue. -/
theorem Absorbed.of_same_card {now : Nat} {before after : Inner}
    (h : Absorbed P t now before after (.ok false)) :
    after.card = before.card ∧ after.receipts = before.receipts := by
  generalize hr : (Except.ok false : Except (String × String) Bool) = r at h
  cases h with
  | taken data _ _ hcard hq =>
    have hsame := Except.ok.inj hr
    rw [← hsame] at hq
    exact ⟨hcard.trans (Eq.symm (by simpa using hsame.symm)), hq⟩
  | kept _ _ _ => cases hr
  | lost _ _ _ _ => cases hr

theorem reading_failed {w w' : World} {cs : List Ctx} {i : Nat} {c c' : Ctx} {inner : Inner}
    {error : String × String} (hB : Base P w cs) (hc : cs[i]? = some c)
    (habs : Absorbed P t w.now w.inner inner (.error error)) (hw : w' = { w with inner })
    (hsalt : inner.salt = w.inner.salt) (hsame : c.SameOwner c' ∧ c'.readOk = c.readOk)
    (hread : ∀ x ∈ cs.set i c' ++ [], x.reading = true → w'.history.fate ≠ .unsent →
      x.fresh = true) : Reading P w' (cs.set i c' ++ []) := by
  obtain ⟨hhash, hhandles, hlast, hanswered, -, hknown⟩ := hB.reading
  obtain ⟨hcard, -, hinv⟩ := habs.of_error
  have hkept : ∀ inv, inner.inventory = some inv → w.inner.inventory = some inv := by
    intro inv h
    rcases hinv with hinv | hinv
    · exact hinv ▸ h
    · rw [hinv] at h
      cases h
  subst hw
  refine ⟨fun inv h => ?_, fun inv h => hhandles inv (hkept inv h),
    fun inv h => hlast inv (hkept inv h), hanswered, hread, fun x hx ho hk => ?_⟩
  · show inner.card = some (cardHash P inner.salt inv.eid)
    rw [hcard, hsalt]
    exact hhash inv (hkept inv h)
  · -- The owner's operation is unresolved, so a failed read does not lose the card.
    have hold : ∀ y ∈ cs, y.owns = true → y.readOk = true → y.phase = .settling ∧
        inner.inventory.isSome = true ∧ w.history.reads ≠ [] := by
      intro y hy hyo hyk
      obtain ⟨hp, hsome, hreads⟩ := hknown y hy hyo hyk
      refine ⟨hp, ?_, hreads⟩
      obtain ⟨inv, hinv⟩ := Option.isSome_iff_exists.mp hsome
      rw [habs.inventory_kept (hB.ownership.busy_of_owns hy hyo) (by rw [hhash inv hinv]; rfl)]
      exact hsome
    rcases Pool.mem_update hx with rfl | ⟨j, -, hxj⟩ | hx
    · obtain ⟨hp, h⟩ := hold c (List.mem_of_getElem? hc) (hsame.1.owns ▸ ho) (hsame.2 ▸ hk)
      exact ⟨hsame.1.2.2.1.trans hp, h⟩
    · exact hold x (List.mem_of_getElem? hxj) ho hk
    · cases hx

theorem reading_absorb {w w' : World} {cs : List Ctx} {i : Nat} {c : Ctx} {o : HelperOutcome}
    {ready : Bool} {e : Choice} {r : Except (String × String) Bool} (hB : Base P w cs)
    (hc : cs[i]? = some c) (hok : c.allows (.absorbRead o ready))
    (he : exec P t (.absorbRead o ready) c e w = some (r, w')) :
    Reading P w' (cs.set i (c.after (.absorbRead o ready) r w) ++ []) := by
  obtain ⟨hhash, hhandles, hlast, hanswered, hfresh, hknown⟩ := hB.reading
  have hmem := List.mem_of_getElem? hc
  have hfate : w'.history.fate = w.history.fate := (exec_same he .fate rfl).1
  have hreading : ∀ x ∈ cs.set i (c.after (.absorbRead o ready) r w) ++ [], x.reading = true →
      w'.history.fate ≠ .unsent → x.fresh = true := by
    intro x hx hxr hne
    rcases Pool.mem_update hx with rfl | ⟨j, -, hxj⟩ | hx
    · cases hxr
    · exact hfresh x (List.mem_of_getElem? hxj) hxr (hfate ▸ hne)
    · cases hx
  obtain ⟨inner, habs, hw⟩ := absorb_world he
  cases r with
  | error error =>
    have hw : w' = { w with inner } := hw.trans (noteAbsorbed_error _ _ _)
    have hsalt : w'.inner.salt = w.inner.salt := exec_salt he
    refine reading_failed hB hc habs hw (by rw [hw] at hsalt; exact hsalt) ?_ hreading
    simp [Ctx.SameOwner]
  | ok newCard =>
    cases habs with
    | @taken inv data hparsed hinv hcard _ =>
    rw [noteAbsorbed_ok _ _ _ hinv] at hw
    have hinner : w'.inner = inner := by rw [hw, noteRead_inner]; rfl
    have hreads : w'.history.reads = if c.fresh && w.history.fate != .unsent
        then w.history.reads ++ [inv] else w.history.reads := by
      rw [hw, noteRead_reads]
      rfl
    have hadded : w.history.fate ≠ .unsent → inv ∈ w'.history.reads := by
      intro hne
      rw [hreads, hfresh c hmem hok.2 hne]
      simp [hne]
    have hsalt : w'.inner.salt = w.inner.salt := exec_salt he
    rw [hinner] at hsalt
    refine ⟨fun inv' h => ?_, fun inv' h => ?_, fun inv' h hne => ?_, fun hne => ?_, hreading, ?_⟩
    · rw [hinner, hinv, Option.some.injEq] at h
      subst h
      rw [hinner, hcard, hsalt]
    · rw [hinner, hinv, Option.some.injEq] at h
      subst h
      intro p hp
      rw [handle_of_parsed hparsed p hp]
      exact optText_handleFor _ _ _
    · rw [hinner, hinv, Option.some.injEq] at h
      subst h
      refine hadded fun hun => ?_
      rw [hreads] at hne
      have : w.history.reads ≠ [] := by simpa [hun] using hne
      exact hanswered this hun
    · rw [hfate]
      intro hun
      rw [hreads] at hne
      have : w.history.reads ≠ [] := by simpa [hun] using hne
      exact hanswered this hun
    · intro x hx ho hk
      suffices h : x.phase = .settling ∧ w.history.fate ≠ .unsent from
        ⟨h.1, by rw [hinner, hinv]; rfl, List.ne_nil_of_mem (hadded h.2)⟩
      rcases Pool.mem_update hx with rfl | ⟨j, -, hxj⟩ | hx
      · have hp : c.phase = .settling := by
          simp only [Ctx.after, Bool.or_eq_true, Bool.and_eq_true, beq_iff_eq] at hk
          exact hk.elim (fun h => (hknown c hmem ho h).1) fun h => h.1
        exact ⟨hp, (hB.ownership.fate_of_settling hmem hp).2⟩
      · have hx' := List.mem_of_getElem? hxj
        have hp := (hknown x hx' ho hk).1
        exact ⟨hp, (hB.ownership.fate_of_settling hx' hp).2⟩
      · cases hx

theorem reading_act {β : Type} {w w' : World} {cs : List Ctx} {i : Nat} {c : Ctx} {a : Act β}
    {e : Choice} {r : β} (hB : Base P w cs) (hc : cs[i]? = some c) (hok : c.allows a)
    (he : exec P t a c e w = some (r, w')) :
    Reading P w' (cs.set i (c.after a r w) ++ (spawns c a r).map Prod.snd) := by
  have hmem := List.mem_of_getElem? hc
  have hframe : a.touches .card = false → a.touches .reads = false → a.touches .fate = false →
      a.isAbsorb = false → Reading P w' (cs.set i (c.after a r w) ++ (spawns c a r).map Prod.snd) :=
    fun h₁ h₂ h₃ => reading_frame hB hc hok he (exec_same he .card h₁) (exec_same he .reads h₂)
      (exec_same he .fate h₃)
  have he₀ := he
  cases a with
  | absorbRead o ready => exact reading_absorb hB hc hok he
  | putOperation op =>
    cases e <;> simp only [exec, reduceCtorEq, Option.some.injEq, Prod.mk.injEq] at he
    obtain ⟨-, rfl⟩ := he
    obtain ⟨-, hbefore, -⟩ := hB.boot.before c hmem hok.1 hok.2.1
    have hclosed := (hB.boot.closed c hmem hok.1).2
    have hnone : ∀ x ∈ cs, x.reading = false := by
      intro x hx
      refine eq_false_of_ne_true fun hxr => ?_
      rcases (hB.mutex.reading x hx hxr).2 with h | h
      · rw [hclosed x hx] at h; cases h
      · rw [(hbefore x hx).2] at h; cases h
    refine reading_claim hB.reading (List.countP_eq_zero.mpr fun x hx => ?_) ⟨rfl, rfl⟩ rfl rfl
      (.inr (Pool.forall_update hnone (hnone c hmem) fun x hx => by cases hx)) rfl
    simp [Ctx.owns, (hbefore x hx).1]
  | admitChange kind id handle revision =>
    have hcard := exec_same he .card rfl
    have hsalt := exec_salt he
    rcases admit_world he with ⟨a, inv, rfl, hbusy, -, -, -, -, rfl⟩ | ⟨refusal, rfl, rfl⟩
    · exact reading_claim hB.reading (hB.ownership.free hbusy) hcard hsalt rfl (.inl rfl)
        (by rw [hok.1]; rfl)
    · exact reading_frame hB hc hok he hcard rfl ⟨rfl, rfl, rfl⟩ rfl
  | claimDownload id =>
    have hcard := exec_same he .card rfl
    have hsalt := exec_salt he
    rcases claim_world he with ⟨inv, rfl, hbusy, -, rfl⟩ | ⟨refusal, rfl, rfl⟩
    · exact reading_claim hB.reading (hB.ownership.free hbusy) hcard hsalt rfl (.inl rfl)
        (by rw [hok.1]; rfl)
    · exact reading_frame hB hc hok he hcard rfl ⟨rfl, rfl, rfl⟩ rfl
  | helperAnswer =>
    cases e <;> simp only [exec, reduceCtorEq, Option.some.injEq, Prod.mk.injEq] at he
    obtain ⟨rfl, rfl⟩ := he
    rename_i o left
    by_cases hp : c.phase = .running
    · exact reading_answered o left hB hc hok.1 (hok.2 hp) hp
    · rw [w.noteAnswer_of_ne hp] at he₀ ⊢
      exact reading_frame hB hc hok he₀ (.refl w _) (.refl w _) (.refl w _) rfl
  | runEvent =>
    cases e <;> simp only [exec, reduceCtorEq, Option.some.injEq, Prod.mk.injEq] at he
    obtain ⟨rfl, rfl⟩ := he
    rename_i ev left
    cases ev with
    | done o => exact reading_answered o left hB hc hok.1 hok.2.1 hok.2.2.1
    | _ => exact reading_frame hB hc hok he₀ (.refl w _) (.refl w _) (.refl w _) rfl
  | _ => exact hframe rfl rfl rfl rfl

end OpenUI.Agent.Esim
