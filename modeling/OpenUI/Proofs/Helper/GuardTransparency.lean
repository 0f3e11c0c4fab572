import OpenUI.Euicc.Der
import OpenUI.Helper.Guard
import OpenUI.Proofs.Euicc.Command

/-!
# `OpenUI.Proofs.Helper.GuardTransparency`: what the guard does to an allowed command

`Euicc::command` numbers its STORE DATA blocks modulo 256, and the guard takes every block with the
number 0 for the first of a command. Block 256 of a long request, block 512 and so on are therefore
judged by whatever the request holds there. `guard_transparent` is the exact condition under which
that makes no difference: each of these blocks begins with an allowed tag.

* `collect_over_guard`, `blocks_over_guard`: the two channels in lockstep.
* `blocks_admitted`: a command that comes through the guard had only admitted blocks.
* `command_bare_ok`: on a card that takes every block, the bare channel sends the command.
-/

set_option autoImplicit false

namespace OpenUI.Helper

open OpenUI.Concurrency OpenUI.Concurrency.Program OpenUI.Euicc

/-- The blocks that the guard takes for the first one begin with an allowed tag. -/
def WrapsAllowed (allowed : List Nat) (der : Bytes) : Prop :=
  ∀ k, 0 < k → mss * (256 * k) < der.length →
    (leadingTag (der.drop (mss * (256 * k)))).any (fun t => allowed.contains t) = true

/-- The command runs the same behind the guard as without it, whatever the card answers: the same
APDUs reach the card, and the same result comes back. -/
def Transparent (channel : UInt8) (flags : Flags) (guard : Guard) (der : Bytes) : Prop :=
  ∀ polls answers,
    let guarded := (command channel polls der).interpret overGuard ⟨flags, guard, ⟨answers, []⟩⟩
    let direct := (command channel polls der).interpret bare ⟨answers, []⟩
    guarded.1 = direct.1 ∧ guarded.2.card.sent = direct.2.sent

/-! ### One APDU -/

/-- A line on which no stop was asked for, after an APDU with tag `t` was answered. -/
theorem overGuard_ok {l : Line} {apdu : Bytes} {t : Nat} {f : Flags} {g : Guard}
    (h : l.guard.offer l.flags apdu = (.ok t, f, g)) :
    overGuard (.transmit apdu) l =
      ((l.card.transmit apdu).1, ⟨f.answered t, g, (l.card.transmit apdu).2⟩) := by
  simp only [overGuard, h]

/-- GET RESPONSE always passes, and changes nothing the guard knows. -/
theorem offer_getResponse (f : Flags) (g : Guard) (channel sw2 : UInt8)
    (hf : f.cancelled = false) :
    g.offer f (getResponse channel sw2) = (.ok 0, f, g) := by
  have hallows : g.allows (getResponse channel sw2) = (some 0, g) := rfl
  cases f
  simp_all [Guard.offer, Tag.install, Tag.writes]

@[simp] theorem answered_cancelled (t : Nat) (f : Flags) : (f.answered t).cancelled =
    f.cancelled := by
  unfold Flags.answered
  split <;> rfl

/-- Behind the guard, an APDU it passes and the GET RESPONSEs that follow run as on the bare
channel. -/
theorem collect_over_guard (channel : UInt8) (polls : Nat) {apdu : Bytes} (out : Bytes)
    {l : Line} {t : Nat} {f : Flags} {g : Guard} (hf : f.cancelled = false)
    (h : l.guard.offer l.flags apdu = (.ok t, f, g)) :
    (transmitCollect channel polls apdu out).interpret overGuard l =
      (((transmitCollect channel polls apdu out).interpret bare l.card).1,
        ⟨f.answered t, g, ((transmitCollect channel polls apdu out).interpret bare l.card).2⟩) := by
  have hnext : ∀ sw2 : UInt8, g.offer (f.answered t) (getResponse channel sw2) =
      (.ok 0, f.answered t, g) :=
    fun sw2 => offer_getResponse _ _ _ _ (by rw [answered_cancelled, hf])
  induction polls generalizing apdu out l t f with
  | zero =>
    unfold transmitCollect
    simp only [interpret_bind, interpret_lift, overGuard_ok h, bare]
    generalize l.card.transmit apdu = answer
    cases answer.1 with
    | error e => rfl
    | ok rx =>
      dsimp only
      split
      · split
        · simp only [interpret_bind, interpret_lift, bare]
          rw [overGuard_ok (l := ⟨f.answered t, g, answer.2⟩) (hnext _)]
          rfl
        · split <;> rfl
      · rfl
  | succ polls ih =>
    unfold transmitCollect
    simp only [interpret_bind, interpret_lift, overGuard_ok h, bare]
    generalize l.card.transmit apdu = answer
    cases answer.1 with
    | error e => rfl
    | ok rx =>
      dsimp only
      split
      · split
        · -- The same guard, and the flags as they are after the answer.
          exact ih (l := ⟨f.answered t, g, answer.2⟩) (t := 0) (f := f.answered t) _
            (by rw [answered_cancelled, hf]) (hnext _) hnext
        · split <;> rfl
      · rfl

/-! ### The blocks -/

/-- The block number wraps to 0 at every 256th block. -/
theorem ofNat_eq_zero (seq : Nat) : UInt8.ofNat seq = 0 ↔ seq % 256 = 0 := by
  rw [← UInt8.toNat_inj, UInt8.toNat_ofNat']
  rfl

/-- The tag under which the guard passes a STORE DATA block, if it does. -/
def blockTag (g : Guard) (seq : Nat) (block : Bytes) : Option Nat :=
  if seq % 256 = 0 then (leadingTag block).filter (fun t => g.allowed.contains t) else g.continuing

/-- What the guard makes of a STORE DATA block. -/
theorem allows_storeData (g : Guard) (channel : UInt8) (isLast : Bool) (seq : Nat) (block : Bytes) :
    g.allows (storeData channel isLast seq block) = match blockTag g seq block with
      | none => (none, g)
      | some t => (some t, { g with continuing := if isLast then none else some t }) := by
  have hzero := ofNat_eq_zero seq
  cases isLast <;>
    simp only [Guard.allows, storeData, List.cons_append, List.nil_append, List.getElem?_cons_succ,
      List.getElem?_cons_zero, List.drop_succ_cons, List.drop_zero, blockTag, hzero] <;> rfl

/-- A STORE DATA block with a tag passes. -/
theorem offer_storeData {f : Flags} {g : Guard} (hf : f.cancelled = false) (channel : UInt8)
    (isLast : Bool) {seq : Nat} {block : Bytes} {t : Nat} (ht : blockTag g seq block = some t) :
    ∃ f' g', g.offer f (storeData channel isLast seq block) = (.ok t, f', g') ∧
      f'.cancelled = false ∧ g'.allowed = g.allowed ∧
      (isLast = false → g'.continuing = some t) := by
  refine ⟨{ f with
      installing := f.installing || Tag.install.contains t
      writeInFlight := Tag.writes.contains t || f.writeInFlight },
    { g with
      continuing := if isLast then none else some t
      writeSent := g.writeSent || Tag.install.contains t || Tag.writes.contains t },
    ?_, hf, rfl, fun hlast => by simp [hlast]⟩
  unfold Guard.offer
  rw [allows_storeData, ht]
  simp [hf]

/-- A STORE DATA block without one does not. -/
theorem offer_refused (f : Flags) {g : Guard} (channel : UInt8) (isLast : Bool) {seq : Nat}
    {block : Bytes} (ht : blockTag g seq block = none) :
    g.offer f (storeData channel isLast seq block) =
      (.error (.transport "command not allowed for this operation"), f, g) := by
  unfold Guard.offer
  rw [allows_storeData, ht]

/-- Behind a guard that refuses an APDU, nothing is collected for it. -/
theorem collect_refused (channel : UInt8) (polls : Nat) {apdu : Bytes} (out : Bytes) {l : Line}
    {e : Error} {f : Flags} {g : Guard} (h : l.guard.offer l.flags apdu = (.error e, f, g)) :
    ((transmitCollect channel polls apdu out).interpret overGuard l).1 = .error e := by
  unfold transmitCollect
  simp only [interpret_bind, interpret_lift, overGuard, h]
  rfl

/-- The blocks `bs` of a request, from number `seq` on, that the guard takes for a first block begin
with an allowed tag. -/
def BlocksAllowed (allowed : List Nat) (seq : Nat) (bs : List Bytes) : Prop :=
  ∀ i block, bs[i]? = some block → (seq + i) % 256 = 0 →
    (leadingTag block).any (fun t => allowed.contains t) = true

theorem BlocksAllowed.tail {allowed : List Nat} {seq : Nat} {block : Bytes} {rest : List Bytes}
    (h : BlocksAllowed allowed seq (block :: rest)) : BlocksAllowed allowed (seq + 1) rest :=
  fun i b hb hi => h (i + 1) b hb (by rwa [Nat.add_right_comm] at hi)

theorem BlocksAllowed.cons {allowed : List Nat} {seq : Nat} {block : Bytes} {rest : List Bytes}
    (hhead : seq % 256 = 0 → (leadingTag block).any (fun t => allowed.contains t) = true)
    (h : BlocksAllowed allowed (seq + 1) rest) : BlocksAllowed allowed seq (block :: rest) := by
  intro i b hb hi
  cases i with
  | zero => exact Option.some.inj hb ▸ hhead hi
  | succ i => exact h i b hb (by rwa [Nat.add_right_comm])

/-- The guard passes the next block if that begins with an allowed tag where it has to. -/
theorem blockTag_isSome {g : Guard} {seq : Nat} {block : Bytes}
    (hcont : seq % 256 ≠ 0 → g.continuing.isSome = true)
    (hbegin : seq % 256 = 0 → (leadingTag block).any (fun t => g.allowed.contains t) = true) :
    ∃ t, blockTag g seq block = some t := by
  unfold blockTag
  split
  · rename_i hzero
    obtain ⟨t, ht, hallowed⟩ := (Option.any_eq_true _ _).mp (hbegin hzero)
    exact ⟨t, Option.filter_eq_some_iff.mpr ⟨ht, hallowed⟩⟩
  · rename_i hzero
    exact Option.isSome_iff_exists.mp (hcont hzero)

/-- Blocks that the guard passes run as on the bare channel. -/
theorem blocks_over_guard (channel : UInt8) (polls : Nat) {bs : List Bytes} :
    ∀ {seq : Nat} (out : Bytes) {l : Line}, l.flags.cancelled = false →
      (seq % 256 ≠ 0 → bs ≠ [] → l.guard.continuing.isSome = true) →
      BlocksAllowed l.guard.allowed seq bs →
      ((sendBlocks channel polls seq bs out).interpret overGuard l).1 =
          ((sendBlocks channel polls seq bs out).interpret bare l.card).1 ∧
        ((sendBlocks channel polls seq bs out).interpret overGuard l).2.card =
          ((sendBlocks channel polls seq bs out).interpret bare l.card).2 := by
  induction bs with
  | nil => exact fun _ _ _ _ _ => ⟨rfl, rfl⟩
  | cons block rest ih =>
    intro seq out l hf hcont hallowed
    obtain ⟨t, ht⟩ := blockTag_isSome (fun hne => hcont hne (List.cons_ne_nil _ _))
      (hallowed 0 block rfl)
    obtain ⟨f, g, hoffer, hf', hsame, hnext⟩ :=
      offer_storeData hf channel rest.isEmpty ht
    unfold sendBlocks
    simp only [interpret_bind, collect_over_guard channel polls out hf' hoffer]
    generalize (transmitCollect channel polls _ out).interpret bare l.card = collected
    rcases collected with ⟨result, card⟩
    cases result with
    | error e => exact ⟨rfl, rfl⟩
    | ok out' =>
      refine ih out' (l := ⟨f.answered t, g, card⟩) (by rw [answered_cancelled, hf']) ?_
        (hsame ▸ hallowed.tail)
      intro _ hne
      rw [hnext (by simpa using hne)]
      rfl

/-- A command that comes through the guard had only blocks that the guard may pass. -/
theorem blocks_admitted (channel : UInt8) (polls : Nat) {bs : List Bytes} :
    ∀ {seq : Nat} {out answer : Bytes} {l : Line}, l.flags.cancelled = false →
      ((sendBlocks channel polls seq bs out).interpret overGuard l).1 = .ok answer →
      BlocksAllowed l.guard.allowed seq bs := by
  induction bs with
  | nil => exact fun _ _ i block hb => by simp at hb
  | cons block rest ih =>
    intro seq out answer l hf hok
    unfold sendBlocks at hok
    rw [interpret_bind] at hok
    cases ht : blockTag l.guard seq block with
    | none =>
      rw [collect_refused channel polls out (offer_refused l.flags channel rest.isEmpty ht)] at hok
      cases hok
    | some t =>
      obtain ⟨f, g, hoffer, hf', hsame, -⟩ := offer_storeData hf channel rest.isEmpty ht
      rw [collect_over_guard channel polls out hf' hoffer] at hok
      generalize (transmitCollect channel polls _ out).interpret bare l.card = collected at hok
      rcases collected with ⟨result, card⟩
      cases result with
      | error e => cases hok
      | ok out' =>
        have hrest := ih (l := ⟨f.answered t, g, card⟩) (by rw [answered_cancelled, hf']) hok
        refine .cons (fun hzero => ?_) (hsame ▸ hrest)
        unfold blockTag at ht
        rw [if_pos hzero] at ht
        obtain ⟨htag, hin⟩ := Option.filter_eq_some_iff.mp ht
        exact (Option.any_eq_true _ _).mpr ⟨t, htag, hin⟩

/-! ### The command -/

/-- Only the first bytes of a block matter for its tag. -/
theorem leadingTag_take (l : Bytes) : leadingTag (l.take mss) = leadingTag l := by
  rcases l with - | ⟨first, - | ⟨second, rest⟩⟩ <;> rfl

/-- A tag of two bytes, as `leading_tag` reads it. -/
theorem leadingTag_encodeElement {tag : Nat} (value : Bytes) (h : tag < 0x10000)
    (hfirst : UInt8.ofNat (tag / 256) &&& 0x1F = 0x1F) :
    leadingTag (encodeElement tag value) = some tag := by
  have hne : tag / 256 ≠ 0 := by
    intro h0
    rw [h0] at hfirst
    exact absurd hfirst (by decide)
  have hbytes : encodeElement tag value =
      UInt8.ofNat (tag / 256) :: UInt8.ofNat tag :: (encodeElement tag value).drop 2 := by
    rw [encodeElement, if_pos hne]
    rfl
  rw [hbytes, leadingTag, if_pos hfirst]
  simp only [List.head?_cons, Option.map_some, UInt8.toNat_ofNat']
  congr 1
  omega

/-- What the guard asks of the blocks of a whole request. -/
theorem blocksAllowed_blocks {allowed : List Nat} {der : Bytes}
    (hfirst : (leadingTag der).any (fun t => allowed.contains t) = true) :
    BlocksAllowed allowed 0 (blocks der) ↔ WrapsAllowed allowed der := by
  constructor
  · intro h k _ hlt
    have hblock := blocks_getElem? der (256 * k)
    rw [if_pos hlt] at hblock
    simpa [leadingTag_take] using h _ _ hblock (by omega)
  · intro h i block hblock hzero
    rw [blocks_getElem?] at hblock
    split at hblock
    · rename_i hlt
      rw [← Option.some.inj hblock, leadingTag_take]
      obtain ⟨k, rfl⟩ : ∃ k, i = 256 * k := ⟨i / 256, by omega⟩
      rcases Nat.eq_zero_or_pos k with rfl | hk
      · simpa using hfirst
      · exact h k hk hlt
    · cases hblock

/-- A card that takes every block and answers each with `9000`. -/
theorem blocks_bare_ok (channel : UInt8) (polls : Nat) {bs : List Bytes} :
    ∀ (seq : Nat) (out : Bytes) (sent : List Bytes),
      ((sendBlocks channel polls seq bs out).interpret bare
        ⟨List.replicate bs.length (.ok [0x90, 0x00]), sent⟩).1 = .ok out := by
  induction bs with
  | nil => exact fun _ _ _ => rfl
  | cons block rest ih =>
    intro seq out sent
    unfold sendBlocks
    rw [interpret_bind]
    have hcollect : (transmitCollect channel polls (storeData channel rest.isEmpty seq block)
        out).interpret bare ⟨List.replicate (rest.length + 1) (.ok [0x90, 0x00]), sent⟩ =
        (.ok out, ⟨List.replicate rest.length (.ok [0x90, 0x00]),
          sent ++ [storeData channel rest.isEmpty seq block]⟩) := by
      unfold transmitCollect
      simp only [interpret_bind, interpret_lift, bare, Script.transmit, List.replicate_succ,
        List.head?_cons, List.tail_cons, Option.getD_some, List.reverse_cons, List.reverse_nil,
        List.nil_append, List.cons_append, List.append_nil]
      rfl
    rw [List.length_cons, hcollect]
    exact ih _ _ _

/-- **What the guard does to an allowed command.** A request whose leading tag is allowed runs
behind the guard as on the bare channel, for every card, exactly when block 256, block 512 and so on
begin with an allowed tag as well. -/
theorem guard_transparent (channel : UInt8) (flags : Flags) (guard : Guard) (der : Bytes)
    (hrun : flags.cancelled = false)
    (hfirst : (leadingTag der).any (fun t => guard.allowed.contains t) = true) :
    Transparent channel flags guard der ↔ WrapsAllowed guard.allowed der := by
  rw [← blocksAllowed_blocks hfirst]
  constructor
  · intro h
    obtain ⟨hsame, -⟩ := h 0 (List.replicate (blocks der).length (.ok [0x90, 0x00]))
    exact blocks_admitted channel 0 (l := ⟨flags, guard, _, _⟩) hrun
      (hsame.trans (blocks_bare_ok channel 0 0 [] []))
  · intro h polls answers
    have hlock := blocks_over_guard channel polls [] (l := ⟨flags, guard, ⟨answers, []⟩⟩) hrun
      (fun hne => absurd (Nat.zero_mod 256) hne) h
    exact ⟨hlock.1, congrArg Script.sent hlock.2⟩

/-- A GetEuiccInfo request of one block. -/
theorem guard_transparent_sample :
    Transparent 1 {} { allowed := [0xBF20] } [0xBF, 0x20, 0x00] ↔
      WrapsAllowed [0xBF20] [0xBF, 0x20, 0x00] :=
  guard_transparent 1 {} { allowed := [0xBF20] } [0xBF, 0x20, 0x00] rfl (by decide)

/-- An element of a bound profile package that fills 257 blocks, with a zero at the start of the
last one. -/
def longSegment : Bytes := 0x86 :: List.replicate 30720 0

/-- The bare channel sends all of it; the guard keeps the last block from the card. -/
theorem long_segment_cut :
    (leadingTag longSegment).any (fun t => [0x86].contains t) = true ∧
      ¬ Transparent 1 {} { allowed := [0x86] } longSegment := by
  have hfirst : (leadingTag longSegment).any (fun t => [0x86].contains t) = true := by decide
  refine ⟨hfirst, fun h => ?_⟩
  obtain ⟨hsame, -⟩ := h 0 (List.replicate (blocks longSegment).length (.ok [0x90, 0x00]))
  have hok := blocks_admitted 1 0 (l := ⟨{}, { allowed := [0x86] }, _, _⟩) rfl
    (hsame.trans (blocks_bare_ok 1 0 0 [] []))
  have hwraps := (blocksAllowed_blocks hfirst).mp hok 1 (by decide)
    (by rw [longSegment, List.length_cons, List.length_replicate]; decide)
  rw [show mss * (256 * 1) = 30719 + 1 from rfl, longSegment, List.drop_succ_cons,
    List.drop_replicate] at hwraps
  revert hwraps
  decide

end OpenUI.Helper
