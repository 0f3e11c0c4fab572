import Mathlib.Data.List.Basic
import Mathlib.Data.List.Induction
import OpenUI.Concurrency.Interrupted
import OpenUI.Euicc.Command

/-!
# `OpenUI.Proofs.Euicc.Command`: a request goes out whole

`Euicc::command` cuts a request into STORE DATA blocks and collects what the card answers.
`commandOn` is one run of it against a list of answers, with a record of every APDU and its answer.
`command_chained` says what such a run sends and returns, whatever the card answers.

* `Expected`: between two blocks, everything so far went well.
* `upholds_collect`, `upholds_blocks`: the two loops, one turn at a time.
-/

set_option autoImplicit false

namespace OpenUI.Euicc

open OpenUI.Concurrency OpenUI.Concurrency.Program

/-! ### A run and its record -/

/-- An APDU that went to the card, and the card's answer. -/
structure Exchanged where
  apdu : Bytes
  answer : Except Error Bytes

/-- The card answers an APDU. The record is in the order of sending. -/
def answerApdu : Effects Exchange (Except Error Bytes) (List Exchanged)
  | _, .transmit apdu, answer, sent => some (answer, sent ++ [⟨apdu, answer⟩])

/-- `command` against a card that gives these answers, one for each APDU. The run is cut off (no
result) when they end too early. A loop turns once for an answer, so it never reaches its bound. -/
def commandOn (channel : UInt8) (der : Bytes) (answers : List (Except Error Bytes)) :
    Option (Option (Except Error Bytes) × List Exchanged) :=
  (command channel (answers.length + 1) der).play answerApdu answers []

/-- What an answer says. -/
inductive Verdict where
  /-- More data waits. -/
  | more
  | success
  | failure (e : Error)
  deriving DecidableEq

/-- The status word at the end of a response. -/
def statusVerdict (sw1 sw2 : UInt8) : Verdict :=
  if sw1 = 0x61 then .more
  else if sw1 &&& 0xF0 = 0x90 then .success
  else .failure (.status sw1 sw2)

/-- What an answer says, and the data in front of its status word. -/
def Exchanged.verdict (x : Exchanged) : Verdict :=
  match x.answer with
  | .error e => .failure e
  | .ok rx => match rx.reverse with
    | sw2 :: sw1 :: _ => statusVerdict sw1 sw2
    | _ => .failure (.malformed "response shorter than a status word")

/-- The response data of an answer. -/
def Exchanged.data (x : Exchanged) : Bytes :=
  match x.answer with
  | .error _ => []
  | .ok rx => (rx.reverse.drop 2).reverse

/-- The APDU is a STORE DATA. -/
def isStore (apdu : Bytes) : Bool := apdu[1]? == some 0xE2

/-- The STORE DATA APDUs of a run, in the order of sending. -/
def stored (sent : List Exchanged) : List Bytes := (sent.map (·.apdu)).filter isStore

/-- Block number `i` of the request `der`, as it goes out. -/
structure IsBlock (der : Bytes) (i : Nat) (apdu : Bytes) : Prop where
  /-- The data field, and its length. -/
  data : apdu.drop 5 = (der.drop (mss * i)).take mss
  length : apdu[4]? = some (UInt8.ofNat (apdu.drop 5).length)
  short : (apdu.drop 5).length ≤ 120
  /-- P1 says whether the block is the last one. -/
  last : apdu[2]? = some (if der.length ≤ mss * (i + 1) then 0x91 else 0x11)
  /-- P2 is the block number. -/
  number : ∃ p2, apdu[3]? = some p2 ∧ p2.toNat = i % 256

/-! ### Blocks -/

/-- Block number `i` of a request. -/
theorem blocks_getElem? (der : Bytes) (i : Nat) :
    (blocks der)[i]? = if mss * i < der.length then some
      ((der.drop (mss * i)).take mss) else none := by
  -- The number of blocks is rounded up: there is a block wherever a byte is left for it.
  have hlt : i < (der.length + mss - 1) / mss ↔ mss * i < der.length := by
    simp only [mss]
    omega
  unfold blocks
  rw [List.getElem?_map]
  split
  · rename_i h
    rw [List.getElem?_range (hlt.mpr h)]
    rfl
  · rename_i h
    rw [List.getElem?_eq_none (by simpa using fun h' => h (hlt.mp h'))]
    rfl

/-- A block is the last one when the request ends in it. -/
theorem blocks_length_le (der : Bytes) (i : Nat) :
    (blocks der).length ≤ i ↔ der.length ≤ mss * i := by
  rw [← List.getElem?_eq_none_iff, blocks_getElem?]
  split <;> simp_all

/-- The blocks from number `i` on. -/
theorem blocks_drop {der : Bytes} {i : Nat} {block : Bytes} {rest : List Bytes}
    (h : (blocks der).drop i = block :: rest) :
    block = (der.drop (mss * i)).take mss ∧ rest = (blocks der).drop (i + 1) ∧
      rest.isEmpty = decide (der.length ≤ mss * (i + 1)) := by
  have hrest : rest = (blocks der).drop (i + 1) := by
    rw [← List.tail_drop, h, List.tail_cons]
  have hblock : (blocks der)[i]? = some block := by
    rw [← List.head?_drop, h, List.head?_cons]
  rw [blocks_getElem?] at hblock
  split at hblock
  · refine ⟨(Option.some.inj hblock).symm, hrest, ?_⟩
    rw [hrest, Bool.eq_iff_iff, List.isEmpty_iff, List.drop_eq_nil_iff, blocks_length_le,
      decide_eq_true_eq]
  · cases hblock

/-- A STORE DATA of the run is one of the blocks. -/
theorem isBlock_storeData (channel : UInt8) (der : Bytes) (i : Nat) :
    IsBlock der i (storeData channel (decide (der.length ≤ mss * (i + 1))) i
      ((der.drop (mss * i)).take mss)) where
  data := rfl
  length := rfl
  short := by
    show ((der.drop (mss * i)).take mss).length ≤ 120
    rw [List.length_take]
    exact Nat.min_le_left _ _
  last := by simp [storeData]
  number := ⟨_, rfl, by rw [UInt8.toNat_ofNat']⟩

/-- The first `k` blocks are concatenated to the first `mss * k` bytes. -/
theorem flatMap_blocks (der : Bytes) (apdus : List Bytes)
    (h : ∀ i apdu, apdus[i]? = some apdu → IsBlock der i apdu) :
    apdus.flatMap (·.drop 5) = der.take (mss * apdus.length) := by
  induction apdus using List.reverseRecOn with
  | nil => simp
  | append_singleton front apdu ih =>
    -- Induction from the end, as a block is where it is by how many stand before it.
    have hfront : ∀ i a, front[i]? = some a → IsBlock der i a := fun i a hi =>
      h i a (by rw [List.getElem?_append_left (List.getElem?_eq_some_iff.mp hi).1, hi])
    have hlast : IsBlock der front.length apdu := h _ _ (by simp)
    rw [List.flatMap_append, ih hfront, List.flatMap_singleton, hlast.data, List.length_append,
      List.length_singleton, Nat.mul_add, Nat.mul_one, List.take_add]

/-! ### What holds during a run -/

/-- The STORE DATA APDUs so far are the first `k` blocks. -/
def Numbered (der : Bytes) (k : Nat) (sent : List Exchanged) : Prop :=
  (stored sent).length = k ∧ ∀ i apdu, (stored sent)[i]? = some apdu → IsBlock der i apdu

/-- No answer so far was a failure. -/
def Well (sent : List Exchanged) : Prop := ∀ x ∈ sent, ∀ e, x.verdict ≠ .failure e

/-- At every point: only blocks went out, in order, and nothing followed a failure. -/
def Sound (der : Bytes) (sent : List Exchanged) : Prop :=
  (∃ k ≤ (blocks der).length, Numbered der k sent) ∧
    ∀ before x after e, sent = before ++ x :: after → x.verdict = .failure e → after = []

/-- Between two blocks: `k` of them went out and were answered, and `out` is all the data. -/
structure Expected (der : Bytes) (k : Nat) (out : Bytes) (sent : List Exchanged) : Prop where
  numbered : Numbered der k sent
  within : k ≤ (blocks der).length
  well : Well sent
  out : out = sent.flatMap (·.data)

/-- The run ended in the failure `e`: it was the last answer, and the only one. -/
def Failed (der : Bytes) (e : Error) (sent : List Exchanged) : Prop :=
  Sound der sent ∧ ∃ before x, sent = before ++ [x] ∧ Well before ∧ x.verdict = .failure e

/-- How a part of the run ends: with `k` blocks answered, or in a failure. -/
def Ended (der : Bytes) (k : Nat) : Except Error Bytes → List Exchanged → Prop
  | .ok out, sent => Expected der k out sent
  | .error e, sent => Failed der e sent

theorem Well.append {sent : List Exchanged} (h : Well sent) {x : Exchanged}
    (hx : ∀ e, x.verdict ≠ .failure e) : Well (sent ++ [x]) := by
  intro y hy
  rcases List.mem_append.mp hy with hy | hy
  · exact h y hy
  · rw [List.mem_singleton.mp hy]
    exact hx

/-- While nothing failed, a failure can only be the latest answer. -/
theorem Well.sound {der : Bytes} {sent : List Exchanged} (h : Well sent) {x : Exchanged} {k : Nat}
    (hk : k ≤ (blocks der).length) (hblocks : Numbered der k (sent ++ [x])) :
    Sound der (sent ++ [x]) := by
  refine ⟨⟨k, hk, hblocks⟩, fun before y after e heq hy => ?_⟩
  rcases List.eq_nil_or_concat' after with rfl | ⟨front, z, rfl⟩
  · rfl
  · -- Then `y` is one of the earlier ones.
    rw [← List.cons_append, ← List.append_assoc] at heq
    have hinit := List.append_inj_left' heq rfl
    exact absurd hy (h y (by simp [hinit]) e)

theorem Expected.sound {der : Bytes} {k : Nat} {out : Bytes} {sent : List Exchanged}
    (h : Expected der k out sent) : Sound der sent :=
  ⟨⟨k, h.within, h.numbered⟩, fun before x after e heq hx =>
    absurd hx (h.well x (by simp [heq]) e)⟩

/-! ### The loops -/

section Loops

variable (channel : UInt8) (der : Bytes) (N : Nat)

/-- What a part of the command does when at most `N` answers come. -/
abbrev Chains {α : Type} (p : Program Exchange α) (sent : List Exchanged)
    (Q : α → List Exchanged → Prop) : Prop :=
  p.Upholds (Program.within (fun sent => sent.length ≤ N) answerApdu) (fun _ => true) (Sound der)
    Q sent

variable {channel der N} {k : Nat} {out : Bytes} {sent : List Exchanged}

/-- The record after one more APDU. -/
theorem answerApdu_eq {apdu : Bytes} {answer r : Except Error Bytes} {sent' : List Exchanged}
    (h : answerApdu (.transmit apdu) answer sent = some (r, sent')) :
    r = answer ∧ sent' = sent ++ [⟨apdu, answer⟩] := by
  cases h
  exact ⟨rfl, rfl⟩

/-- An APDU that is answered by a failure ends the command. -/
theorem failed_append {x : Exchanged} {e : Error} (hwell : Well sent)
    (hk : k ≤ (blocks der).length) (hnumbered : Numbered der k (sent ++ [x]))
    (hx : x.verdict = .failure e) : Failed der e (sent ++ [x]) :=
  ⟨hwell.sound hk hnumbered, sent, x, rfl, hwell, hx⟩

/-- An APDU that is answered well adds its data. -/
theorem expected_append {x : Exchanged} (hwell : Well sent) (hout : out = sent.flatMap (·.data))
    (hk : k ≤ (blocks der).length) (hnumbered : Numbered der k (sent ++ [x]))
    (hx : ∀ e, x.verdict ≠ .failure e) : Expected der k (out ++ x.data) (sent ++ [x]) where
  numbered := hnumbered
  within := hk
  well := hwell.append hx
  out := by rw [hout, List.flatMap_append, List.flatMap_singleton]

/-- GET RESPONSE is no STORE DATA. -/
theorem numbered_getResponse {sw2 : UInt8} {answer : Except Error Bytes}
    (h : Numbered der k sent) : Numbered der k (sent ++ [⟨getResponse channel sw2, answer⟩]) := by
  have hsame : stored (sent ++ [⟨getResponse channel sw2, answer⟩]) = stored sent := by
    simp [stored, isStore, getResponse]
  rw [Numbered, hsame]
  exact h

/-- `transmit_collect`: an APDU and the GET RESPONSEs that follow. `polls` more of them are fewer
than the answers that may still come. -/
theorem upholds_collect (hk : k ≤ (blocks der).length) {polls : Nat} {apdu : Bytes}
    (hpolls : N ≤ sent.length + polls) (hsound : Sound der sent) (hwell : Well sent)
    (hout : out = sent.flatMap (·.data))
    (hapdu : ∀ answer, Numbered der k (sent ++ [⟨apdu, answer⟩])) :
    Chains der N (transmitCollect channel polls apdu out) sent (Ended der k) := by
  induction polls generalizing apdu out sent with
  | zero =>
    unfold transmitCollect
    refine .act hsound fun answer r sent' _ he => ?_
    obtain ⟨he, hwithin⟩ := within_eq_some.mp he
    -- There is no answer left for a command that still asks for more.
    obtain ⟨-, rfl⟩ := answerApdu_eq he
    rw [List.length_append, List.length_singleton] at hwithin
    omega
  | succ polls ih =>
    unfold transmitCollect
    refine .act hsound fun answer r sent' _ he => ?_
    obtain ⟨rfl, rfl⟩ := answerApdu_eq (within_eq_some.mp he).1
    have hnumbered := hapdu r
    have hsound' := hwell.sound hk hnumbered
    -- The reader failed, the answer has a status word, or it is too short for one.
    cases r with
    | error e => exact .pure hsound' (failed_append hwell hk hnumbered rfl)
    | ok rx =>
      dsimp only
      split
      · rename_i sw2 sw1 data hrx
        have hverdict : (⟨apdu, .ok rx⟩ : Exchanged).verdict = statusVerdict sw1 sw2 := by
          simp only [Exchanged.verdict, hrx]
        have hdata : (⟨apdu, .ok rx⟩ : Exchanged).data = data.reverse := by
          simp only [Exchanged.data, hrx, List.drop_succ_cons, List.drop_zero]
        have hexpected : (∀ e, statusVerdict sw1 sw2 ≠ .failure e) →
            Expected der k (out ++ data.reverse) (sent ++ [⟨apdu, .ok rx⟩]) := fun hx =>
          hdata ▸ expected_append hwell hout hk hnumbered (hverdict ▸ hx)
        split
        · -- `61xx`: more data waits.
          rename_i hmore
          have hnext := hexpected (by simp [statusVerdict, hmore])
          refine ih ?_ hsound' hnext.well hnext.out fun _ => numbered_getResponse hnumbered
          rw [List.length_append, List.length_singleton]
          omega
        · rename_i hmore
          split
          · rename_i hsuccess
            exact .pure hsound' (hexpected (by simp [statusVerdict, hmore, hsuccess]))
          · rename_i hsuccess
            refine .pure hsound' (failed_append hwell hk hnumbered ?_)
            rw [hverdict, statusVerdict, if_neg hmore, if_neg hsuccess]
      · rename_i hrx
        refine .pure hsound' (failed_append hwell hk hnumbered ?_)
        simp only [Exchanged.verdict]

/-- The next block is numbered next. -/
theorem Expected.next {block : Bytes} {rest : List Bytes} (h : Expected der k out sent)
    (hdrop : (blocks der).drop k = block :: rest) (answer : Except Error Bytes) :
    Numbered der (k + 1) (sent ++ [⟨storeData channel rest.isEmpty k block, answer⟩]) := by
  obtain ⟨rfl, -, hlast⟩ := blocks_drop hdrop
  obtain ⟨hlength, hblocks⟩ := h.numbered
  have hstored : stored (sent ++ [⟨storeData channel rest.isEmpty k
      ((der.drop (mss * k)).take mss), answer⟩]) = stored sent ++
        [storeData channel rest.isEmpty k ((der.drop (mss * k)).take mss)] := by
    simp [stored, isStore, storeData]
  rw [Numbered, hstored]
  refine ⟨by rw [List.length_append, hlength, List.length_singleton], fun i apdu hi => ?_⟩
  -- Block number `i` is one of the earlier ones, or the one that went out now.
  by_cases hik : i < (stored sent).length
  · rw [List.getElem?_append_left hik] at hi
    exact hblocks i apdu hi
  · have hle : i < (stored sent).length + 1 := by
      have hlt := (List.getElem?_eq_some_iff.mp hi).1
      rwa [List.length_append, List.length_singleton] at hlt
    obtain rfl : i = k := by omega
    rw [List.getElem?_append_right (by omega), hlength, Nat.sub_self] at hi
    rw [← Option.some.inj hi, hlast]
    exact isBlock_storeData channel der i

/-- `command`, from block number `k` on. -/
theorem upholds_blocks {bs : List Bytes} (hbs : (blocks der).drop k = bs)
    (h : Expected der k out sent) :
    Chains der N (sendBlocks channel N k bs out) sent (Ended der (blocks der).length) := by
  induction bs generalizing k out sent with
  | nil =>
    unfold sendBlocks
    -- No block is left, so all of them went out.
    obtain rfl : k = (blocks der).length := by
      have hle := List.drop_eq_nil_iff.mp hbs
      have := h.within
      omega
    exact .pure h.sound h
  | cons block rest ih =>
    unfold sendBlocks
    have hk : k + 1 ≤ (blocks der).length := by
      have hlength := congrArg List.length hbs
      rw [List.length_drop, List.length_cons] at hlength
      omega
    refine (upholds_collect hk (Nat.le_add_left _ _) h.sound h.well h.out
      (h.next hbs)).bind fun result sent' _ hresult => ?_
    cases result with
    | error e => exact .pure hresult.1 hresult
    | ok out' => exact ih (blocks_drop hbs).2.1.symm hresult

/-- Each answer is one more entry. -/
theorem length_answerApdu {β : Type} (a : Exchange β) (e : Except Error Bytes) (s : List Exchanged)
    (r : β) (s' : List Exchanged) (h : answerApdu a e s = some (r, s')) :
    s'.length = s.length + 1 := by
  cases a
  rw [(answerApdu_eq h).2, List.length_append, List.length_singleton]

/-- No more APDUs go out than there are answers. -/
theorem length_play {α : Type} {p : Program Exchange α} {es : List (Except Error Bytes)}
    {s s' : List Exchanged} {r : Option α} (h : p.play answerApdu es s = some (r, s')) :
    s'.length ≤ s.length + es.length := by
  induction p generalizing es s with
  | pure a =>
    cases h
    exact Nat.le_add_right _ _
  | act a k ih =>
    cases es with
    | nil =>
      cases h
      exact Nat.le_refl _
    | cons e es =>
      -- The action uses up one answer and writes one entry.
      rw [Program.play] at h
      split at h
      · cases h
      · rename_i r₁ s₁ he
        have hlater := ih r₁ h
        rw [length_answerApdu a e s r₁ s₁ he] at hlater
        rw [List.length_cons]
        omega

/-- A run with at most as many answers as the loops may turn. -/
theorem command_run {answers : List (Except Error Bytes)} {result : Option (Except Error Bytes)}
    (hN : answers.length ≤ N)
    (h : (command channel N der).play answerApdu answers [] = some (result, sent)) :
    Sound der sent ∧ ∀ r, result = some r → Ended der (blocks der).length r sent := by
  have hshort : sent.length ≤ N := by
    have := length_play h
    rw [List.length_nil] at this
    omega
  have hstart : Expected der 0 [] [] :=
    ⟨⟨rfl, fun _ _ hi => by cases hi⟩, Nat.zero_le _, fun _ hx => (by cases hx), rfl⟩
  -- The record only grows, so a run that stays within `N` was within it all along.
  have hback : ∀ {β : Type} (a : Exchange β) (e : Except Error Bytes) (s : List Exchanged) (r : β)
      (s' : List Exchanged), answerApdu a e s = some (r, s') → s'.length ≤ N → s.length ≤ N := by
    intro β a e s r s' he hs
    rw [length_answerApdu a e s r s' he] at hs
    exact Nat.le_of_succ_le hs
  have hwithin := play_within (J := fun s => s.length ≤ N) (I := fun _ => True) hback
    (fun _ _ _ _ _ _ _ _ => trivial) h hshort trivial
  have hruns : Chains der N (sendBlocks channel N 0 (blocks der) []) []
    (Ended der (blocks der).length) :=
    upholds_blocks List.drop_zero hstart
  simp only [and_true] at hwithin
  exact hruns.play (fun _ _ => rfl) hwithin

end Loops

/-! ### Every run -/

/-- What a run of `command` sends, and what comes of it. -/
structure Chained (der : Bytes) (result : Option (Except Error Bytes)) (sent : List Exchanged) :
    Prop where
  /-- The data fields that went out are the request, up to the end of a block. -/
  data : (stored sent).flatMap (·.drop 5) = der.take (mss * (stored sent).length)
  /-- Each APDU is its block. -/
  blocks : ∀ i apdu, (stored sent)[i]? = some apdu → IsBlock der i apdu
  /-- A run that ends well sent all of the request and returns all of the data. -/
  whole : ∀ out, result = some (.ok out) →
    (stored sent).flatMap (·.drop 5) = der ∧ out = sent.flatMap (·.data)
  /-- An error is what an answer said, and there is no other error. -/
  failed : ∀ e, result = some (.error e) → ∃ x ∈ sent, x.verdict = .failure e
  /-- Nothing follows the first failure, and it is the error returned. -/
  stops : ∀ before x after e, sent = before ++ x :: after → x.verdict = .failure e →
    after = [] ∧ result = some (.error e)

/-- **Chaining is faithful**, whatever the card answers. -/
theorem command_chained {channel : UInt8} {der : Bytes} {answers : List (Except Error Bytes)}
    {result : Option (Except Error Bytes)} {sent : List Exchanged}
    (h : commandOn channel der answers = some (result, sent)) : Chained der result sent := by
  obtain ⟨hsound, hended⟩ := command_run (Nat.le_succ _) h
  obtain ⟨⟨k, hk, hnumbered⟩, hlast⟩ := id hsound
  refine ⟨flatMap_blocks der _ hnumbered.2, hnumbered.2, fun out hout => ?_, fun e he => ?_,
    fun before x after e hsent hx => ?_⟩
  · have hexpected : Expected der _ out sent := hended _ hout
    -- All blocks went out: their end is the end of the request.
    refine ⟨?_, hexpected.out⟩
    rw [flatMap_blocks der _ hexpected.numbered.2, hexpected.numbered.1]
    exact List.take_of_length_le ((blocks_length_le der _).mp (Nat.le_refl _))
  · obtain ⟨-, before, x, rfl, -, hx⟩ := hended _ he
    exact ⟨x, by simp, hx⟩
  · -- What follows a failure is empty; what the run ends with then depends on how it ended.
    obtain rfl := hlast before x after e hsent hx
    refine ⟨rfl, ?_⟩
    have hmem : x ∈ sent := by simp [hsent]
    rcases result with - | (e' | out)
    · -- One more answer would come after the failure.
      obtain ⟨β, a, hnext⟩ := play_cut h
      obtain ⟨r, y, hy⟩ : ∃ r y, answerApdu a (.ok []) sent = some (r, sent ++ [y]) := by
        cases a with
        | transmit apdu => exact ⟨_, ⟨apdu, .ok []⟩, rfl⟩
      obtain ⟨r', hr'⟩ := hnext _ _ _ hy
      have hsound' := (command_run (by simp) hr').1
      have hnil := hsound'.2 before x [y] e (by rw [hsent, List.append_assoc]; rfl) hx
      cases hnil
    · obtain ⟨-, front, y, rfl, -, hy⟩ := hended _ rfl
      obtain ⟨-, hxy⟩ := List.append_inj' hsent rfl
      rw [List.cons.injEq] at hxy
      rw [hxy.1, hx, Verdict.failure.injEq] at hy
      rw [hy]
    · exact absurd hx ((hended _ rfl).well x hmem e)

/-- A request of two blocks, whose answer comes in two parts. -/
theorem command_chained_sample :
    ∃ sent, commandOn 1 (List.replicate 121 7)
        [.ok [0x90, 0x00], .ok [1, 2, 0x61, 0x01], .ok [3, 0x90, 0x00]] =
        some (some (.ok [1, 2, 3]), sent) ∧
      Chained (List.replicate 121 7) (some (.ok [1, 2, 3])) sent := by
  have hrun : ((commandOn 1 (List.replicate 121 7)
      [.ok [0x90, 0x00], .ok [1, 2, 0x61, 0x01], .ok [3, 0x90, 0x00]]).map Prod.fst) =
        some (some (.ok [1, 2, 3])) := by decide +kernel
  obtain ⟨⟨result, sent⟩, hsent, rfl⟩ := Option.map_eq_some_iff.mp hrun
  exact ⟨sent, hsent, command_chained hsent⟩

end OpenUI.Euicc
