import OpenUI.Helper.Uim

/-!
# `OpenUI.Proofs.Helper.Channels`: every logical channel is accounted for

Whatever the modem answers, and whenever a stop arrives: the channels that the modem opened for the
run and did not confirm to have closed are the one the client holds, unless a leak is noted or the
card resets (`Owns`). An answer is taken only for the request it belongs to, since a socket's
requests have different transaction ids as long as there are fewer than 65535.

* `upholds_requestUntil`: one request, with what it does to the books.
* `upholds_openChannel`, `upholds_closeChannel`, …: one rule for each function.
* `channels_accounted`: every run of every operation.
-/

set_option autoImplicit false

namespace OpenUI.Helper.Uim

open OpenUI.Concurrency OpenUI.Concurrency.Program OpenUI.Euicc OpenUI.Json OpenUI.Text

-- The equations are stated here once, before the proofs that rewrite with them.
section
attribute [local simp] Run.exec UimClient.heard UimClient.outcome useCard
end

/-! ### What holds -/

/-- The requests on a socket are numbered from 1. -/
def Numbered (sent : List (UInt16 × UInt16)) : Prop := ∀ i p, sent[i]? = some p → p.1.toNat = i + 1

/-- A leak is noted, or the card resets. -/
def Run.Excused (r : Run) : Prop := r.channelLeak = true ∨ r.cardReset = true

/-- What holds at every point of a run. -/
structure Run.Sound (r : Run) : Prop where
  heard : r.misread = false
  held : r.held.length ≤ 1
  unclosed : r.unclosed.length ≤ 1 ∨ r.Excused

/-- The client's socket agrees with the books. -/
structure Speaks (c : UimClient) (r : Run) : Prop where
  txn : c.txn.toNat = r.sent.length
  numbered : Numbered r.sent
  requests : r.sent.length ≤ r.requests
  heard : r.misread = false

/-- The run holds the channel of its client, and no other is open. -/
structure Owns (c : UimClient) (r : Run) : Prop where
  speaks : Speaks c r
  held : r.held = c.channel.toList
  unclosed : r.unclosed = c.channel.toList ∨ r.Excused

/-- The run holds no channel, and none is open. -/
structure Run.Idle (r : Run) : Prop where
  heard : r.misread = false
  held : r.held = []
  unclosed : r.unclosed = [] ∨ r.Excused

theorem Owns.sound {c : UimClient} {r : Run} (h : Owns c r) : r.Sound := by
  refine ⟨h.speaks.heard, h.held ▸ by cases c.channel <;> simp, h.unclosed.imp_left fun hu => ?_⟩
  rw [hu]
  cases c.channel <;> simp

theorem Run.Idle.sound {r : Run} (h : r.Idle) : r.Sound := by
  refine ⟨h.heard, by simp [h.held], h.unclosed.imp_left fun hu => ?_⟩
  simp [hu]

/-- The modem names the channel it opened: the answer to an open request, if it comes in time, is no
success without a channel number. -/
def Answer.numbered (e : Answer) : Bool :=
  e.answer.all fun d => (decode d.data).all fun m =>
    m.msgId != uimOpenLogicalChannel || !(checkResult m.tlvs).isOk || (channelNumber m.tlvs).isSome

/-! ### Errors -/

/-- A text whose beginning is long enough decides it. -/
theorem isQmiError_append {a : String} (b : String) (h : isQmiError a = false)
    (hlen : "QMI error".toList.length ≤ a.toList.length) : isQmiError (a ++ b) = false := by
  refine decide_eq_false fun hprefix => of_decide_eq_false h ?_
  rw [String.toList_append] at hprefix
  exact List.prefix_of_prefix_length_le hprefix (List.prefix_append _ _) hlen

/-- The end of a wait is no answer of the modem. -/
theorem isQmiError_quiet (q : Quiet) : isQmiError q.text = false := by
  cases q with
  | timeout => decide
  | cancelled => decide
  | poll error => exact isQmiError_append error (by decide) (by decide)
  | receive error => exact isQmiError_append error (by decide) (by decide)

/-- A QMI error comes from the Result TLV. -/
theorem refused_of_checkResult {tlvs : Tlvs} {e : String} (h : checkResult tlvs = .error e)
    (he : isQmiError e = true) : refused tlvs = true := by
  unfold checkResult at h
  split at h
  · cases h
    exact absurd he (by decide)
  · rename_i s₀ s₁ e₀ e₁ rest hfield
    split at h
    · cases h
    · rename_i hs
      rw [refused, hfield]
      simpa using hs
  · cases h
    exact absurd he (by decide)

/-! ### One request -/

/-- The next transaction id, as long as there are few. -/
theorem toNat_nextTxn {txn : UInt16} (h : txn.toNat < 65535) :
    (UimClient.nextTxn txn).toNat = txn.toNat + 1 := by
  have hadd : (txn + 1).toNat = txn.toNat + 1 := by
    rw [UInt16.toNat_add]
    exact Nat.mod_eq_of_lt (by simpa using Nat.succ_lt_succ h)
  have hne : txn + 1 ≠ 0 := by
    intro h0
    rw [h0] at hadd
    cases hadd
  rw [UimClient.nextTxn, if_neg hne, hadd]

/-- What the client takes for the answer is a response of the service under its ids. -/
theorem heard_answer {c : UimClient} {msgId : UInt16} {ds : List Datagram} {d : Datagram}
    {m : Message} (h : c.heard msgId ds = some (d, .answer m)) :
    d ∈ ds ∧ c.response d = some m ∧ decode d.data = some m ∧ m.txn = c.txn ∧ m.msgId = msgId := by
  induction ds with
  | nil => cases h
  | cons d' ds ih =>
    rw [UimClient.heard] at h
    split at h
    · obtain ⟨hmem, hrest⟩ := ih h
      exact ⟨List.mem_cons_of_mem _ hmem, hrest⟩
    · obtain ⟨rfl, hheard⟩ : d' = d ∧ c.hear msgId d' = .answer m := by simpa using h
      unfold UimClient.hear at hheard
      split at hheard
      · split at hheard <;> cases hheard
      · rename_i hport
        split at hheard
        · cases hheard
        · rename_i hfrom
          split at hheard
          · cases hheard
          · rename_i m' hdecode
            split at hheard
            · cases hheard
            · rename_i hids
              cases hheard
              simp only [not_or, not_not, ne_eq] at hfrom hids
              refine ⟨List.mem_cons_self, ?_, hdecode, hids.2.1, hids.2.2⟩
              rw [UimClient.response, if_pos ⟨hfrom.1, hfrom.2, hport⟩, hdecode]
              simp [Option.filter, hids.1]

/-- The channels without the one a close request names. -/
def without (tlvs : Tlvs) (channels : List UInt8) : List UInt8 :=
  channels.filter fun ch => (field tlvs 0x11).bind List.head? != some ch

/-- What a request does to the books, and what comes of it. `opens`: the channel that the modem
opens for it. -/
structure Asked (c : UimClient) (msgId : UInt16) (tlvs : Tlvs) (r : Run) (out : Except String Tlvs)
    (r' : Run) : Prop where
  speaks : Speaks c r'
  excused : r'.Excused ↔ r.Excused
  outcome : ∃ opens : Option UInt8, (opens = none ∨ msgId = uimOpenLogicalChannel) ∧
    -- No answer: the modem may have done what it was asked.
    ((∃ e, out = .error e ∧ isQmiError e = false) ∧
        r'.unclosed = opens.toList ++ r.unclosed ∧
        r'.held = (if msgId = uimLogicalChannel then without tlvs r.held else r.held) ∨
      -- The answer `m`.
      ∃ m, m.msgId = msgId ∧ truthful m opens = true ∧
        (msgId = uimOpenLogicalChannel → checkResult m.tlvs = .ok () →
          (channelNumber m.tlvs).isSome = true) ∧
        out = (checkResult m.tlvs).map (fun _ => m.tlvs) ∧
        r'.unclosed = (if msgId = uimLogicalChannel ∧ (checkResult m.tlvs).isOk then
          without tlvs r.unclosed else opens.toList ++ r.unclosed) ∧
        r'.held = (if msgId = uimLogicalChannel then without tlvs r.held
          else if msgId = uimOpenLogicalChannel ∧ (checkResult m.tlvs).isOk then
            (channelNumber m.tlvs).toList ++ r.held
          else r.held))

/-- One more request, under the next id. -/
theorem Numbered.append {sent : List (UInt16 × UInt16)} (h : Numbered sent) {txn : UInt16}
    (htxn : txn.toNat = sent.length + 1) (msgId : UInt16) : Numbered (sent ++ [(txn, msgId)]) := by
  intro i p hp
  rw [List.getElem?_append] at hp
  split at hp
  · exact h i p hp
  · obtain ⟨hi, rfl⟩ : i = sent.length ∧ (txn, msgId) = p := by
      rw [List.getElem?_singleton] at hp
      split at hp
      · exact ⟨by omega, Option.some.inj hp⟩
      · cases hp
    rw [htxn, hi]

/-- The answer that is taken is the one to the latest request. -/
theorem taken_current {c : UimClient} {msgId : UInt16} {cancellable : Bool} {e : Answer} {r : Run}
    {d : Datagram} {m : Message} (hs : Speaks c r)
    (hallows : r.allows c msgId cancellable e = true)
    (h : c.heard msgId (e.before ++ e.answer.toList) = some (d, .answer m)) :
    d.request = r.current ∧ e.answer = some d ∧ truthful m e.opens = true ∧
      decode d.data = some m ∧ m.msgId = msgId := by
  obtain ⟨hmem, hresponse, hdecode, htxn, hid⟩ := heard_answer h
  simp only [Run.allows, Bool.and_eq_true] at hallows
  obtain ⟨⟨⟨hbefore, hanswer⟩, -⟩, -⟩ := hallows
  -- The ids on a socket are different, so a response under these answers the latest request.
  have hcurrent : c.genuine r.sent d = true → d.request = r.current := by
    intro hgenuine
    have hsent : r.sent[d.request]? = some (m.txn, m.msgId) := by
      rw [UimClient.genuine, hresponse] at hgenuine
      exact beq_iff_eq.mp hgenuine
    have hnumber := hs.numbered _ _ hsent
    rw [show (m.txn, m.msgId).1 = c.txn from htxn, hs.txn] at hnumber
    rw [Run.current, hnumber, Nat.add_sub_cancel]
  rcases List.mem_append.mp hmem with hd | hd
  · have hbefore := List.all_eq_true.mp hbefore d hd
    rw [Bool.and_eq_true, hresponse] at hbefore
    exact absurd (hcurrent hbefore.1) (by simpa using hbefore.2)
  · obtain he : e.answer = some d := by simpa using hd
    rw [he] at hanswer
    simp only [Option.all_some, Bool.and_eq_true, beq_iff_eq, hresponse] at hanswer
    exact ⟨hanswer.1.2, he, hanswer.2, hdecode, hid⟩

/-- One request. -/
theorem exec_request {c : UimClient} {msgId : UInt16} {tlvs : Tlvs} {cancellable : Bool}
    {e : Answer} {r r' : Run} {x : Except String (List Datagram × Quiet)}
    (htxn : c.txn.toNat = r.sent.length + 1) (hnumbered : Numbered r.sent)
    (hrequests : r.sent.length ≤ r.requests) (hheard : r.misread = false)
    (hK : e.numbered = true)
    (h : Run.exec (.request c msgId tlvs cancellable) e r = some (x, r')) :
    Asked c msgId tlvs r (c.outcome msgId x) r' := by
  simp only [Run.exec] at h
  have hspeaks : Speaks c ((r.stopped e.stop).leaves c msgId tlvs e.opens) :=
    ⟨by simp [Run.leaves, Run.stopped, htxn], hnumbered.append htxn msgId,
      by simp [Run.leaves, Run.stopped, hrequests], hheard⟩
  split at h
  · split at h
    · rename_i m _ hopens
      cases h
      have hopens : e.opens = none := by simpa using hopens
      refine ⟨hspeaks, Iff.rfl, none, .inl rfl, .inl ⟨⟨_, rfl, ?_⟩, ?_, rfl⟩⟩
      · exact isQmiError_append m (by decide) (by decide)
      · simp [Run.leaves, hopens]
        rfl
    · cases h
  · split at h
    · rename_i hallows
      cases h
      have hopens : e.opens = none ∨ msgId = uimOpenLogicalChannel := by
        simp only [Run.allows, Bool.and_eq_true] at hallows
        simpa using hallows.1.2
      -- The channel of an open request is the only one the modem may open.
      have hunclosed : ((r.stopped e.stop).leaves c msgId tlvs e.opens).unclosed =
          e.opens.toList ++ r.unclosed := by
        rcases hopens with hnone | rfl
        · simp [Run.leaves, hnone, Run.stopped]
        · rfl
      cases hh : c.heard msgId (e.before ++ e.answer.toList) with
      | none =>
        rw [Run.takes, UimClient.outcome, UimClient.answer, hh]
        exact ⟨hspeaks, Iff.rfl, e.opens, hopens,
          .inl ⟨⟨_, rfl, isQmiError_quiet e.quiet⟩, hunclosed, rfl⟩⟩
      | some heard =>
        obtain ⟨d, m | m | m⟩ := heard
        · rw [Run.takes, UimClient.outcome, UimClient.answer, hh]
          exact ⟨hspeaks, Iff.rfl, e.opens, hopens, .inl ⟨⟨_, rfl, by decide⟩, hunclosed, rfl⟩⟩
        · rw [Run.takes, UimClient.outcome, UimClient.answer, hh]
          exact ⟨hspeaks, Iff.rfl, e.opens, hopens, .inl ⟨⟨_, rfl, by decide⟩, hunclosed, rfl⟩⟩
        · obtain ⟨hcurrent, hanswer, htruthful, hdecode, hid⟩ := taken_current hspeaks hallows hh
          rw [Run.takes, UimClient.outcome, UimClient.answer, hh]
          refine ⟨⟨hspeaks.txn, hspeaks.numbered, hspeaks.requests, ?_⟩, Iff.rfl, e.opens, hopens,
            .inr ⟨m, hid, htruthful, fun hopen hok => ?_, ?_, ?_, ?_⟩⟩
          · show (r.misread || d.request != _) = false
            rw [hheard, hcurrent]
            simp
          · rw [Answer.numbered, hanswer] at hK
            simp only [Option.all_some, hdecode, hid, hopen, hok] at hK
            simpa [Except.isOk, Except.toBool] using hK
          · dsimp only
            cases checkResult m.tlvs <;> rfl
          · dsimp only
            split
            · rename_i hclose
              obtain rfl | hopen := hopens.symm
              · exact absurd hclose.1 (by decide)
              · rw [hunclosed, hopen]
                rfl
            · exact hunclosed
          · dsimp only
            split
            · rename_i hopen
              have hne : msgId ≠ uimLogicalChannel := by
                rw [hopen.1]
                decide
              rw [Run.leaves, if_neg hne, if_neg hne]
              rfl
            · rfl
    · cases h

/-! ### The functions -/

/-- Fewer than 65535 requests so far. -/
abbrev Run.Few (r : Run) : Prop := r.requests < 65535

/-- A function keeps the run sound, as long as there are few requests. -/
abbrev Keeps {α : Type} (p : Program Call α) (r : Run) (Q : α → Run → Prop) : Prop :=
  p.Upholds Run.exec Answer.numbered (fun r => r.Few → r.Sound) Q r

/-- Only the flags moved, and the client kept its channel. -/
theorem Owns.flags {c c' : UimClient} {r r' : Run} (h : Owns c r) (htxn : c'.txn = c.txn)
    (hch : c'.channel = c.channel) (hsent : r'.sent = r.sent) (hrequests : r'.requests = r.requests)
    (hheard : r'.misread = r.misread) (hheld : r'.held = r.held)
    (hunclosed : r'.unclosed = r.unclosed) (hexcused : r.Excused → r'.Excused) : Owns c' r' := by
  refine ⟨⟨?_, ?_, ?_, ?_⟩, ?_, ?_⟩
  · rw [htxn, hsent]
    exact h.speaks.txn
  · rw [hsent]
    exact h.speaks.numbered
  · rw [hsent, hrequests]
    exact h.speaks.requests
  · rw [hheard]
    exact h.speaks.heard
  · rw [hheld, hch]
    exact h.held
  · rw [hunclosed, hch]
    exact h.unclosed.imp_right hexcused

theorem exec_requests {c : UimClient} {msgId : UInt16} {tlvs : Tlvs} {cancellable : Bool}
    {e : Answer} {r r' : Run} {x : Except String (List Datagram × Quiet)}
    (h : Run.exec (.request c msgId tlvs cancellable) e r = some (x, r')) :
    r'.requests = r.requests + 1 := by
  simp only [Run.exec] at h
  split at h
  · split at h <;> cases h
    rfl
  · split at h
    · cases h
      rw [Run.takes]
      split <;> rfl
    · cases h

theorem upholds_requestUntil {c : UimClient} {msgId : UInt16} {tlvs : Tlvs} {r : Run}
    (cancellable : Bool) (hr : r.Few → r.Sound) (hs : r.Few → Speaks c r)
    (hsound : ∀ out r', r.Few → Asked { c with txn := UimClient.nextTxn c.txn } msgId
      tlvs r out r' →
      r'.Sound) :
    Keeps (c.requestUntil msgId tlvs cancellable) r fun x r' =>
      x.2 = { c with txn := UimClient.nextTxn c.txn } ∧ (r'.Few → r.Few) ∧
        (r'.Few → Asked x.2 msgId tlvs r x.1 r') := by
  refine .act hr fun e x r' hK he => ?_
  have hrequests := exec_requests he
  have hfew : r'.Few → r.Few := fun h => by
    simp only [Run.Few] at h ⊢
    omega
  have hasked : r'.Few → Asked { c with txn := UimClient.nextTxn c.txn } msgId tlvs r
      ({ c with txn := UimClient.nextTxn c.txn }.outcome msgId x) r' := by
    intro h
    obtain ⟨htxn, hnumbered, hlen, hheard⟩ := hs (hfew h)
    refine exec_request ?_ hnumbered hlen hheard hK he
    rw [← htxn]
    refine toNat_nextTxn ?_
    simp only [Run.Few] at h
    omega
  exact .pure (fun h => hsound _ r' (hfew h) (hasked h)) ⟨rfl, hfew, hasked⟩

/-- An APDU opens and closes nothing. -/
theorem upholds_transmit {c : UimClient} {r : Run} (apdu : Bytes) (h : r.Few → Owns c r) :
    Keeps (c.transmit apdu) r fun x r' => r'.Few → Owns x.2 r' := by
  unfold UimClient.transmit
  split
  · exact .pure (fun hf => (h hf).sound) h
  · split
    · exact .pure (fun hf => (h hf).sound) h
    · have howns : ∀ {tlvs out r'}, r.Few →
          Asked { c with txn := UimClient.nextTxn c.txn } uimSendApdu tlvs r out r' →
          Owns { c with txn := UimClient.nextTxn c.txn } r' := by
        intro tlvs out r' hf hasked
        obtain ⟨opens, hopens, houtcome⟩ := hasked.outcome
        obtain rfl : opens = none := hopens.resolve_right (by decide)
        have hsame : r'.unclosed = r.unclosed ∧ r'.held = r.held := by
          rcases houtcome with ⟨-, hunclosed, hheld⟩ | ⟨m, -, -, -, -, hunclosed, hheld⟩
          · exact ⟨hunclosed, hheld⟩
          · exact ⟨hunclosed, hheld⟩
        refine ⟨hasked.speaks, hsame.2 ▸ (h hf).held, ?_⟩
        rw [hsame.1, hasked.excused]
        exact (h hf).unclosed
      refine .bind (upholds_requestUntil true (fun hf => (h hf).sound) (fun hf => (h hf).speaks)
        fun out r' hf hasked => (howns hf hasked).sound) fun x r' hr' hx => ?_
      obtain ⟨out, c'⟩ := x
      obtain ⟨rfl, hfew, hasked⟩ := hx
      dsimp only
      split
      · exact .pure hr' fun hf => howns (hfew hf) (hasked hf)
      · exact .pure hr' fun hf => howns (hfew hf) (hasked hf)

/-- What the answer to an open request leaves. -/
def Opened (r : Run) : Except String Tlvs → Prop
  | .error e => r.held = [] ∧ (isQmiError e = true → r.unclosed = [] ∨ r.Excused)
  | .ok out => ∃ channel, channelNumber out = some channel ∧ r.held = [channel] ∧
      (r.unclosed = [channel] ∨ r.Excused)

theorem Asked.opened {c : UimClient} {tlvs : Tlvs} {r r' : Run} {out : Except String Tlvs}
    (h : Asked c uimOpenLogicalChannel tlvs r out r') (hheld : r.held = [])
    (hunclosed : r.unclosed = [] ∨ r.Excused) : r'.Sound ∧ Opened r' out := by
  obtain ⟨hspeaks, hexcused, opens, -, houtcome⟩ := h
  have hne : ¬ uimOpenLogicalChannel = uimLogicalChannel := by decide
  have hopened : r'.unclosed = opens.toList ++ r.unclosed → r'.unclosed = opens.toList ∨
    r'.Excused := by
    intro heq
    rw [hexcused, heq]
    refine hunclosed.imp_left fun hu => ?_
    rw [hu, List.append_nil]
  have hle : r'.unclosed = opens.toList ∨ r'.Excused → r'.unclosed.length ≤ 1 ∨ r'.Excused := by
    refine fun h => h.imp_left fun hu => ?_
    rw [hu]
    cases opens <;> simp
  rcases houtcome with ⟨⟨e, rfl, he⟩, hopens, hheld'⟩ | ⟨m, hid, htruthful, hnumber, rfl,
    hopens, hheld'⟩
  · rw [if_neg hne, hheld] at hheld'
    refine ⟨⟨hspeaks.heard, by simp [hheld'], hle (hopened hopens)⟩, hheld', fun hq => ?_⟩
    rw [he] at hq
    cases hq
  · rw [if_neg fun hc => hne hc.1] at hopens
    rw [if_neg hne, hheld, List.append_nil] at hheld'
    rw [truthful, if_pos hid, Bool.and_eq_true] at htruthful
    cases hc : checkResult m.tlvs with
    | error e =>
      rw [hc, if_neg (by simp [Except.isOk, Except.toBool])] at hheld'
      refine ⟨⟨hspeaks.heard, by simp [hheld'], hle (hopened hopens)⟩, hheld', fun hq => ?_⟩
      -- A refusal opens nothing.
      obtain rfl : opens = none := by simpa [refused_of_checkResult hc hq] using htruthful.2
      exact hopened hopens
    | ok _ =>
      rw [hc, if_pos ⟨rfl, rfl⟩] at hheld'
      rw [hc] at htruthful
      obtain ⟨channel, hchannel⟩ := Option.isSome_iff_exists.mp (hnumber rfl hc)
      rw [hchannel] at hheld' htruthful
      obtain rfl : opens = some channel := by
        simpa [Except.isOk, Except.toBool] using (Bool.and_eq_true_iff.mp htruthful.1).2
      exact ⟨⟨hspeaks.heard, by simp [hheld'], hle (hopened hopens)⟩, channel, hchannel, hheld',
        hopened hopens⟩

/-- A noted leak excuses what may be open. -/
theorem exec_noteChannelLeak {channel : UInt8} {why : String} {e : Answer} {r r' : Run} {x : Unit}
    (h : Run.exec (.noteChannelLeak channel why) e r = some (x, r')) :
    (r'.Few → r.Few) ∧ r'.Excused ∧ r'.held = r.held ∧ r'.misread = r.misread ∧
      ∀ c, Speaks c r → Speaks c r' := by
  cases h
  refine ⟨id, ?_, rfl, rfl, fun c hs => ⟨hs.txn, hs.numbered, hs.requests, hs.heard⟩⟩
  cases hreset : r.cardReset with
  | true => exact .inr hreset
  | false => exact .inl (by simp)

theorem upholds_openChannel {c : UimClient} {r : Run} (aid : Bytes) (h : r.Few → Owns c r) :
    Keeps (c.openChannel aid) r fun x r' => r'.Few → Owns x.2 r' := by
  unfold UimClient.openChannel
  split
  · exact .pure (fun hf => (h hf).sound) h
  · rename_i hstate
    have hnone : c.channel = none := by
      rcases hc : c.channel with _ | ch
      · rfl
      · exact absurd (.inl (by simp [hc])) hstate
    have hheld : r.Few → r.held = [] := fun hf => by simpa [hnone] using (h hf).held
    have hunclosed : r.Few → r.unclosed = [] ∨ r.Excused := fun hf => by
      simpa [hnone] using (h hf).unclosed
    refine .bind (upholds_requestUntil false (fun hf => (h hf).sound) (fun hf => (h hf).speaks)
      fun out r' hf hasked => (hasked.opened (hheld hf) (hunclosed hf)).1) fun x r' hr' hx => ?_
    obtain ⟨out, c'⟩ := x
    obtain ⟨rfl, hfew, hasked⟩ := hx
    have hopened := fun hf => ((hasked hf).opened (hheld (hfew hf)) (hunclosed (hfew hf))).2
    have hspeaks := fun hf => (hasked hf).speaks
    cases out with
    | error e =>
      dsimp only
      split
      · rename_i hq
        exact .pure hr' fun hf => ⟨⟨(hspeaks hf).txn, (hspeaks hf).numbered, (hspeaks hf).requests,
          (hspeaks hf).heard⟩, by simp [(hopened hf).1, hnone], by
            simpa [hnone] using (hopened hf).2 hq⟩
      · refine .act hr' fun e x r'' _ he => ?_
        obtain ⟨hfew', hexcused, hheld', hheard, hspeaks'⟩ := exec_noteChannelLeak he
        have howns : r''.Few →
            Owns { c with txn := UimClient.nextTxn c.txn, channelUnknown := true }
            r'' := by
          intro hf
          obtain ⟨htxn, hnumbered, hrequests, hheard⟩ := hspeaks' _ (hspeaks (hfew' hf))
          exact ⟨⟨htxn, hnumbered, hrequests, hheard⟩, by
            simp [hheld', (hopened (hfew' hf)).1, hnone], .inr hexcused⟩
        exact .pure (fun hf => (howns hf).sound) howns
    | ok out =>
      cases hfield : (field out 0x10).bind List.head? with
      | none =>
        dsimp only
        rw [hfield]
        refine .pure hr' fun hf => ?_
        obtain ⟨channel, hchannel, -⟩ := hopened hf
        rw [channelNumber, hfield] at hchannel
        cases hchannel
      | some channel =>
        dsimp only
        rw [hfield]
        dsimp only
        have hnumber : r'.Few → channel ≠ 0 ∧ r'.held = [channel] ∧
            (r'.unclosed = [channel] ∨ r'.Excused) := by
          intro hf
          obtain ⟨channel', hchannel, hrest⟩ := hopened hf
          rw [channelNumber, hfield, Option.filter_eq_some_iff] at hchannel
          obtain ⟨heq, hne⟩ := hchannel
          cases heq
          exact ⟨by simpa using hne, hrest⟩
        split
        · rename_i hzero
          exact .pure hr' fun hf => absurd hzero (hnumber hf).1
        · refine .act hr' fun e x r'' _ he => ?_
          cases he
          have howns : r'.Few →
              Owns { c with txn := UimClient.nextTxn c.txn, channel := some channel }
              { r'.stopped e.stop with channel } := fun hf =>
            ⟨⟨(hspeaks hf).txn, (hspeaks hf).numbered, (hspeaks hf).requests, (hspeaks hf).heard⟩,
              (hnumber hf).2.1, (hnumber hf).2.2⟩
          exact .pure (fun hf => (howns hf).sound) howns

/-- What a close request leaves: the run has given the channel up. -/
theorem Asked.closed {c : UimClient} {slot channel : UInt8} {r r' : Run} {out : Except String Tlvs}
    (h : Asked c uimLogicalChannel [(0x01, [slot]), (0x11, [channel])] r out r')
    (hheld : r.held = [channel]) (hunclosed : r.unclosed = [channel] ∨ r.Excused) :
    r'.Sound ∧ r'.held = [] ∧ ∀ tlvs, out = .ok tlvs → r'.unclosed = [] ∨ r'.Excused := by
  obtain ⟨hspeaks, hexcused, opens, hopens, houtcome⟩ := h
  obtain rfl : opens = none := hopens.resolve_right (by decide)
  have hwithout : without [(0x01, [slot]), (0x11, [channel])] [channel] = [] := by
    simp [without, field]
  have hle : r'.unclosed = r.unclosed → r'.unclosed.length ≤ 1 ∨ r'.Excused := by
    intro heq
    rw [hexcused, heq]
    exact hunclosed.imp_left fun hu => by simp [hu]
  rcases houtcome with ⟨⟨e, rfl, -⟩, hsame, hheld'⟩ | ⟨m, -, -, -, rfl, hclosed, hheld'⟩
  · rw [if_pos rfl, hheld, hwithout] at hheld'
    exact ⟨⟨hspeaks.heard, by simp [hheld'], hle hsame⟩, hheld', by simp⟩
  · rw [if_pos rfl, hheld, hwithout] at hheld'
    cases hc : checkResult m.tlvs with
    | error e =>
      rw [hc, if_neg (by simp [Except.isOk, Except.toBool])] at hclosed
      exact ⟨⟨hspeaks.heard, by simp [hheld'], hle hclosed⟩, hheld', fun _ h => by cases h⟩
    | ok _ =>
      rw [hc, if_pos ⟨rfl, rfl⟩] at hclosed
      have hempty : r'.unclosed = [] ∨ r'.Excused := by
        rw [hexcused]
        exact hunclosed.imp_left fun hu => by rw [hclosed, hu, hwithout]
      exact ⟨⟨hspeaks.heard, by simp [hheld'], hempty.imp_left fun hu => by simp [hu]⟩, hheld',
        fun _ _ => hempty⟩

theorem upholds_closeChannel {c : UimClient} {r : Run} (channel : UInt8) (h : r.Few → Owns c r) :
    Keeps (c.closeChannel channel) r fun x r' => (r'.Few → Owns x.2 r') ∧
      (c.channel = some channel → x.2.channel = none) := by
  unfold UimClient.closeChannel
  split
  · rename_i hne
    exact .pure (fun hf => (h hf).sound) ⟨h, fun heq => absurd heq hne⟩
  · rename_i hch
    have hch : c.channel = some channel := not_not.mp hch
    have hheld : r.Few → r.held = [channel] := fun hf => by simpa [hch] using (h hf).held
    have hunclosed : r.Few → r.unclosed = [channel] ∨ r.Excused := fun hf => by
      simpa [hch] using (h hf).unclosed
    refine .bind (upholds_requestUntil false (fun hf => (h hf).sound)
      (fun hf => ⟨(h hf).speaks.txn, (h hf).speaks.numbered, (h hf).speaks.requests,
        (h hf).speaks.heard⟩)
      fun out r' hf hasked => (hasked.closed (hheld hf) (hunclosed hf)).1) fun x r' hr' hx => ?_
    obtain ⟨out, c'⟩ := x
    obtain ⟨rfl, hfew, hasked⟩ := hx
    have hclosed := fun hf => ((hasked hf).closed (hheld (hfew hf)) (hunclosed (hfew hf))).2
    have hspeaks := fun hf => (hasked hf).speaks
    cases out with
    | ok tlvs =>
      exact .pure hr' ⟨fun hf => ⟨hspeaks hf, (hclosed hf).1, (hclosed hf).2 tlvs rfl⟩,
        fun _ => rfl⟩
    | error e =>
      refine .act hr' fun e' x r'' _ he => ?_
      obtain ⟨hfew', hexcused, hheld', -, hspeaks'⟩ := exec_noteChannelLeak he
      have howns : r''.Few → Owns { c with
          channel := none, txn := UimClient.nextTxn c.txn, channelUnknown := true } r'' := by
        intro hf
        obtain ⟨htxn, hnumbered, hrequests, hheard⟩ := hspeaks' _ (hspeaks (hfew' hf))
        exact ⟨⟨htxn, hnumbered, hrequests, hheard⟩, hheld'.trans (hclosed (hfew' hf)).1,
          .inr hexcused⟩
      exact .pure (fun hf => (howns hf).sound) ⟨howns, fun _ => rfl⟩

theorem upholds_drop {c : UimClient} {r : Run} (h : r.Few → Owns c r) :
    Keeps c.drop r fun _ r' => r'.Few → r'.Idle := by
  have hidle : ∀ {c : UimClient} {r : Run}, Owns c r → c.channel = none → r.Idle := by
    intro c r h hch
    refine ⟨h.speaks.heard, ?_, ?_⟩
    · simpa [hch] using h.held
    · simpa [hch] using h.unclosed
  unfold UimClient.drop
  split
  · rename_i hch
    exact .pure (fun hf => (h hf).sound) fun hf => hidle (h hf) hch
  · rename_i channel hch
    exact (upholds_closeChannel channel h).mono fun x r' _ hx hf => hidle (hx.1 hf) (hx.2 hch)

/-! ### Sessions and operations -/

/-- Whatever an operation does in its session, the client keeps its channel. -/
theorem upholds_useCard {α : Type} (body : Program Use α) {c : UimClient} {r : Run}
    (h : r.Few → Owns c r) : Keeps (useCard body c) r fun x r' => r'.Few → Owns x.2 r' := by
  induction body generalizing c r with
  | pure a => exact .pure (fun hf => (h hf).sound) h
  | act a next ih =>
    cases a with
    | transmit apdu => exact .bind (upholds_transmit apdu h) fun x r' _ hx => ih x.1 hx
    | cancelled =>
      refine .act (fun hf => (h hf).sound) fun e x r' _ he => ?_
      cases he
      exact ih _ fun hf => (h hf).flags rfl rfl rfl rfl rfl rfl rfl id
    | written op result =>
      rw [useCard]
      split
      · refine .act (fun hf => (h hf).sound) fun e x r' _ he => ?_
        cases he
        exact ih _ fun hf => (h hf).flags rfl rfl rfl rfl rfl rfl rfl fun _ => .inr rfl
      · exact ih _ h

theorem upholds_cardSession {α : Type} (node : UInt32) (slot : UInt8) (body : Program Use α)
    {r : Run} (h : r.Few → r.Idle) :
    Keeps (cardSession node slot body) r fun _ r' => r'.Few → r'.Idle := by
  refine .act (fun hf => (h hf).sound) fun e stop r₁ _ he => ?_
  cases he
  have h₁ : (r.stopped e.stop).Few → (r.stopped e.stop).Idle := fun hf =>
    ⟨(h hf).heard, (h hf).held, (h hf).unclosed⟩
  split
  · exact .pure (fun hf => (h₁ hf).sound) h₁
  · refine .act (fun hf => (h₁ hf).sound) fun e' connected r₂ _ he => ?_
    simp only [Run.exec] at he
    split at he
    · cases he
      have h₂ : (Run.stopped e'.stop (r.stopped e.stop)).Few →
          (Run.stopped e'.stop (r.stopped e.stop)).Idle := fun hf =>
        ⟨(h hf).heard, (h hf).held, (h hf).unclosed⟩
      exact .pure (fun hf => (h₂ hf).sound) h₂
    · cases he
      -- A new socket, and a client that has no channel.
      refine .bind (upholds_openChannel isdRAid fun hf => ?_) fun x r₃ _ hx => ?_
      · exact ⟨⟨rfl, (fun i p hp => by cases hp), Nat.zero_le _, (h hf).heard⟩, (h hf).held,
          (h hf).unclosed⟩
      · obtain ⟨opened, c⟩ := x
        cases opened with
        | error e =>
          exact .bind (upholds_drop hx) fun _ r₄ hr₄ h₄ => .pure hr₄ h₄
        | ok channel =>
          refine .bind (upholds_useCard body hx) fun x r₄ _ hx₄ => ?_
          refine .bind (upholds_closeChannel channel hx₄) fun x₅ r₅ _ hx₅ => ?_
          exact .bind (upholds_drop hx₅.1) fun _ r₆ hr₆ h₆ => .pure hr₆ h₆

theorem upholds_runOperation {α : Type} (node : UInt32) (slot : UInt8) (op : Program Session α)
    {r : Run} (h : r.Few → r.Idle) :
    Keeps (runOperation node slot op) r fun _ r' => r'.Few → r'.Idle := by
  induction op generalizing r with
  | pure a => exact .pure (fun hf => (h hf).sound) h
  | act a next ih =>
    cases a with
    | session body => exact .bind (upholds_cardSession node slot body h) fun _ _ _ h' => ih _ h'
    | cancelled =>
      refine .act (fun hf => (h hf).sound) fun e stop r' _ he => ?_
      cases he
      exact ih _ fun hf => ⟨(h hf).heard, (h hf).held, (h hf).unclosed⟩

/-- **Every channel is accounted for.** Whatever an operation does in its sessions, whatever the
modem answers and whenever a stop arrives, as long as no open request is answered by a success
without a channel number: an answer is taken only for the request it belongs to, the run never holds
two channels, and at most one is open unless a leak is suspected or the card resets. When the
operation has ended, the modem has confirmed that it closed every channel, or the answer suspects a
leak, or the card accepted an enable or disable. -/
theorem channels_accounted {α : Type} (node : UInt32) (slot : UInt8) (op : Program Session α)
    (answers : List Answer) (result : Option α) (r : Run)
    (hnumbered : ∀ e ∈ answers, e.numbered = true)
    (hplay : (runOperation node slot op).play Run.exec answers {} = some (result, r))
    (hfew : r.requests < 65535) :
    r.misread = false ∧ r.held.length ≤ 1 ∧
    (r.unclosed.length ≤ 1 ∨ r.channelLeak = true ∨ r.cardReset = true) ∧
    (result.isSome → r.unclosed = [] ∨
      (channelJson r).get "leak_suspected" = .bool true ∨ r.cardReset = true) := by
  have hidle : ({} : Run).Few → ({} : Run).Idle := fun _ => ⟨rfl, rfl, .inl rfl⟩
  obtain ⟨hsound, hend⟩ := (upholds_runOperation node slot op hidle).play hnumbered hplay
  obtain ⟨hheard, hheld, hunclosed⟩ := hsound hfew
  refine ⟨hheard, hheld, hunclosed, fun hsome => ?_⟩
  obtain ⟨a, rfl⟩ := Option.isSome_iff_exists.mp hsome
  rcases (hend a rfl hfew).unclosed with hempty | hleak | hreset
  · exact .inl hempty
  · exact .inr (.inl (congrArg Value.bool hleak))
  · exact .inr (.inr hreset)

namespace Sample

/-- An operation with one session, in which it does nothing. -/
def operation : Program Session Unit := .act (.session (.pure ())) fun _ => .pure ()

/-- The modem opens channel 2 and says so. -/
def opened : Answer where
  answer := some { node := 3, port := 7, data :=
    [2, 1, 0, 0x42, 0, 11, 0, 0x02, 4, 0, 0, 0, 0, 0, 0x10, 1, 0, 2] }
  opens := some 2

/-- It opens channel 2, and its answer does not name it. -/
def unnamed : Answer where
  answer := some { node := 3, port := 7, data := [2, 1, 0, 0x42, 0, 7, 0, 0x02, 4, 0, 0, 0, 0, 0] }
  opens := some 2

/-- It closes the channel. -/
def closed : Answer where
  answer := some
    { node := 3, port := 7, data := [2, 2, 0, 0x3F, 0, 7, 0, 0x02, 4, 0, 0, 0, 0, 0], request := 1 }

end Sample

open Sample in
/-- A session whose channel is opened and closed. -/
theorem channels_accounted_sample :
    (runOperation 3 1 operation).play Run.exec [{}, { port := 7 }, opened, {}, closed] {} =
      some (some (), { channel := 2, sent := [(1, 0x42), (2, 0x3F)], requests := 2 }) ∧
    (([] : List UInt8) = [] ∨
      (channelJson { channel := 2 }).get "leak_suspected" = .bool true ∨ false = true) := by
  have hplay : (runOperation 3 1 operation).play Run.exec [{}, { port := 7 }, opened,
    {}, closed] {} =
      some (some (), { channel := 2, sent := [(1, 0x42), (2, 0x3F)], requests := 2 }) := rfl
  exact ⟨hplay, (channels_accounted 3 1 operation _ _ _ (by decide) hplay (by decide)).2.2.2 rfl⟩

open Sample in
/-- A channel whose number the answer does not say is lost without a word. -/
theorem unnamed_channel_lost :
    ¬ ∀ (op : Program Session Unit) (answers : List Answer) (result : Option Unit) (r : Run),
      (runOperation 3 1 op).play Run.exec answers {} = some (result, r) → r.requests < 65535 →
      (result.isSome → r.unclosed = [] ∨
        (channelJson r).get "leak_suspected" = .bool true ∨ r.cardReset = true) := by
  intro hclaim
  have hplay : (runOperation 3 1 operation).play Run.exec [{}, { port := 7 }, unnamed] {} =
      some (some (), { sent := [(1, 0x42)], requests := 1, unclosed := [2] }) := rfl
  rcases hclaim operation _ _ _ hplay (by decide) rfl with hempty | hleak | hreset
  · cases hempty
  · have hleak : Value.bool false = .bool true := hleak
    cases hleak
  · cases hreset

end OpenUI.Helper.Uim
