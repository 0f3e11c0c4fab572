import OpenUI.Concurrency.Reducer
import OpenUI.WebApp.WifiDraft

/-!
# `OpenUI.Proofs.WebApp.WifiDraft`: a save sends what was edited

A field of the patch is one in which the draft differs from the base, the latest observation. The
draft differs from it where the user edited, and where the device moved under a dirty draft.
`Agrees` excludes the second.

* `buildBandPatch_keys`: which fields are sent.
* `patch_edited_iff`: every field of the patch was edited exactly as long as no observation of a
  dirty draft moves a field that was not (`stale_field_sent`).
-/

set_option autoImplicit false

namespace OpenUI.WebApp.Wifi

open OpenUI.Concurrency

/-! ### Fields -/

inductive Field where
  | ssid
  | hidden
  | password
  | channel
  | htmode
  | txpower
  deriving DecidableEq

/-- The name of a field in a patch. -/
def Field.key (suffix : BandSuffix) : Field → String
  | .ssid => "ssid_" ++ suffix.text
  | .hidden => "hidden_" ++ suffix.text
  | .password => "key_" ++ suffix.text
  | .channel => "channel_" ++ suffix.text
  | .htmode => "htmode_" ++ suffix.text
  | .txpower => "txpower_" ++ suffix.text

/-- The field is the same in both, as `sameDraft` compares it. -/
def sameField (a b : BandDraft) : Field → Bool
  | .ssid => a.ssid == b.ssid
  | .hidden => a.hidden == b.hidden
  | .password => a.password == b.password
  | .channel => a.channel == b.channel
  | .htmode => a.htmode == b.htmode
  | .txpower => txKey a.txpower == txKey b.txpower

/-- The field of the draft holds nothing that could be sent. -/
def blank (draft : BandDraft) : Field → Bool
  | .channel => draft.channel == ""
  | .htmode => draft.htmode == ""
  | .txpower => match parseTxPower draft.txpower with
    | .ok (some _) => false
    | _ => true
  | _ => false

/-- The field is part of the patch. -/
def sends (draft base : BandDraft) (f : Field) : Bool := !sameField draft base f && !blank draft f

theorem sameDraft_iff {a b : BandDraft} : sameDraft a b = true ↔ ∀ f, sameField a b f = true := by
  constructor
  · intro h f
    simp only [sameDraft, Bool.and_eq_true] at h
    cases f
    · exact h.1.1.1.1.1
    · exact h.1.2
    · exact h.1.1.1.1.2
    · exact h.1.1.1.2
    · exact h.1.1.2
    · exact h.2
  · intro h
    simp only [sameDraft, Bool.and_eq_true]
    exact ⟨⟨⟨⟨⟨h .ssid, h .password⟩, h .channel⟩, h .htmode⟩, h .hidden⟩, h .txpower⟩

/-- A TX power input is sent exactly when it is a number and another one than that of the base. -/
theorem txToSend_isSome {draft base : BandDraft} :
    (txToSend draft base).isSome = sends draft base .txpower := by
  unfold txToSend sends sameField blank
  cases hp : parseTxPower draft.txpower with
  | error text => simp
  | ok value =>
    cases value with
    | none => simp
    | some n =>
      have hkey : txKey draft.txpower = toString n := by simp [txKey, hp]
      simp only [hkey]
      generalize toString n = sent
      by_cases hb : sent = txKey base.txpower <;> simp [hb]

/-- The names in a patch are those of the fields it sends. -/
theorem buildBandPatch_keys {suffix : BandSuffix} {draft base : BandDraft} {name : String} :
    name ∈ (buildBandPatch suffix draft base).map Prod.fst ↔
      ∃ f, sends draft base f = true ∧ f.key suffix = name := by
  have hentry : ∀ (send : Bool) (key : String) (value : PatchValue),
      name ∈ (entry send key suffix value).map Prod.fst ↔ send = true ∧
        key ++ suffix.text = name := by
    intro send key value
    cases send <;> simp [entry, eq_comm]
  have htx : name ∈ ((txToSend draft base).toList.map
        fun value => ("txpower_" ++ suffix.text, PatchValue.number value)).map Prod.fst ↔
      sends draft base .txpower = true ∧ "txpower_" ++ suffix.text = name := by
    rw [← txToSend_isSome]
    cases txToSend draft base <;> simp [eq_comm]
  simp only [buildBandPatch, List.map_append, List.mem_append, hentry, htx]
  constructor
  · rintro (((((h | h) | h) | h) | h) | h)
    · exact ⟨.ssid, by simpa [sends, sameField, blank] using h.1, h.2⟩
    · exact ⟨.hidden, by simpa [sends, sameField, blank] using h.1, h.2⟩
    · exact ⟨.password, by simpa [sends, sameField, blank] using h.1, h.2⟩
    · exact ⟨.channel, by simpa [sends, sameField, blank, and_comm] using h.1, h.2⟩
    · exact ⟨.htmode, by simpa [sends, sameField, blank, and_comm] using h.1, h.2⟩
    · exact ⟨.txpower, h⟩
  · rintro ⟨f, hf, hname⟩
    cases f with
    | ssid =>
      exact .inl (.inl (.inl (.inl (.inl ⟨by simpa [sends, sameField, blank] using hf, hname⟩))))
    | hidden =>
      exact .inl (.inl (.inl (.inl (.inr ⟨by simpa [sends, sameField, blank] using hf, hname⟩))))
    | password =>
      exact .inl (.inl (.inl (.inr ⟨by simpa [sends, sameField, blank] using hf, hname⟩)))
    | channel =>
      exact .inl (.inl (.inr ⟨by simpa [sends, sameField, blank, and_comm] using hf, hname⟩))
    | htmode => exact .inl (.inr ⟨by simpa [sends, sameField, blank, and_comm] using hf, hname⟩)
    | txpower => exact .inr ⟨hf, hname⟩

/-- Fields have different names. -/
theorem key_injective {suffix : BandSuffix} {f g : Field} (h : f.key suffix = g.key suffix) :
    f = g := by
  revert h
  cases suffix <;> cases f <;> cases g <;> decide

/-! ### What was edited -/

/-- The field is in the patch of an edit. -/
def BandPatch.names (patch : BandPatch) : Field → Bool
  | .ssid => patch.ssid.isSome
  | .hidden => patch.hidden.isSome
  | .password => patch.password.isSome
  | .channel => patch.channel.isSome
  | .htmode => patch.htmode.isSome
  | .txpower => patch.txpower.isSome

/-- What can happen to the state of a form. -/
inductive Action where
  | observe (observed : BandDraft)
  | edit (patch : BandPatch)
  | startEditing
  | cancel
  | reload
  deriving DecidableEq

def act (s : DraftState) : Action → DraftState
  | .observe observed => reconcileDraft s observed
  | .edit patch => editDraft s patch
  | .startEditing => startEditing s
  | .cancel => cancelDraft s
  | .reload => reloadDraft s

/-- A form, and the fields the user edited since the draft was last pristine. -/
structure Edited where
  state : DraftState
  fields : Field → Bool

/-- The fields an action edits. -/
def Action.names : Action → Field → Bool
  | .edit patch => patch.names
  | _ => fun _ => false

/-- One action. -/
def follow (e : Edited) (a : Action) : Edited where
  state := act e.state a
  fields := if isDirty (act e.state a) then fun f => e.fields f || a.names f else fun _ => false

/-- The form of an observation. -/
def opened (observed : BandDraft) : Edited := ⟨initDraft observed, fun _ => false⟩

/-- Every field a save would send was edited. -/
def SendsEdits (e : Edited) : Prop :=
  ∀ suffix, ∀ sent ∈ buildBandPatch suffix e.state.draft e.state.base,
    ∃ f, e.fields f = true ∧ sent.1 = f.key suffix

/-- An observation of a dirty draft shows what the draft shows in every field that was not edited,
unless the draft holds nothing there that could be sent. -/
def Agrees (e : Edited) : Action → Prop
  | .observe observed => isDirty e.state = true → ∀ f, e.fields f = false →
      sameField e.state.draft observed f = true ∨ blank e.state.draft f = true
  | _ => True

/-- The same, field by field. -/
theorem sendsEdits_iff {e : Edited} :
    SendsEdits e ↔ ∀ f, e.fields f = false → sends e.state.draft e.state.base f = false := by
  constructor
  · intro h f hf
    rw [Bool.eq_false_iff]
    intro hs
    obtain ⟨sent, hsent, hname⟩ := List.mem_map.mp (buildBandPatch_keys.mpr ⟨f, hs, rfl⟩)
    obtain ⟨g, hg, hkey⟩ := h .band2g sent hsent
    rw [key_injective (hname.symm.trans hkey), hg] at hf
    cases hf
  · intro h suffix sent hsent
    obtain ⟨f, hs, hname⟩ := buildBandPatch_keys.mp (List.mem_map_of_mem hsent)
    refine ⟨f, ?_, hname.symm⟩
    by_contra hf
    rw [h f (by simpa using hf)] at hs
    cases hs

/-- A draft that is the base is pristine. -/
theorem isDirty_of_eq {s : DraftState} (h : s.draft = s.base) : isDirty s = false := by
  rw [isDirty, h, Bool.not_eq_false']
  exact sameDraft_iff.mpr fun f => by cases f <;> simp [sameField]

/-- A pristine draft sends nothing. -/
theorem sends_of_pristine {s : DraftState} (h : isDirty s = false) (f : Field) :
    sends s.draft s.base f = false := by
  have hsame := sameDraft_iff.mp (by simpa [isDirty] using h) f
  simp [sends, hsame]

/-- Fields an edit does not name stay. -/
theorem sends_onto {patch : BandPatch} {draft base : BandDraft} {f : Field}
    (h : patch.names f = false) : sends (patch.onto draft) base f = sends draft base f := by
  cases f <;>
    simp only [BandPatch.names, Option.isSome_eq_false_iff, Option.isNone_iff_eq_none] at h <;>
    simp [sends, sameField, blank, BandPatch.onto, h]

/-- After an action the fields are counted from new if the draft is pristine. -/
theorem sendsEdits_of_pristine {e : Edited} (h : isDirty e.state = false) : SendsEdits e :=
  sendsEdits_iff.mpr fun f _ => sends_of_pristine h f

/-- An action that leaves the draft and the base alone. -/
theorem sendsEdits_follow {e : Edited} {a : Action} (he : SendsEdits e)
    (h : ∀ f, e.fields f = false → a.names f = false →
      sends (act e.state a).draft (act e.state a).base f = sends e.state.draft e.state.base f) :
    SendsEdits (follow e a) := by
  cases hd : isDirty (act e.state a) with
  | false => exact sendsEdits_of_pristine hd
  | true =>
    refine sendsEdits_iff.mpr fun f hf => ?_
    simp only [follow, hd, if_true, Bool.or_eq_false_iff] at hf
    exact (h f hf.1 hf.2).trans (sendsEdits_iff.mp he f hf.1)

/-- What `sends` compares is what `sameDraft` compares. -/
theorem sends_of_same {draft a b : BandDraft} (h : sameDraft a b = true) (f : Field) :
    sends draft a f = sends draft b f := by
  have hf := sameDraft_iff.mp h f
  cases f <;> simp_all [sends, sameField, blank]

/-- One action keeps what a save sends to the edited fields exactly when it agrees with the rest. -/
theorem sendsEdits_step {e : Edited} (he : SendsEdits e) (a : Action) :
    SendsEdits (follow e a) ↔ Agrees e a := by
  cases a with
  | edit patch =>
    refine iff_of_true (sendsEdits_follow he fun f _ hf => ?_) trivial
    have hdraft : (editDraft e.state patch).draft = patch.onto e.state.draft := by
      unfold editDraft
      dsimp only
      split <;> rfl
    have hbase : (editDraft e.state patch).base = e.state.base := by
      unfold editDraft
      dsimp only
      split <;> rfl
    show sends (editDraft e.state patch).draft (editDraft e.state patch).base f = _
    rw [hdraft, hbase, sends_onto hf]
  | startEditing =>
    refine iff_of_true (sendsEdits_follow he fun f _ _ => ?_) trivial
    show sends (startEditing e.state).draft (startEditing e.state).base f = _
    unfold startEditing
    split <;> rfl
  | cancel =>
    exact iff_of_true (sendsEdits_of_pristine (isDirty_of_eq rfl)) trivial
  | reload =>
    exact iff_of_true (sendsEdits_of_pristine (isDirty_of_eq rfl)) trivial
  | observe observed =>
    by_cases hs : sameDraft e.state.base observed = true
    · -- Nothing moved.
      have hact : act e.state (.observe observed) = e.state := by
        simp [act, reconcileDraft, hs]
      refine iff_of_true (sendsEdits_follow he fun f _ _ => by rw [hact]) fun _ f hf => ?_
      have hno := sendsEdits_iff.mp he f hf
      rw [sends_of_same hs] at hno
      simpa [sends, or_iff_not_imp_left] using hno
    cases hd : isDirty e.state with
    | false =>
      -- A pristine draft follows the device.
      have hact : act e.state (.observe observed) =
          { e.state with draft := observed, base := observed, conflict := false } := by
        simp [act, reconcileDraft, hs, hd]
      refine iff_of_true (sendsEdits_of_pristine (isDirty_of_eq ?_)) fun h => absurd h
        (by simp [hd])
      rw [follow, hact]
    | true =>
      have hact : act e.state (.observe observed) =
          { e.state with base := observed, conflict := !sameDraft e.state.draft observed } := by
        simp [act, reconcileDraft, hs, hd]
      cases hd' : isDirty (act e.state (.observe observed)) with
      | false =>
        -- The device now shows the draft.
        refine iff_of_true (sendsEdits_of_pristine hd') fun _ f _ => .inl ?_
        rw [hact] at hd'
        exact sameDraft_iff.mp (by simpa [isDirty] using hd') f
      | true =>
        rw [sendsEdits_iff]
        simp only [follow, hd', if_true, Action.names, Bool.or_false]
        simp only [hact, Agrees, hd, sends]
        simp [or_iff_not_imp_left]

/-- In every sequence of observations and edits, a save sends edited fields only, exactly as long as
every observation of a dirty draft agrees with it on the fields that were not edited. -/
theorem patch_edited_iff (observed : BandDraft) (as : List Action) :
    Along follow (fun e a => SendsEdits (follow e a)) (opened observed) as ↔
      Along follow Agrees (opened observed) as :=
  along_iff (sendsEdits_of_pristine (isDirty_of_eq rfl)) fun _ a he => sendsEdits_step he a

/-- What a form shows of the device in the example. -/
def sampleBand : BandDraft :=
  { ssid := "Synthetic-WiFi", password := "synthetic-pass", channel := "auto", htmode := "EHT80",
    txpower := "50", hidden := false }

/-- The network is renamed in the form, then the device changes its channel. A save of the name puts
the channel back. -/
theorem stale_field_sent :
    ¬ Along follow (fun e a => SendsEdits (follow e a)) (opened sampleBand)
      [.edit ⟨some "Mine", none, none, none, none, none⟩,
        .observe { sampleBand with channel := "36" }] := by
  intro h
  have hchannel := sendsEdits_iff.mp h.2.1 .channel (by decide +kernel)
  revert hchannel
  decide +kernel

end OpenUI.WebApp.Wifi
