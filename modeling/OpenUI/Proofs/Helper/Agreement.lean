import OpenUI.Agent.Esim.Manager
import OpenUI.Helper.Arguments

/-!
# `OpenUI.Proofs.Helper.Agreement`: the two programs' checks of what a user asks

The agent checks an activation code, a confirmation code and a nickname before it starts the
helper, and the helper checks them again. The codes get the same verdict from both. The two tables
of invisible format characters differ: the helper's has the ranges of `omittedChar` besides.

* `checkActivationCode_iff`: activation codes.
* `confirmation_agrees`: confirmation codes, which the agent sends trimmed.
* `nickname_agrees`: nicknames, exactly when no omitted character decides.
-/

set_option autoImplicit false

namespace OpenUI.Helper

open OpenUI.Json OpenUI.Text OpenUI.Agent

/-- The format characters of the helper's table that the agent's does not have: Kaithi number signs,
Egyptian hieroglyph, shorthand and musical format controls. -/
def omittedChar (c : Char) : Bool :=
  let n := c.toNat
  n == 0x110BD || n == 0x110CD || (0x13430 ≤ n && n ≤ 0x1343F) || (0x1BCA0 ≤ n && n ≤ 0x1BCA3)
    || (0x1D173 ≤ n && n ≤ 0x1D17A)

/-! ### What agreement means -/

/-- The agent accepts an activation code, needing a confirmation code or not, exactly when the
helper does. -/
def ActivationCodesAgree (code : String) : Prop :=
  ∀ b, Esim.checkActivationCode code = .ok b ↔
    ∃ parsed, parseActivationCode code = .ok parsed ∧ parsed.confirmationRequired = b

/-- The agent starts a download with the confirmation code `code` exactly when the helper accepts
what the agent would send. -/
def ConfirmationCodesAgree (code : String) : Prop :=
  ∀ body, body.get "confirmation_code" = .str code →
    ((body.get "operation_id").asStr.any Esim.validOperationId) = true →
    (∃ activation, (body.get "activation_code").asStr = some activation ∧
      ∃ b, Esim.checkActivationCode activation = .ok b) →
    ((∃ id activation, Esim.checkDownload body = .ok (id, activation, some (trim code))) ↔
      validConfirmationCode (trim code) = true)

/-- The agent accepts a nickname exactly when the helper does. -/
def NicknamesAgree (name : String) : Prop :=
  Esim.validNickname name = .ok () ↔ validNickname name = .ok ()

/-! ### Activation codes -/

theorem validAddress_eq : validAddress = Esim.validServerAddress := rfl

theorem checkActivationCode_iff (code : String) : ActivationCodesAgree code := by
  intro b
  unfold Esim.checkActivationCode parseActivationCode
  generalize trim code = c
  have hhead : (splitChar '$' c).head?.map (fun f => eqIgnoreAsciiCase f "LPA:1") ≠ some true ↔
      (!eqIgnoreAsciiCase ((splitChar '$' c).headD "") "LPA:1") = true := by
    cases splitChar '$' c with
    | nil => simp only [List.head?_nil, Option.map_none, List.headD_nil]; decide
    | cons f fs => simp
  have hmax (n : Nat) : decide (maxCodeBytes < n) = decide (Esim.maxActivationCode < n) := rfl
  simp only [validAddress_eq, hmax, hhead]
  by_cases hempty : c.isEmpty = true
  · -- An empty code has no `LPA:1` field.
    have hc : c = "" := String.isEmpty_iff.mp hempty
    subst hc
    refine ⟨fun h => ?_, ?_⟩
    · simp at h
    · rintro ⟨parsed, h, -⟩
      rw [if_neg (by decide), if_pos (by decide)] at h
      cases h
  · simp only [hempty, Bool.false_or]
    cases hlong : (decide (Esim.maxActivationCode < c.utf8ByteSize) || c.toList.any isControl) with
    | true => simp only [if_true, reduceCtorEq, false_and, exists_false]
    | false =>
      cases hlpa : eqIgnoreAsciiCase ((splitChar '$' c).headD "") "LPA:1" with
      | false => simp
      | true =>
        by_cases hfields : (splitChar '$' c).length < 3
        · simp [hfields]
        · by_cases hserver : Esim.validServerAddress (trim ((splitChar '$' c).getD 1 "")) = true
          · simp only [hfields, hserver, if_false, Bool.false_eq_true, Bool.not_true,
              Except.ok.injEq, exists_eq_left']
          · simp only [hfields, hserver, if_false, if_true, Bool.false_eq_true, Bool.not_true,
              Bool.not_false, reduceCtorEq, false_and, exists_false]

/-! ### Confirmation codes -/

theorem confirmation_agrees (code : String) : ConfirmationCodesAgree code := by
  rintro body hcode hid ⟨activation, hactivation, needs, hok⟩
  obtain ⟨id, hget, hvalid⟩ := (Option.any_eq_true _ _).mp hid
  have hid' : (body.get "operation_id").asStr.filter Esim.validOperationId = some id :=
    Option.filter_eq_some_iff.mpr ⟨hget, hvalid⟩
  have hopt : optText (body.get "confirmation_code") =
      if (trim code).isEmpty then none else some (trim code) := by
    rw [hcode, optText, Value.asStr, Option.map_some, Option.filter_some]
    cases (trim code).isEmpty <;> rfl
  unfold Esim.checkDownload validConfirmationCode
  simp only [hid', hactivation, hok, hopt]
  cases hempty : (trim code).isEmpty with
  | true =>
    simp only [if_true]
    split <;> simp
  | false =>
    have hlong : decide (Esim.maxConfirmationCode < (trim code).utf8ByteSize) =
        !decide ((trim code).utf8ByteSize ≤ maxConfirmationBytes) := by
      rw [← decide_not, decide_eq_decide]
      exact Nat.not_le.symm
    simp only [Bool.false_eq_true, if_false, hlong]
    generalize decide ((trim code).utf8ByteSize ≤ maxConfirmationBytes) = short
    generalize (trim code).toList.any isControl = control
    cases short <;> cases control <;> simp

/-! ### Nicknames -/

/-- The helper's table is the agent's and the omitted characters. -/
theorem isFormatChar_eq (c : Char) : isFormatChar c = (Esim.formatChar c || omittedChar c) := by
  -- the omitted alternatives stand in the middle of the helper's table
  have hmiddle : ∀ p a b c d e q r : Bool,
      (p || a || b || c || d || e || q || r) = (p || q || r || (a || b || c || d || e)) := by
    intro p a b c d e q r
    cases p <;> cases q <;> cases r <;> simp
  exact hmiddle _ _ _ _ _ _ _ _

theorem validNickname_ok (name : String) : validNickname name = .ok () ↔
    ¬ 64 < name.utf8ByteSize ∧ name.toList.any (fun c => isControl c || isFormatChar c) =
      false := by
  unfold validNickname nicknameMaxBytes
  by_cases hlong : 64 < name.utf8ByteSize
  · simp [hlong]
  · cases name.toList.any (fun c => isControl c || isFormatChar c) <;> simp [hlong]

theorem agent_validNickname_ok (name : String) : Esim.validNickname name = .ok () ↔
    ¬ 64 < name.utf8ByteSize ∧
      name.toList.any (fun c => isControl c || Esim.formatChar c) = false := by
  unfold Esim.validNickname
  by_cases hlong : 64 < name.utf8ByteSize
  · simp [hlong]
  · cases name.toList.any (fun c => isControl c || Esim.formatChar c) <;> simp [hlong]

/-- The helper refuses the characters the agent refuses, and the omitted ones. -/
theorem any_isFormatChar (l : List Char) : l.any (fun c => isControl c || isFormatChar c) =
    (l.any (fun c => isControl c || Esim.formatChar c) || l.any omittedChar) := by
  induction l with
  | nil => rfl
  | cons c cs ih =>
    simp only [isFormatChar_eq] at ih
    simp only [List.any_cons, isFormatChar_eq, ih]
    ac_rfl

/-- The nickname checks give the same verdict exactly when the name has no omitted character, or is
refused anyway. -/
theorem nickname_agrees (name : String) :
    NicknamesAgree name ↔ name.toList.any omittedChar = false ∨ 64 < name.utf8ByteSize ∨
      name.toList.any (fun c => isControl c || Esim.formatChar c) = true := by
  rw [NicknamesAgree, validNickname_ok, agent_validNickname_ok, any_isFormatChar]
  generalize name.toList.any omittedChar = omitted
  generalize name.toList.any (fun c => isControl c || Esim.formatChar c) = listed
  cases omitted <;> cases listed <;> simp

/-- **The two programs' checks.** The checks of activation codes and of confirmation codes agree on
every text. Those of nicknames do exactly when the name has no omitted character, or is too long,
or has a character that both tables list. -/
theorem checks_agree (activation confirmation name : String) :
    ActivationCodesAgree activation ∧ ConfirmationCodesAgree confirmation ∧ NicknamesAgree name ↔
      name.toList.any omittedChar = false ∨ 64 < name.utf8ByteSize ∨
        name.toList.any (fun c => isControl c || Esim.formatChar c) = true := by
  rw [and_iff_right (checkActivationCode_iff activation),
    and_iff_right (confirmation_agrees confirmation), nickname_agrees]

/-- `Data` and U+1D173, a musical format control. -/
def musicalName : String := String.ofList ['D', 'a', 't', 'a', Char.ofNat 0x1D173]

/-- The agent admits a nickname that the helper refuses. -/
theorem musical_name_split : Esim.validNickname musicalName = .ok () ∧
    validNickname musicalName =
      .error "nickname contains control or invisible formatting characters" ∧
    ¬ NicknamesAgree musicalName := by
  have hagent : Esim.validNickname musicalName = .ok () := by decide
  have hhelper : validNickname musicalName =
      .error "nickname contains control or invisible formatting characters" := by decide
  refine ⟨hagent, hhelper, fun h => ?_⟩
  have hok := h.mp hagent
  rw [hhelper] at hok
  cases hok

end OpenUI.Helper
