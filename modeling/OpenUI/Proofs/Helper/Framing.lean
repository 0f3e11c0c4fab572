import OpenUI.Helper.Uim

/-!
# `OpenUI.Proofs.Helper.Framing`: QMI messages, encoded and decoded

A message carries the length of its body in 16 bits, and each of its values carries its own. The
message is read back as it was built when the body is at most 65535 bytes, and not otherwise. What
`transmit` adds to an APDU is 13 bytes, which its own check of the length does not count.

* `decodeTlvs_encodeBody`: values, read back one by one.
* `framed_iff`: messages in general.
* `message_framing`: the messages of the transport.
-/

set_option autoImplicit false

namespace OpenUI.Helper.Uim

open OpenUI.Concurrency OpenUI.Euicc

-- The equations are stated here once, before the proofs that rewrite with them.
section
attribute [local simp] decode decodeTlvs
end

/-! ### Lengths -/

/-- The two bytes of a length are read back. -/
theorem le16_leBytes (n : UInt16) : le16 n.toUInt8 (n >>> 8).toUInt8 = n := by
  have hn := n.toNat_lt
  have hhigh : (n >>> 8).toUInt8.toNat = n.toNat / 256 := by
    rw [UInt16.toNat_toUInt8, UInt16.toNat_shiftRight]
    show n.toNat >>> 8 % 256 = _
    rw [Nat.shiftRight_eq_div_pow]
    omega
  have hlow : n.toUInt8.toNat = n.toNat % 256 := UInt16.toNat_toUInt8 n
  apply UInt16.toNat_inj.mp
  rw [le16, UInt16.toNat_or, UInt16.toNat_shiftLeft, UInt8.toNat_toUInt16, UInt8.toNat_toUInt16,
    hhigh, hlow]
  show n.toNat % 256 ||| (n.toNat / 256) <<< 8 % 65536 = _
  have hfits : (n.toNat / 256) <<< 8 % 65536 = (n.toNat / 256) <<< 8 := by
    apply Nat.mod_eq_of_lt
    rw [Nat.shiftLeft_eq]
    omega
  rw [hfits, Nat.or_comm, ← Nat.shiftLeft_add_eq_or_of_lt (by omega), Nat.shiftLeft_eq]
  omega

/-- How many bytes values take. -/
def bodyLength : Tlvs → Nat
  | [] => 0
  | p :: tlvs => 3 + p.2.length + bodyLength tlvs

theorem encodeBody_length (tlvs : Tlvs) : (encodeBody tlvs).length = bodyLength tlvs := by
  induction tlvs with
  | nil => rfl
  | cons p tlvs ih =>
    rw [encodeBody, List.flatMap_cons, List.length_append]
    show _ + (encodeBody tlvs).length = 3 + p.2.length + bodyLength tlvs
    rw [ih]
    simp [leBytes]
    omega

theorem toNat_ofNat_le {n : Nat} (h : n ≤ 65535) : (UInt16.ofNat n).toNat = n := by
  rw [UInt16.toNat_ofNat']
  exact Nat.mod_eq_of_lt (by omega)

/-! ### Reading a body -/

/-- A value in front. -/
theorem encodeBody_cons (t : UInt8) (v : Bytes) (tlvs : Tlvs) :
    encodeBody ((t, v) :: tlvs) =
      t :: (UInt16.ofNat v.length).toUInt8 :: (UInt16.ofNat v.length >>> 8).toUInt8 ::
        (v ++ encodeBody tlvs) := rfl

/-- Values are read back one by one. -/
theorem decodeTlvs_encodeBody {tlvs : Tlvs} (h : bodyLength tlvs ≤ 65535) {turns : Nat}
    (hturns : bodyLength tlvs ≤ turns) : decodeTlvs turns (encodeBody tlvs) = some tlvs := by
  induction tlvs generalizing turns with
  | nil => cases turns <;> rfl
  | cons p tlvs ih =>
    have hsum : bodyLength (p :: tlvs) = 3 + p.2.length + bodyLength tlvs := rfl
    rw [hsum] at h hturns
    cases turns with
    | zero => omega
    | succ turns =>
      -- The length that was written is read back, as it is less than that of the body.
      rw [encodeBody_cons, decodeTlvs, le16_leBytes, toNat_ofNat_le (by omega),
        if_neg (by rw [List.length_append]; omega), List.drop_left, List.take_left,
        ih (by omega) (by omega)]
      rfl

/-- What was read takes as many bytes as there were. -/
theorem bodyLength_decodeTlvs {turns : Nat} {body : Bytes} {tlvs : Tlvs}
    (h : decodeTlvs turns body = some tlvs) : bodyLength tlvs = body.length := by
  induction turns generalizing body tlvs with
  | zero =>
    cases body with
    | nil =>
      cases h
      rfl
    | cons b body => simp [decodeTlvs] at h
  | succ turns ih =>
    -- One or two bytes are no header: nothing is decoded of them.
    rcases body with _ | ⟨t, _ | ⟨low, _ | ⟨high, rest⟩⟩⟩
    · cases h
      rfl
    · cases h
    · cases h
    · rw [decodeTlvs] at h
      split at h
      · cases h
      · rename_i henough
        obtain ⟨tlvs, htlvs, rfl⟩ := Option.map_eq_some_iff.mp h
        have hrest := ih htlvs
        show 3 + (rest.take _).length + bodyLength tlvs = _
        rw [hrest, List.length_take, List.length_drop]
        simp only [List.length_cons]
        omega

/-- More turns than bytes change nothing: the loop ends by itself. -/
theorem decodeTlvs_enough {turns : Nat} {body : Bytes} (h : body.length ≤ turns) :
    decodeTlvs turns body = decodeTlvs body.length body := by
  -- Induction on the smaller number of turns, for every body that is not longer.
  have hkey : ∀ (n turns : Nat) (body : Bytes), body.length ≤ n → n ≤ turns →
      decodeTlvs turns body = decodeTlvs n body := by
    intro n
    induction n with
    | zero =>
      intro turns body hbody _
      have hnil : body = [] := List.eq_nil_of_length_eq_zero (by omega)
      rw [hnil, decodeTlvs, decodeTlvs]
    | succ n ih =>
      intro turns body hbody hturns
      obtain ⟨turns, rfl⟩ : ∃ m, turns = m + 1 := ⟨turns - 1, by omega⟩
      rcases body with _ | ⟨t, _ | ⟨low, _ | ⟨high, rest⟩⟩⟩
      · rfl
      · rfl
      · rfl
      · simp only [List.length_cons] at hbody
        rw [decodeTlvs, decodeTlvs, ih turns _ (by rw [List.length_drop]; omega) (by omega)]
  exact hkey body.length turns body (Nat.le_refl _) h

/-! ### Messages -/

/-- A message is read back as it was built, and every length in it is that of what it counts. -/
structure Framed (kind : UInt8) (txn msgId : UInt16) (tlvs : Tlvs) : Prop where
  decoded : decode (encode kind txn msgId tlvs) = some { kind, txn, msgId, tlvs }
  values : ∀ p ∈ tlvs, (UInt16.ofNat p.2.length).toNat = p.2.length
  body : (UInt16.ofNat (encodeBody tlvs).length).toNat = (encodeBody tlvs).length

theorem decode_encode (kind : UInt8) (txn msgId : UInt16) (tlvs : Tlvs) :
    decode (encode kind txn msgId tlvs) =
      let length := (UInt16.ofNat (bodyLength tlvs)).toNat
      (decodeTlvs length ((encodeBody tlvs).take length)).map fun tlvs =>
        { kind, txn, msgId, tlvs } := by
  -- The length field never says more than there is, even where it wrapped around.
  have hshort : ¬ (encodeBody tlvs).length < (UInt16.ofNat (encodeBody tlvs).length).toNat := by
    rw [UInt16.toNat_ofNat']
    have := Nat.mod_le (encodeBody tlvs).length 65536
    omega
  show decode (kind :: txn.toUInt8 :: (txn >>> 8).toUInt8 :: msgId.toUInt8 ::
    (msgId >>> 8).toUInt8 :: (UInt16.ofNat (encodeBody tlvs).length).toUInt8 ::
      (UInt16.ofNat (encodeBody tlvs).length >>> 8).toUInt8 :: encodeBody tlvs) = _
  rw [decode, le16_leBytes, le16_leBytes, le16_leBytes, if_neg hshort, encodeBody_length]

theorem length_le_bodyLength {tlvs : Tlvs} {p : UInt8 × Bytes} (h : p ∈ tlvs) :
    p.2.length ≤ bodyLength tlvs := by
  induction tlvs with
  | nil => cases h
  | cons q tlvs ih =>
    show _ ≤ 3 + q.2.length + bodyLength tlvs
    rcases List.mem_cons.mp h with rfl | h
    · omega
    · have hrest := ih h
      omega

/-- Any message: it is framed when its body is not too long, and only then. -/
theorem framed_iff (kind : UInt8) (txn msgId : UInt16) (tlvs : Tlvs) :
    Framed kind txn msgId tlvs ↔ bodyLength tlvs ≤ 65535 := by
  constructor
  · intro h
    -- A length field that is right is below 65536.
    have hbody := h.body
    have hlt := (UInt16.ofNat (encodeBody tlvs).length).toNat_lt
    rw [encodeBody_length] at hbody hlt
    omega
  · intro h
    refine ⟨?_, ?_, ?_⟩
    · rw [decode_encode, toNat_ofNat_le h]
      dsimp only
      rw [List.take_of_length_le (by rw [encodeBody_length]), decodeTlvs_encodeBody h (by omega)]
      rfl
    · intro p hp
      have hle := length_le_bodyLength hp
      exact toNat_ofNat_le (by omega)
    · rw [encodeBody_length]
      exact toNat_ofNat_le h

/-- A message whose body is too long is not even read back. -/
theorem decode_ne {kind : UInt8} {txn msgId : UInt16} {tlvs : Tlvs}
    (h : 65535 < bodyLength tlvs) :
    decode (encode kind txn msgId tlvs) ≠ some { kind, txn, msgId, tlvs } := by
  intro hback
  rw [decode_encode] at hback
  obtain ⟨tlvs', htlvs, heq⟩ := Option.map_eq_some_iff.mp hback
  have hsame : tlvs' = tlvs := congrArg Message.tlvs heq
  -- Whatever is read back takes no more bytes than the length field says.
  have hread := bodyLength_decodeTlvs htlvs
  have hlt := (UInt16.ofNat (bodyLength tlvs)).toNat_lt
  rw [hsame, List.length_take] at hread
  omega

/-! ### The transport -/

/-- The messages the transport builds: opening a channel, closing it, and an APDU. -/
inductive Built : UInt16 → Tlvs → Prop where
  | openChannel (slot : UInt8) (aid : Bytes) (h : aid.length ≤ 255) :
    Built uimOpenLogicalChannel [(0x01, [slot]), (0x10, UInt8.ofNat aid.length :: aid)]
  | closeChannel (slot channel : UInt8) :
    Built uimLogicalChannel [(0x01, [slot]), (0x11, [channel])]
  | transmit (slot channel : UInt8) (apdu : Bytes) (h : apdu.length ≤ 65535) :
    Built uimSendApdu [(0x01, [slot]),
      (0x02, leBytes (UInt16.ofNat apdu.length) ++ apdu), (0x10, [channel])]

/-- A call that asks for nothing else. -/
def Call.Builds {β : Type} : Call β → Prop
  | .request _ msgId tlvs _ => Built msgId tlvs
  | _ => True

section Builds

variable {c : UimClient}

theorem builds_requestUntil {msgId : UInt16} {tlvs : Tlvs} {cancellable : Bool}
    (h : Built msgId tlvs) : (c.requestUntil msgId tlvs cancellable).Only Call.Builds :=
  Program.Only.act h fun _ => trivial

theorem builds_openChannel (aid : Bytes) : (c.openChannel aid).Only Call.Builds := by
  rw [UimClient.openChannel]
  split
  · trivial
  · -- The source refuses an AID that is too long before it builds the request.
    rename_i hstate
    apply Program.Only.bind (builds_requestUntil (.openChannel c.slot aid (by omega)))
    rintro ⟨out, c⟩
    cases out with
    | error e =>
      dsimp only
      split
      · trivial
      · exact Program.Only.act trivial fun _ => trivial
    | ok out =>
      dsimp only
      split
      · trivial
      · split
        · trivial
        · exact Program.Only.act trivial fun _ => trivial

theorem builds_closeChannel (channel : UInt8) : (c.closeChannel channel).Only Call.Builds := by
  rw [UimClient.closeChannel]
  split
  · trivial
  · apply Program.Only.bind (builds_requestUntil (.closeChannel c.slot channel))
    rintro ⟨out, c⟩
    cases out with
    | error e => exact Program.Only.act trivial fun _ => trivial
    | ok out => trivial

theorem builds_transmit (apdu : Bytes) : (c.transmit apdu).Only Call.Builds := by
  rw [UimClient.transmit]
  split
  · trivial
  · rename_i channel hchannel
    split
    · trivial
    · rename_i hlong
      apply Program.Only.bind (builds_requestUntil (.transmit c.slot channel apdu (by omega)))
      rintro ⟨out, c⟩
      cases out with
      | error e => trivial
      | ok out => trivial

end Builds

/-- What `transmit` adds to an APDU. -/
theorem bodyLength_apdu (slot channel : UInt8) (apdu : Bytes) :
    bodyLength [(0x01, [slot]), (0x02, leBytes (UInt16.ofNat apdu.length) ++ apdu),
      (0x10, [channel])] = apdu.length + 13 := by
  show 3 + 1 + (3 + (apdu.length + 2) + (3 + 1 + 0)) = _
  omega

/-- The messages of the transport. One that opens or closes a channel is always framed, and one
with an APDU when the APDU is at most 65522 bytes, and only then. Decoding always ends. -/
theorem message_framing (kind : UInt8) (txn : UInt16) :
    (∀ msgId tlvs, Framed kind txn msgId tlvs ↔ bodyLength tlvs ≤ 65535) ∧
    (∀ (slot : UInt8) (aid : Bytes), aid.length ≤ 255 → Framed kind txn uimOpenLogicalChannel
      [(0x01, [slot]), (0x10, UInt8.ofNat aid.length :: aid)]) ∧
    (∀ slot channel : UInt8,
      Framed kind txn uimLogicalChannel [(0x01, [slot]), (0x11, [channel])]) ∧
    (∀ (slot channel : UInt8) (apdu : Bytes), Framed kind txn uimSendApdu [(0x01, [slot]),
        (0x02, leBytes (UInt16.ofNat apdu.length) ++ apdu), (0x10, [channel])] ↔
      apdu.length ≤ 65522) ∧
    (∀ c : UimClient, (∀ aid, (c.openChannel aid).Only Call.Builds) ∧
      (∀ channel, (c.closeChannel channel).Only Call.Builds) ∧
      ∀ apdu, (c.transmit apdu).Only Call.Builds) ∧
    ∀ turns body, body.length ≤ turns → decodeTlvs turns body = decodeTlvs body.length body := by
  refine ⟨framed_iff kind txn, ?_, ?_, ?_, ?_, ?_⟩
  · intro slot aid haid
    apply (framed_iff _ _ _ _).mpr
    show 3 + 1 + (3 + (aid.length + 1) + 0) ≤ 65535
    omega
  · intro slot channel
    apply (framed_iff _ _ _ _).mpr
    show 3 + 1 + (3 + 1 + 0) ≤ 65535
    omega
  · intro slot channel apdu
    rw [framed_iff, bodyLength_apdu]
    omega
  · intro c
    exact ⟨builds_openChannel, builds_closeChannel, builds_transmit⟩
  · intro turns body h
    exact decodeTlvs_enough h

/-- Opening a channel for a short AID. -/
theorem message_framing_open :
    Framed 0 1 uimOpenLogicalChannel [(0x01, [1]), (0x10, [2, 0xA0, 0x00])] :=
  (message_framing 0 1).2.1 1 [0xA0, 0x00] (by decide)

/-- The longest APDU that `transmit` lets through. -/
def longestApdu : Bytes := List.replicate 65535 0

/-- The message of the longest APDU is not read back as it was built. -/
theorem longest_apdu_broken :
    ¬ 65535 < longestApdu.length ∧
    decode (encode 0 1 uimSendApdu [(0x01, [1]),
        (0x02, leBytes (UInt16.ofNat longestApdu.length) ++ longestApdu), (0x10, [1])]) ≠
      some { kind := 0, txn := 1, msgId := uimSendApdu, tlvs := [(0x01, [1]),
        (0x02, leBytes (UInt16.ofNat longestApdu.length) ++ longestApdu), (0x10, [1])] } := by
  have hlength : longestApdu.length = 65535 := List.length_replicate
  refine ⟨by omega, decode_ne ?_⟩
  rw [bodyLength_apdu, hlength]
  omega

end OpenUI.Helper.Uim
