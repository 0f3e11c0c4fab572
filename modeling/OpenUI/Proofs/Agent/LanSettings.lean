import OpenUI.Agent.Lan
import Mathlib.Data.Nat.Bitwise

/-!
# `OpenUI.Proofs.Agent.LanSettings`: what accepted LAN settings promise

`validate_lan_settings` looks at the ends of the DHCP range only, and asks only the router's own
address to be private.

* `isPrefixMask_of_contiguous`: what the test of the mask means.
* `same_network_of_between`: what lies between two addresses of a subnet is in it.
* `isPrivate_of_between`: a /8 holds one private block at most, so a range with private ends is
  private.
* `lawful_iff_private_ends`: accepted settings serve what they should exactly if both ends of the
  range are private; `public_range_accepted` has one that is not.
-/

set_option autoImplicit false

namespace OpenUI.Agent.Lan

open OpenUI.Text

/-! ### The law -/

/-- The top `p` bits are ones, and no others. -/
def IsPrefixMask (p : Nat) (mask : UInt32) : Prop :=
  ∀ i < 32, mask.toNat.testBit i = decide (32 ≤ i + p)

instance (p : Nat) (mask : UInt32) : Decidable (IsPrefixMask p mask) :=
  inferInstanceAs (Decidable (∀ i < 32, mask.toNat.testBit i = decide (32 ≤ i + p)))

/-- An address that a router at `ip` may hand out. -/
structure Assignable (ip mask a : UInt32) : Prop where
  inSubnet : a &&& mask = ip &&& mask
  isPrivate : isPrivate a = true
  notNetwork : a ≠ ip &&& mask
  notBroadcast : a ≠ (ip &&& mask) ||| ~~~mask
  notRouter : a ≠ ip

/-- The four addresses of the settings. -/
structure LanSettings.Reads (settings : LanSettings) (ip mask start stop : UInt32) : Prop where
  ipaddr : parseIpv4 settings.ipaddr = some ip
  netmask : parseIpv4 settings.netmask = some mask
  dhcpStart : parseIpv4 settings.dhcpStart = some start
  dhcpEnd : parseIpv4 settings.dhcpEnd = some stop

/-- The mask is contiguous and between /8 and /30, and every address from the start of the range to
its end can be handed out. -/
def LanSettings.Lawful (settings : LanSettings) : Prop :=
  ∃ ip mask start stop, settings.Reads ip mask start stop ∧
    (∃ p, 8 ≤ p ∧ p ≤ 30 ∧ IsPrefixMask p mask) ∧
    ∀ a, start ≤ a → a ≤ stop → Assignable ip mask a

/-- Both ends of the range are private. -/
def LanSettings.PrivateEnds (settings : LanSettings) : Prop :=
  ∃ start stop, parseIpv4 settings.dhcpStart = some start ∧
    parseIpv4 settings.dhcpEnd = some stop ∧ isPrivate start = true ∧ isPrivate stop = true

/-! ### Masks -/

/-- The bits of an address beyond the 32nd are zeros. -/
theorem testBit_eq_false (a : UInt32) {i : Nat} (h : 32 ≤ i) : a.toNat.testBit i = false :=
  Nat.testBit_lt_two_pow (Nat.lt_of_lt_of_le a.toNat_lt (Nat.pow_le_pow_right (by decide) h))

/-- The masks whose complement is one less than a power of two. -/
theorem isPrefixMask_shiftLeft :
    ∀ k < 33, IsPrefixMask (32 - k) (~~~UInt32.ofNat (1 <<< k - 1)) ∧
      countOnes (~~~UInt32.ofNat (1 <<< k - 1)) = 32 - k := by
  decide +kernel

/-- A mask whose complement has no bit in common with its successor is a prefix. -/
theorem isPrefixMask_of_contiguous {mask : UInt32} (h : ~~~mask &&& (~~~mask + 1) = 0) :
    IsPrefixMask (countOnes mask) mask := by
  -- A complement of all ones is followed by zero; any other is one less than a power of two.
  have hpower : ∃ k < 33, mask = ~~~UInt32.ofNat (1 <<< k - 1) := by
    by_cases hall : ~~~mask = 0xFFFFFFFF
    · refine ⟨32, by decide, ?_⟩
      rw [← UInt32.not_not (a := mask), hall]
      rfl
    · have hlt : (~~~mask).toNat + 1 < UInt32.size := by
        have hne : (~~~mask).toNat ≠ 0xFFFFFFFF := fun heq => hall (UInt32.toNat_inj.mp heq)
        have hbound := (~~~mask).toNat_lt
        have hsize : UInt32.size = 4294967296 := rfl
        omega
      have hsucc : (~~~mask + 1).toNat = (~~~mask).toNat + 1 := by
        rw [UInt32.toNat_add]
        exact Nat.mod_eq_of_lt hlt
      have hand : ((~~~mask).toNat + 1) &&& ((~~~mask).toNat + 1 - 1) = 0 := by
        rw [Nat.add_sub_cancel, Nat.and_comm, ← hsucc, ← UInt32.toNat_and, h]
        rfl
      obtain ⟨k, hk⟩ := (Nat.and_sub_one_eq_zero_iff_isPowerOfTwo (Nat.succ_ne_zero _)).mp hand
      rw [← Nat.one_shiftLeft] at hk
      refine ⟨k, ?_, ?_⟩
      · by_contra hlarge
        have hle : 1 <<< 32 ≤ 1 <<< k := by
          rw [Nat.one_shiftLeft, Nat.one_shiftLeft]
          exact Nat.pow_le_pow_right (by decide) (by omega)
        rw [← hk] at hle
        exact absurd hlt (Nat.not_lt.mpr hle)
      · rw [← hk, Nat.succ_sub_one, UInt32.ofNat_toNat, UInt32.not_not]
  obtain ⟨k, hk, rfl⟩ := hpower
  obtain ⟨hshape, hones⟩ := isPrefixMask_shiftLeft k hk
  rw [hones]
  exact hshape

section Prefix

variable {p : Nat} {mask : UInt32}

/-- Under a prefix, two addresses are in one subnet if they agree above its host bits. -/
theorem and_eq_and_iff (h : IsPrefixMask p mask) (hp : p ≤ 32) (a b : UInt32) :
    a &&& mask = b &&& mask ↔ a.toNat >>> (32 - p) = b.toNat >>> (32 - p) := by
  rw [← UInt32.toNat_inj, UInt32.toNat_and, UInt32.toNat_and]
  constructor
  · intro hand
    refine Nat.eq_of_testBit_eq fun i => ?_
    rw [Nat.testBit_shiftRight, Nat.testBit_shiftRight]
    by_cases hi : 32 - p + i < 32
    · have hbit := congrArg (fun n : Nat => n.testBit (32 - p + i)) hand
      have hmask : 32 ≤ 32 - p + i + p := by omega
      simpa only [Nat.testBit_and, h _ hi, decide_eq_true hmask, Bool.and_true] using hbit
    · rw [testBit_eq_false a (by omega), testBit_eq_false b (by omega)]
  · intro hshift
    refine Nat.eq_of_testBit_eq fun i => ?_
    rw [Nat.testBit_and, Nat.testBit_and]
    by_cases hi : i < 32
    · rw [h i hi]
      by_cases hmask : 32 ≤ i + p
      · have hbit := congrArg (fun n : Nat => n.testBit (i - (32 - p))) hshift
        simp only [Nat.testBit_shiftRight] at hbit
        rw [show 32 - p + (i - (32 - p)) = i by omega] at hbit
        rw [hbit]
      · rw [decide_eq_false hmask, Bool.and_false, Bool.and_false]
    · rw [testBit_eq_false mask (by omega), Bool.and_false, Bool.and_false]

/-- What lies between two addresses of a subnet is in the subnet. -/
theorem same_network_of_between (h : IsPrefixMask p mask) (hp : p ≤ 32) {start stop a : UInt32}
    (hends : start &&& mask = stop &&& mask) (hstart : start ≤ a) (hstop : a ≤ stop) :
    a &&& mask = start &&& mask := by
  rw [and_eq_and_iff h hp] at hends ⊢
  simp only [Nat.shiftRight_eq_div_pow] at hends ⊢
  apply Nat.le_antisymm
  · rw [hends]
    exact Nat.div_le_div_right (UInt32.le_iff_toNat_le.mp hstop)
  · exact Nat.div_le_div_right (UInt32.le_iff_toNat_le.mp hstart)

/-- The first octets of a subnet's addresses agree, if the prefix holds an octet. -/
theorem octet_eq_of_and_eq (h : IsPrefixMask p mask) (hp : p ≤ 32) (hoctet : 8 ≤ p)
    {a b : UInt32} (hand : a &&& mask = b &&& mask) : a.toNat >>> 24 = b.toNat >>> 24 := by
  have hshift := (and_eq_and_iff h hp a b).mp hand
  have hsplit : 24 = 32 - p + (p - 8) := by omega
  rw [hsplit, Nat.shiftRight_add, Nat.shiftRight_add, hshift]

end Prefix

/-- An address of a network comes before its broadcast address. -/
theorem le_broadcast (a mask : UInt32) : a ≤ (a &&& mask) ||| ~~~mask := by
  rw [UInt32.le_iff_toNat_le]
  refine Nat.le_of_testBit fun i hi => ?_
  have hlt : i < 32 := by
    by_contra hlarge
    rw [testBit_eq_false a (by omega)] at hi
    cases hi
  have hnot : (~~~mask).toNat.testBit i = !mask.toNat.testBit i := by
    rw [← UInt32.toNat_toBitVec, UInt32.toBitVec_not, BitVec.testBit_toNat, BitVec.getLsbD_not,
      decide_eq_true hlt, Bool.true_and, ← BitVec.testBit_toNat, UInt32.toNat_toBitVec]
  rw [UInt32.toNat_or, UInt32.toNat_and, Nat.testBit_or, Nat.testBit_and, hi, hnot]
  cases mask.toNat.testBit i <;> rfl

/-! ### Private blocks -/

theorem isPrivate_iff (a : UInt32) : isPrivate a = true ↔
    a.toNat >>> 24 = 10 ∨ a.toNat >>> 20 = 0xAC1 ∨ a.toNat >>> 16 = 0xC0A8 := by
  simp [isPrivate, ← UInt32.toNat_inj, or_assoc]

/-- A /8 holds one private block at most. -/
theorem isPrivate_of_between {start stop a : UInt32}
    (hoctet : start.toNat >>> 24 = stop.toNat >>> 24) (hstart : start ≤ a) (hstop : a ≤ stop)
    (hfirst : isPrivate start = true) (hlast : isPrivate stop = true) : isPrivate a = true := by
  rw [isPrivate_iff] at hfirst hlast ⊢
  rw [UInt32.le_iff_toNat_le] at hstart hstop
  simp only [Nat.shiftRight_eq_div_pow] at *
  omega

/-! ### Accepted settings -/

/-- What the settings that are accepted have passed. -/
structure Checked (settings : LanSettings) (ip mask start stop : UInt32) : Prop where
  reads : settings.Reads ip mask start stop
  isPrivate : isPrivate ip = true
  contiguous : ~~~mask &&& (~~~mask + 1) = 0
  short : 8 ≤ countOnes mask
  long : countOnes mask ≤ 30
  startSubnet : start &&& mask = ip &&& mask
  stopSubnet : stop &&& mask = ip &&& mask
  ascending : start < stop
  notNetwork : start ≠ ip &&& mask
  notBroadcast : stop ≠ (ip &&& mask) ||| ~~~mask
  notRouter : ¬(start ≤ ip ∧ ip ≤ stop)

theorem checked_of_accepted {settings : LanSettings} (h : validateLanSettings settings = .ok ()) :
    ∃ ip mask start stop, Checked settings ip mask start stop := by
  unfold validateLanSettings at h
  split at h
  · cases h
  · cases h
  · cases h
  · cases h
  · rename_i ip mask start stop hip hmask hstart hstop
    simp only [] at h
    split_ifs at h with hprivate hcontiguous hhost hsubnet hrange hrouter hlease
    refine ⟨ip, mask, start, stop, ⟨hip, hmask, hstart, hstop⟩, ?_, ?_, ?_, ?_, ?_, ?_, ?_, ?_, ?_,
      hrouter⟩
    · simpa using hprivate
    · by_contra hne
      exact hcontiguous (Or.inl hne)
    · by_contra hlt
      exact hcontiguous (Or.inr (Or.inl (by omega)))
    · by_contra hlt
      exact hcontiguous (Or.inr (Or.inr (by omega)))
    · by_contra hne
      exact hsubnet (Or.inl hne)
    · by_contra hne
      exact hsubnet (Or.inr hne)
    · by_contra hle
      exact hrange (Or.inl (UInt32.not_lt.mp hle))
    · intro heq
      exact hrange (Or.inr (Or.inl heq))
    · intro heq
      exact hrange (Or.inr (Or.inr heq))

namespace Checked

variable {settings : LanSettings} {ip mask start stop : UInt32}

theorem isPrefixMask (h : Checked settings ip mask start stop) :
    IsPrefixMask (countOnes mask) mask :=
  isPrefixMask_of_contiguous h.contiguous

/-- Everything but the privacy of the range follows from the checks at its ends. -/
theorem assignable (h : Checked settings ip mask start stop) {a : UInt32} (hstart : start ≤ a)
    (hstop : a ≤ stop) (hprivate : Lan.isPrivate a = true) : Assignable ip mask a where
  inSubnet := by
    have hends : start &&& mask = stop &&& mask := h.startSubnet.trans h.stopSubnet.symm
    have hones : countOnes mask ≤ 32 := Nat.le_trans h.long (by decide)
    exact (same_network_of_between h.isPrefixMask hones hends hstart hstop).trans h.startSubnet
  isPrivate := hprivate
  notNetwork := by
    rintro rfl
    -- The network address comes first in its network, so the range would start with it.
    have hle : start &&& mask ≤ start :=
      UInt32.le_iff_toNat_le.mpr (by rw [UInt32.toNat_and]; exact Nat.and_le_left)
    rw [h.startSubnet] at hle
    exact h.notNetwork (UInt32.le_antisymm hstart hle)
  notBroadcast := by
    rintro rfl
    have hle := le_broadcast stop mask
    rw [h.stopSubnet] at hle
    exact h.notBroadcast (UInt32.le_antisymm hle hstop)
  notRouter := by
    rintro rfl
    exact h.notRouter ⟨hstart, hstop⟩

theorem isPrivate_of_ends (h : Checked settings ip mask start stop)
    (hfirst : Lan.isPrivate start = true) (hlast : Lan.isPrivate stop = true) {a : UInt32}
    (hstart : start ≤ a) (hstop : a ≤ stop) : Lan.isPrivate a = true := by
  have hends : start &&& mask = stop &&& mask := h.startSubnet.trans h.stopSubnet.symm
  have hones : countOnes mask ≤ 32 := Nat.le_trans h.long (by decide)
  have hoctet := octet_eq_of_and_eq h.isPrefixMask hones h.short hends
  exact isPrivate_of_between hoctet hstart hstop hfirst hlast

end Checked

/-- **Accepted settings are lawful** exactly if both ends of the range are private. -/
theorem lawful_iff_private_ends (settings : LanSettings)
    (h : validateLanSettings settings = .ok ()) : settings.Lawful ↔ settings.PrivateEnds := by
  obtain ⟨ip, mask, start, stop, hchecked⟩ := checked_of_accepted h
  have hreads := hchecked.reads
  constructor
  · rintro ⟨ip', mask', start', stop', hreads', -, hall⟩
    -- The settings read as one quadruple only.
    obtain rfl := Option.some.inj (hreads.dhcpStart.symm.trans hreads'.dhcpStart)
    obtain rfl := Option.some.inj (hreads.dhcpEnd.symm.trans hreads'.dhcpEnd)
    have hle : start ≤ stop := UInt32.le_of_lt hchecked.ascending
    exact ⟨start, stop, hreads.dhcpStart, hreads.dhcpEnd,
      (hall start (UInt32.le_refl _) hle).isPrivate, (hall stop hle (UInt32.le_refl _)).isPrivate⟩
  · rintro ⟨start', stop', hstart, hstop, hfirst, hlast⟩
    obtain rfl := Option.some.inj (hreads.dhcpStart.symm.trans hstart)
    obtain rfl := Option.some.inj (hreads.dhcpEnd.symm.trans hstop)
    refine ⟨ip, mask, start, stop, hreads,
      ⟨countOnes mask, hchecked.short, hchecked.long, hchecked.isPrefixMask⟩, ?_⟩
    intro a hlow hhigh
    exact hchecked.assignable hlow hhigh (hchecked.isPrivate_of_ends hfirst hlast hlow hhigh)

/-- The settings of the repository's test. -/
def stockSettings : LanSettings where
  ipaddr := "192.168.0.1"
  netmask := "255.255.255.0"
  dhcpEnabled := true
  dhcpStart := "192.168.0.2"
  dhcpEnd := "192.168.0.253"
  leaseSeconds := 86400

/-- They are accepted, and their range is private. -/
theorem lawful_stockSettings : validateLanSettings stockSettings = .ok () ∧
    stockSettings.Lawful := by
  have haccepted : validateLanSettings stockSettings = .ok () := by decide +kernel
  have hstart : parseIpv4 stockSettings.dhcpStart = some 0xC0A80002 := by decide +kernel
  have hstop : parseIpv4 stockSettings.dhcpEnd = some 0xC0A800FD := by decide +kernel
  exact ⟨haccepted, (lawful_iff_private_ends stockSettings haccepted).mpr
    ⟨_, _, hstart, hstop, by decide, by decide⟩⟩

/-- A router at 172.16.0.1 with the shortest mask that is admitted. -/
def wideSettings : LanSettings where
  ipaddr := "172.16.0.1"
  netmask := "255.0.0.0"
  dhcpEnabled := true
  dhcpStart := "172.200.0.1"
  dhcpEnd := "172.200.0.5"
  leaseSeconds := 86400

/-- Only 172.16/12 is private: the router would hand out the addresses of others. -/
theorem public_range_accepted : validateLanSettings wideSettings = .ok () ∧
    ¬∀ settings, validateLanSettings settings = .ok () → settings.Lawful := by
  have haccepted : validateLanSettings wideSettings = .ok () := by decide +kernel
  have hstart : parseIpv4 wideSettings.dhcpStart = some 0xACC80001 := by decide +kernel
  refine ⟨haccepted, fun hall => ?_⟩
  obtain ⟨ip, mask, start, stop, hreads, -, hrange⟩ := hall wideSettings haccepted
  have hstop : parseIpv4 wideSettings.dhcpEnd = some 0xACC80005 := by decide +kernel
  obtain rfl := Option.some.inj (hstart.symm.trans hreads.dhcpStart)
  obtain rfl := Option.some.inj (hstop.symm.trans hreads.dhcpEnd)
  have hprivate := (hrange 0xACC80001 (UInt32.le_refl _) (by decide)).isPrivate
  exact absurd hprivate (by decide)

end OpenUI.Agent.Lan
