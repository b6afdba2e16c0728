import Mathlib.Algebra.Ring.Nat
import Manet.Config

/-!
# Subnets

As a number, an address is the bits that its subnet shares followed by those that tell the hosts apart, so a
subnet is an interval (`Config.subnets_areIntervals`):

* `InterfaceConfig.netmask?_eq`: its mask is computed without a shift by the whole width;
* `InterfaceConfig.contains_iff_agree`: an address belongs to it if it agrees with the interface's on the
  shared bits;
* `InterfaceConfig.toNat_network` and `InterfaceConfig.toNat_broadcast`: its ends;
* `InterfaceConfig.contains_iff_spans`: an address belongs to it if it is not beyond them;
* `Config.interfaceFor?_eq_some_iff`: the interface for an address is the first whose interval holds it.
-/

namespace Manet

/-! ## Masks of high bits -/

section Masks

variable {w h : Nat} {x y : BitVec w}

/-- All bits but the last `h`. -/
def highBits (w h : Nat) : BitVec w := BitVec.allOnes w <<< h

theorem getMsbD_and_highBits (x : BitVec w) (h k : Nat) :
    (x &&& highBits w h).getMsbD k = (x.getMsbD k && decide (k < w - h)) := by
  rw [BitVec.getMsbD_and, highBits, BitVec.getMsbD_shiftLeft, BitVec.getMsbD_allOnes]
  simp only [Nat.lt_sub_iff_add_lt]

theorem and_highBits_eq_iff_agree :
    x &&& highBits w h = y &&& highBits w h ↔ ∀ k < w - h, x.getMsbD k = y.getMsbD k := by
  constructor
  · intro heq k hk
    have hbit := congrArg (·.getMsbD k) heq
    simpa only [getMsbD_and_highBits, hk, decide_true, Bool.and_true] using hbit
  · intro hagree
    refine BitVec.eq_of_getMsbD_eq fun k _ => ?_
    rw [getMsbD_and_highBits, getMsbD_and_highBits]
    by_cases hk : k < w - h
    · rw [hagree k hk]
    · rw [decide_eq_false hk, Bool.and_false, Bool.and_false]

theorem toNat_and_highBits (x : BitVec w) (h : Nat) :
    (x &&& highBits w h).toNat = x.toNat / 2 ^ h * 2 ^ h := by
  rw [highBits, ← BitVec.shiftLeft_ushiftRight, BitVec.toNat_shiftLeft, BitVec.toNat_ushiftRight,
    Nat.shiftLeft_eq, Nat.shiftRight_eq_div_pow]
  exact Nat.mod_eq_of_lt (Nat.lt_of_le_of_lt (Nat.div_mul_le_self ..) x.isLt)

theorem and_highBits_eq_iff :
    x &&& highBits w h = y &&& highBits w h ↔ x.toNat / 2 ^ h = y.toNat / 2 ^ h := by
  rw [← BitVec.toNat_inj, toNat_and_highBits, toNat_and_highBits]
  exact Nat.mul_left_inj (Nat.pos_iff_ne_zero.mp (Nat.two_pow_pos h))

theorem toNat_not_highBits (hle : h ≤ w) : (~~~highBits w h).toNat = 2 ^ h - 1 := by
  have hpow : 2 ^ w = 2 ^ h * 2 ^ (w - h) := by rw [← Nat.pow_add, Nat.add_sub_cancel' hle]
  have hones : (highBits w h).toNat = (2 ^ w - 1) / 2 ^ h * 2 ^ h := by
    rw [← BitVec.toNat_allOnes, ← toNat_and_highBits, BitVec.allOnes_and]
  calc (~~~highBits w h).toNat = (2 ^ w - 1) % 2 ^ h := by
        rw [BitVec.toNat_not, hones, Nat.mod_eq_sub_div_mul]
    _ = 2 ^ h - 1 := by
        rw [hpow]
        exact Nat.mul_sub_mod (x := 0) (hpow ▸ Nat.two_pow_pos w)

theorem toNat_or_not_highBits (hle : h ≤ w) (x : BitVec w) :
    (x ||| ~~~highBits w h).toNat = x.toNat / 2 ^ h * 2 ^ h + (2 ^ h - 1) := by
  -- where the bits that are set come after those that are kept, setting them adds them
  have hdisjoint : x &&& highBits w h &&& ~~~highBits w h = 0#w := by
    rw [BitVec.and_assoc, BitVec.and_not_self]
    exact BitVec.and_zero
  have hor : x ||| ~~~highBits w h = x &&& highBits w h ||| ~~~highBits w h := by
    ext i hi
    rw [BitVec.getElem_or, BitVec.getElem_or, BitVec.getElem_and, Bool.or_and_distrib_right,
      BitVec.getElem_not, Bool.or_not_self, Bool.and_true]
  rw [hor, ← BitVec.add_eq_or_of_and_eq_zero _ _ hdisjoint, BitVec.toNat_add_of_and_eq_zero hdisjoint,
    toNat_and_highBits, toNat_not_highBits hle]

end Masks

/-! ## The subnet of an interface -/

/-- A shift to the left that fails if it is out of range, by as many bits as there are or more. -/
def shiftLeft? {w : Nat} (x : BitVec w) (n : Nat) : Option (BitVec w) :=
  if n < w then some (x <<< n) else none

namespace InterfaceConfig

variable {i : InterfaceConfig} {peer : IPv4}

/-- How many leading bits the addresses of the subnet share. -/
def sharedBits (i : InterfaceConfig) : Nat := min i.prefixLen.toNat 32

/-- How many bits tell the addresses of the subnet apart. -/
def hostBits (i : InterfaceConfig) : Nat := 32 - i.sharedBits

/-- The mask of the shared bits, unless it takes a shift that is out of range. -/
def netmask? (i : InterfaceConfig) : Option (BitVec Family.ipv4.width) :=
  if i.prefixLen = 0 then some 0 else shiftLeft? (BitVec.allOnes _) i.hostBits

/-- The least address of the subnet. -/
def network (i : InterfaceConfig) : IPv4 := ⟨i.address.bits &&& i.netmask⟩

/-- Whether an address is between the ends of the subnet, as a number. -/
def Spans (i : InterfaceConfig) (peer : IPv4) : Prop :=
  i.network.toNat ≤ peer.toNat ∧ peer.toNat ≤ i.broadcast.toNat

instance : Decidable (i.Spans peer) := inferInstanceAs (Decidable (_ ∧ _))

theorem netmask?_eq (i : InterfaceConfig) : i.netmask? = some i.netmask := by
  rw [netmask?, netmask]
  split
  · rfl
  · rename_i hprefix
    have hlen : i.prefixLen.toNat ≠ 0 := fun h => hprefix (UInt8.toNat_inj.mp h)
    have hrange : i.hostBits < Family.ipv4.width := by
      rw [hostBits, sharedBits, Family.width, Family.octets]
      omega
    rw [shiftLeft?, if_pos hrange]
    rfl

theorem netmask_eq (i : InterfaceConfig) : i.netmask = highBits Family.ipv4.width i.hostBits := by
  rw [netmask]
  split
  · rename_i hprefix
    rw [hostBits, sharedBits, hprefix]
    rfl
  · rfl

/-- Beyond the width of an address, a longer prefix is as good as the whole address. -/
theorem netmask_of_thirtyTwo_le (h : 32 ≤ i.prefixLen) : { i with prefixLen := 32 }.netmask = i.netmask := by
  have hshared : { i with prefixLen := 32 }.sharedBits = i.sharedBits :=
    (Nat.min_eq_right (UInt8.le_iff_toNat_le.mp h)).symm
  rw [netmask_eq, netmask_eq, hostBits, hostBits, hshared]

/-- An address belongs to the subnet if it agrees with the interface's on the shared bits. -/
theorem contains_iff_agree :
    i.contains peer ↔ ∀ k < i.sharedBits, peer.bits.getMsbD k = i.address.bits.getMsbD k := by
  have hshared : Family.ipv4.width - i.hostBits = i.sharedBits := Nat.sub_sub_self (Nat.min_le_right ..)
  rw [contains, decide_eq_true_iff, netmask_eq, and_highBits_eq_iff_agree, hshared]

theorem contains_iff_div_eq :
    i.contains peer ↔ peer.toNat / 2 ^ i.hostBits = i.address.toNat / 2 ^ i.hostBits := by
  rw [contains, decide_eq_true_iff, netmask_eq, and_highBits_eq_iff]
  rfl

theorem toNat_network (i : InterfaceConfig) :
    i.network.toNat = i.address.toNat / 2 ^ i.hostBits * 2 ^ i.hostBits := by
  rw [network, netmask_eq]
  exact toNat_and_highBits ..

theorem toNat_broadcast (i : InterfaceConfig) :
    i.broadcast.toNat = i.network.toNat + (2 ^ i.hostBits - 1) := by
  rw [toNat_network, broadcast, netmask_eq]
  exact toNat_or_not_highBits (Nat.sub_le ..) _

/-- An address belongs to the subnet if it is between its ends. -/
theorem contains_iff_spans : i.contains peer ↔ i.Spans peer := by
  rw [contains_iff_div_eq, Nat.div_eq_iff (Nat.two_pow_pos _), Spans, toNat_broadcast, toNat_network,
    Nat.add_sub_assoc (Nat.two_pow_pos _)]

theorem contains_address (i : InterfaceConfig) : i.contains i.address :=
  contains_iff_div_eq.mpr rfl

theorem contains_broadcast (i : InterfaceConfig) : i.contains i.broadcast :=
  contains_iff_spans.mpr ⟨i.toNat_broadcast ▸ Nat.le_add_right .., Nat.le_refl _⟩

theorem toNat_le_broadcast (h : i.contains peer) : peer.toNat ≤ i.broadcast.toNat :=
  (contains_iff_spans.mp h).2

end InterfaceConfig

/-! ## The interface for an address -/

namespace Config

theorem interfaceFor?_eq_some_iff {c : Config} {peer : IPv4} {i : InterfaceConfig} :
    c.interfaceFor? peer = some i ↔ ∃ before after, c.interfaces = before ++ i :: after ∧ i.Spans peer ∧
      ∀ j ∈ before, ¬ j.Spans peer := by
  simp only [interfaceFor?, List.find?_eq_some_iff_append, InterfaceConfig.contains_iff_spans,
    Bool.not_eq_true', ← Bool.not_eq_true]
  constructor
  · rintro ⟨hspans, before, after, heq, hbefore⟩
    exact ⟨before, after, heq, hspans, hbefore⟩
  · rintro ⟨before, after, heq, hspans, hbefore⟩
    exact ⟨hspans, before, after, heq, hbefore⟩

theorem interfaceFor?_eq_none_iff {c : Config} {peer : IPv4} :
    c.interfaceFor? peer = none ↔ ∀ i ∈ c.interfaces, ¬ i.Spans peer := by
  simp only [interfaceFor?, List.find?_eq_none, InterfaceConfig.contains_iff_spans]

/-- Subnets are intervals, and the interface for an address is the first whose interval holds it. -/
theorem subnets_areIntervals :
    (∀ i : InterfaceConfig,
      i.netmask? = some i.netmask ∧
      (32 ≤ i.prefixLen → { i with prefixLen := 32 }.netmask = i.netmask) ∧
      (∀ peer, i.contains peer ↔
        ∀ k < min i.prefixLen.toNat 32, peer.bits.getMsbD k = i.address.bits.getMsbD k) ∧
      (∀ peer, i.contains peer ↔ i.Spans peer) ∧
      i.contains i.address ∧ i.contains i.broadcast ∧
      ∀ peer, i.contains peer → peer.toNat ≤ i.broadcast.toNat) ∧
    ∀ (c : Config) (peer : IPv4),
      (∀ i, c.interfaceFor? peer = some i ↔ ∃ before after, c.interfaces = before ++ i :: after ∧
        i.Spans peer ∧ ∀ j ∈ before, ¬ j.Spans peer) ∧
      (c.interfaceFor? peer = none ↔ ∀ i ∈ c.interfaces, ¬ i.Spans peer) :=
  ⟨fun i => ⟨i.netmask?_eq, i.netmask_of_thirtyTwo_le, fun _ => i.contains_iff_agree,
      fun _ => i.contains_iff_spans, i.contains_address, i.contains_broadcast,
      fun _ => i.toNat_le_broadcast⟩,
    fun _ _ => ⟨fun _ => interfaceFor?_eq_some_iff, interfaceFor?_eq_none_iff⟩⟩

/-- A node with a small subnet inside a large one, and a single address. -/
def nestedConfig : Config where
  main := none
  port := standardPort
  interfaces := [⟨"eth0", .ofNat 0xc0a80001, 24⟩, ⟨"eth1", .ofNat 0xc0a80001, 16⟩,
    ⟨"eth2", .ofNat 0x0a000001, 33⟩]
  params := {}

/-- An address may belong to two subnets, to the large one only, or to none. -/
theorem subnets_areIntervals_nested :
    { nestedConfig.interfaces[2] with prefixLen := 32 }.netmask = nestedConfig.interfaces[2].netmask ∧
      (0xc0a807ff : Nat) ≤ nestedConfig.interfaces[1].broadcast.toNat ∧
      nestedConfig.interfaceFor? (.ofNat 0xc0a800ff) = some nestedConfig.interfaces[0] ∧
      nestedConfig.interfaceFor? (.ofNat 0xc0a807ff) = some nestedConfig.interfaces[1] ∧
      nestedConfig.interfaceFor? (.ofNat 0x0a000002) = none := by
  obtain ⟨hsubnet, hinterface⟩ := subnets_areIntervals
  obtain ⟨-, -, -, -, -, -, hbroadcast⟩ := hsubnet nestedConfig.interfaces[1]
  exact ⟨(hsubnet nestedConfig.interfaces[2]).2.1 (by decide),
    hbroadcast (.ofNat 0xc0a807ff) (by decide),
    ((hinterface nestedConfig _).1 _).mpr ⟨[], nestedConfig.interfaces.drop 1, rfl, by decide, by decide⟩,
    ((hinterface nestedConfig _).1 _).mpr ⟨nestedConfig.interfaces.take 1, nestedConfig.interfaces.drop 2, rfl,
      by decide, by decide⟩,
    (hinterface nestedConfig _).2.mpr (by decide)⟩

end Config

end Manet
