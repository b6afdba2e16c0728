/-!
# Sequence numbers

Messages, packets and the advertised neighbour set are numbered with 16 bits that wrap around, so
which of two numbers is the newer one is decided on a circle: the newer is at most half a turn
ahead (RFC 3626, section 19).
-/

namespace Manet

/-- A 16 bit number that wraps around. -/
abbrev SeqNum := UInt16

namespace SeqNum

/-- The number before the first one. -/
def initial : SeqNum := 65535

/-- The number after `s`. -/
def next (s : SeqNum) : SeqNum := s + 1

theorem next_add (s : SeqNum) (n : Nat) : s.next + UInt16.ofNat n = s + UInt16.ofNat (n + 1) := by
  rw [next, UInt16.ofNat_add, UInt16.add_assoc, UInt16.add_comm 1]
  rfl

/-- Whether `s` is newer than `t`: ahead of it by at most 32767, counted around the circle. -/
def newer (s t : SeqNum) : Bool :=
  (t < s ∧ s.toNat - t.toNat ≤ 32767) ∨ (s < t ∧ 32767 < t.toNat - s.toNat)

end SeqNum

end Manet
