import Manet.Proofs.Acceptance

/-!
# Round trips

The encoder writes the form `Packet.written`, which reads back as the packet (`Packet.read_written`);
a written form is of that kind iff it is canonical (`Wire.Packet.written_read_eq_self_iff`). So a
packet survives writing and reading (`Packet.decode_encode_append`), and reading and writing a
datagram gives its canonical form (`Packet.reencode_eq_take_iff`).
-/

namespace Manet

variable {F : Family}

namespace Wire

/-! ## Canonical forms -/

/-- The reserved octet is zero and the link code is valid. -/
def Block.IsCanonical (b : Block F) : Prop := b.reserved = 0 ∧ (LinkCode.ofOctet? b.code).isSome

/-- All reserved octets are zero, the willingness is at most 7 and all link codes are valid. -/
def Body.IsCanonical : Body F → Prop
  | .hello reserved _ willingness blocks =>
    reserved = (0, 0) ∧ willingness.toNat ≤ 7 ∧ ∀ b ∈ blocks, b.IsCanonical
  | .tc _ reserved _ => reserved = (0, 0)
  | .mid _ => True
  | .other _ _ => True

/-- All bodies are canonical. -/
def Packet.IsCanonical (p : Packet F) : Prop := ∀ m ∈ p.messages, m.body.IsCanonical

instance (b : Block F) : Decidable b.IsCanonical :=
  inferInstanceAs (Decidable (b.reserved = 0 ∧ (LinkCode.ofOctet? b.code).isSome))

instance : (b : Body F) → Decidable b.IsCanonical
  | .hello reserved _ willingness blocks =>
    inferInstanceAs (Decidable (reserved = (0, 0) ∧ willingness.toNat ≤ 7 ∧ ∀ b ∈ blocks, b.IsCanonical))
  | .tc _ reserved _ => inferInstanceAs (Decidable (reserved = (0, 0)))
  | .mid _ | .other .. => .isTrue trivial

instance (p : Packet F) : Decidable p.IsCanonical :=
  inferInstanceAs (Decidable (∀ m ∈ p.messages, m.body.IsCanonical))

end Wire

/-! ## What the encoder writes -/

/-- The block with its link code and a reserved zero. -/
def HelloBlock.written (b : HelloBlock F) : Wire.Block F := ⟨b.code.toOctet, 0, b.addresses⟩

/-- The body with zeros for what is reserved. -/
def Body.written : Body F → Wire.Body F
  | .hello interval willingness blocks =>
    .hello (0, 0) interval willingness.toOctet (blocks.map HelloBlock.written)
  | .tc ansn neighbours => .tc ansn (0, 0) neighbours
  | .mid interfaces => .mid interfaces
  | .unknown kind payload => .other kind payload

/-- The message with its body as it is written. -/
def Message.written (m : Message F) : Wire.Message F where
  validity := m.validity
  originator := m.originator
  ttl := m.ttl
  hops := m.hops
  seqno := m.seqno
  body := m.body.written

/-- The packet as it is written. -/
def Packet.written (p : Packet F) : Wire.Packet F := ⟨p.seqno, p.messages.map Message.written⟩

theorem LinkType.bits_ofBits (n : Nat) : (ofBits n).bits = n % 4 := by
  have h : n % 4 = 0 ∨ n % 4 = 1 ∨ n % 4 = 2 ∨ n % 4 = 3 := by omega
  rcases h with h | h | h | h <;> simp only [ofBits, h, bits]

theorem NeighbourType.number_of_ofNumber? {n : Nat} {t : NeighbourType} (h : ofNumber? n = some t) :
    t.number = n := by
  unfold ofNumber? at h
  split at h <;> cases h <;> rfl

theorem LinkCode.toOctet_of_ofOctet? {b : UInt8} {c : LinkCode} (h : ofOctet? b = some c) :
    c.toOctet = b := by
  obtain ⟨t, ht, h⟩ := Option.bind_eq_some_iff.mp h
  rw [of?] at h
  split at h <;> cases h
  rw [toOctet, LinkType.bits_ofBits, NeighbourType.number_of_ofNumber? ht, Nat.mod_add_div, UInt8.ofNat_toNat]

theorem Willingness.toOctet_ofOctet_eq_self_iff {b : UInt8} : (ofOctet b).toOctet = b ↔ b.toNat ≤ 7 := by
  have hw : (ofOctet b).val = b.toNat % 8 := rfl
  rw [← UInt8.toNat_inj, toOctet, hw, UInt8.toNat_ofNat']
  omega

/-! ## What is written reads back -/

namespace HelloBlock

theorem read?_written (b : HelloBlock F) : b.written.read? = some b := by
  rw [written, Wire.Block.read?, LinkCode.ofOctet?_toOctet, Option.map_some]

theorem isCanonical_written (b : HelloBlock F) : b.written.IsCanonical :=
  ⟨rfl, by rw [written, LinkCode.ofOctet?_toOctet, Option.isSome_some]⟩

end HelloBlock

theorem blocksSize_eq_sum (bs : List (HelloBlock F)) : blocksSize bs = (bs.map HelloBlock.size).sum := by
  induction bs with
  | nil => rfl
  | cons b bs ih => rw [blocksSize, ih, List.map_cons, List.sum_cons]

theorem messagesSize_eq_sum (ms : List (Message F)) : messagesSize ms = (ms.map Message.size).sum := by
  induction ms with
  | nil => rfl
  | cons m ms ih => rw [messagesSize, ih, List.map_cons, List.sum_cons]

namespace Body

theorem toOctets_written (b : Body F) : b.written.toOctets = b.toOctets := by
  cases b with
  | hello interval willingness blocks =>
    rw [written, Wire.Body.toOctets, toOctets, List.flatMap_map]
    rfl
  | _ => rfl

theorem size_written (b : Body F) : b.written.size = b.size := by
  cases b with
  | hello interval willingness blocks =>
    rw [written, Wire.Body.size, size, blocksSize_eq_sum, List.map_map]
    rfl
  | _ => rfl

theorem kind_written (b : Body F) : b.written.kind = b.kind := by
  cases b <;> rfl

theorem read_written (b : Body F) : b.written.read = b := by
  cases b with
  | hello interval willingness blocks =>
    have hblocks : Wire.Block.read? ∘ HelloBlock.written = (some : HelloBlock F → _) :=
      funext HelloBlock.read?_written
    rw [written, Wire.Body.read, Willingness.ofOctet_toOctet, List.filterMap_map, hblocks,
      List.filterMap_some]
  | _ => rfl

theorem isCanonical_written (b : Body F) : b.written.IsCanonical := by
  cases b with
  | hello interval willingness blocks =>
    refine ⟨rfl, ?_, List.forall_mem_map.mpr fun b _ => b.isCanonical_written⟩
    rw [← Willingness.toOctet_ofOctet_eq_self_iff, Willingness.ofOctet_toOctet]
  | tc => rfl
  | mid => trivial
  | unknown => trivial

end Body

namespace Message

theorem size_written (m : Message F) : m.written.size = m.size := by
  rw [Wire.Message.size, size, written, Body.size_written]

theorem toOctets_written (m : Message F) : m.written.toOctets = m.toOctets := by
  rw [Wire.Message.toOctets, toOctets, size_written, List.append_assoc]
  simp only [written, Body.toOctets_written, Body.kind_written]

theorem read_written (m : Message F) : m.written.read = m := by
  simp only [written, Wire.Message.read, Body.read_written]

end Message

namespace Packet

theorem size_written (p : Packet F) : p.written.size = p.size := by
  rw [Wire.Packet.size, size, written, messagesSize_eq_sum, List.map_map]
  simp only [Function.comp_def, Message.size_written]

theorem toOctets_written (p : Packet F) : p.written.toOctets = p.toOctets := by
  rw [Wire.Packet.toOctets, toOctets, size_written, List.append_assoc, written, List.flatMap_map]
  simp only [Message.toOctets_written]

theorem read_written (p : Packet F) : p.written.read = p := by
  rw [written, Wire.Packet.read, List.map_map]
  simp only [Function.comp_def, Message.read_written, List.map_id']

theorem isCanonical_written (p : Packet F) : p.written.IsCanonical :=
  List.forall_mem_map.mpr fun m _ => m.body.isCanonical_written

end Packet

/-! ## Reading and writing again -/

namespace Wire

theorem Block.exists_read?_eq {b : Block F} (h : b.IsCanonical) : ∃ c, b.read? = some c ∧ c.written = b := by
  obtain ⟨hreserved, hcode⟩ := h
  obtain ⟨code, hcode⟩ := Option.isSome_iff_exists.mp hcode
  refine ⟨⟨code, b.addresses⟩, ?_, ?_⟩
  · rw [read?, hcode, Option.map_some]
  · exact Block.ext (LinkCode.toOctet_of_ofOctet? hcode) hreserved.symm rfl

theorem Block.map_written_filterMap_read? {bs : List (Block F)} (h : ∀ b ∈ bs, b.IsCanonical) :
    (bs.filterMap read?).map HelloBlock.written = bs := by
  induction bs with
  | nil => rfl
  | cons b bs ih =>
    rw [List.forall_mem_cons] at h
    obtain ⟨c, hread, hwritten⟩ := exists_read?_eq h.1
    rw [List.filterMap_cons_some hread, List.map_cons, hwritten, ih h.2]

theorem Body.written_read {b : Body F} (h : b.IsCanonical) : b.read.written = b := by
  cases b with
  | hello reserved interval willingness blocks =>
    obtain ⟨rfl, hwillingness, hblocks⟩ := h
    rw [read, Manet.Body.written, Willingness.toOctet_ofOctet_eq_self_iff.mpr hwillingness,
      Block.map_written_filterMap_read? hblocks]
  | tc ansn reserved neighbours =>
    cases h
    rfl
  | _ => rfl

/-- Reading and writing again changes nothing iff the form is canonical. -/
theorem Packet.written_read_eq_self_iff {p : Packet F} : p.read.written = p ↔ p.IsCanonical := by
  constructor
  · intro h
    rw [← h]
    exact p.read.isCanonical_written
  · intro h
    have hmessage (m : Message F) (hm : m ∈ p.messages) : (Manet.Message.written ∘ Message.read) m = id m := by
      rw [Function.comp_apply, Message.read, Manet.Message.written, Body.written_read (h m hm), id]
    refine Packet.ext rfl ?_
    rw [read, Manet.Packet.written, List.map_map, List.map_congr_left hmessage, List.map_id]

/-- Blocks without a meaning take room that is saved. -/
theorem blocksSize_filterMap_le (bs : List (Block F)) :
    blocksSize (bs.filterMap Block.read?) ≤ (bs.map Block.size).sum := by
  induction bs with
  | nil => exact Nat.le_refl 0
  | cons b bs ih =>
    rw [List.map_cons, List.sum_cons, List.filterMap_cons]
    split
    next => exact Nat.le_add_left_of_le ih
    next c hc =>
      obtain ⟨code, -, rfl⟩ := Option.map_eq_some_iff.mp hc
      exact Nat.add_le_add_left ih _

theorem Body.size_read_le (b : Body F) : b.read.size ≤ b.size := by
  cases b with
  | hello reserved interval willingness blocks =>
    exact Nat.add_le_add_left (blocksSize_filterMap_le blocks) 4
  | _ => exact Nat.le_refl _

theorem messagesSize_map_le (ms : List (Message F)) :
    messagesSize (ms.map Message.read) ≤ (ms.map Message.size).sum := by
  induction ms with
  | nil => exact Nat.le_refl 0
  | cons m ms ih =>
    exact Nat.add_le_add (Nat.add_le_add_left m.body.size_read_le _) ih

theorem Packet.size_read_le (p : Packet F) : p.read.size ≤ p.size :=
  Nat.add_le_add_left (messagesSize_map_le p.messages) _

end Wire

/-! ## Round trips -/

namespace Packet

theorem length_toOctets (p : Packet F) : p.toOctets.length = p.size := by
  rw [← toOctets_written, Wire.Packet.length_toOctets, size_written]

theorem written_isWellFormed {p : Packet F} (hne : p.messages ≠ []) (hsize : p.size ≤ maxSize)
    (hkind : ∀ m ∈ p.messages, m.body.KindFits) : p.written.IsWellFormed where
  messages_ne_nil := fun h => hne (List.map_eq_nil_iff.mp h)
  size_le := p.size_written.symm ▸ hsize
  kindFits := List.forall_mem_map.mpr fun m hm => m.body.read_written.symm ▸ hkind m hm

/-- What is read is written in a form that fits: a packet that was accepted can be passed on. -/
theorem written_read_isWellFormed {w : Wire.Packet F} (h : w.IsWellFormed) : w.read.written.IsWellFormed :=
  written_isWellFormed (fun hnil => h.messages_ne_nil (List.map_eq_nil_iff.mp hnil))
    (Nat.le_trans w.size_read_le h.size_le) (List.forall_mem_map.mpr h.kindFits)

/-- The length field of a datagram. -/
def sizeField : Octets → Nat
  | high :: low :: _ => Octets.toNat [high, low]
  | _ => 0

theorem sizeField_toOctets_append {w : Wire.Packet F} (h : w.IsWellFormed) (rest : Octets) :
    sizeField (w.toOctets ++ rest) = w.size := by
  obtain ⟨high, low, hpair, hsize⟩ := Octets.exists_ofNat_two_eq h.size_le
  rw [Wire.Packet.toOctets, hpair]
  exact hsize

/-- A packet with messages that fits its length field is written in as many octets as it has, and
is read back from any datagram that starts with them. -/
theorem decode_encode_append (p : Packet F) (hne : p.messages ≠ []) (hsize : p.size ≤ maxSize)
    (hkind : ∀ m ∈ p.messages, m.body.KindFits) :
    ∃ octets, p.encode = .ok octets ∧ octets.length = p.size ∧
      ∀ rest, Packet.decode (octets ++ rest) = .ok p := by
  refine ⟨p.toOctets, if_pos hsize, p.length_toOctets, fun rest => ?_⟩
  have hread := decode_toOctets_append (written_isWellFormed hne hsize hkind) rest
  rwa [toOctets_written, read_written] at hread

/-- A packet with a message of each kind, some of their lists empty. -/
def mixed : Packet .ipv6 where
  seqno := 65535
  messages :=
    [⟨⟨134⟩, .ofNat 1, 1, 0, 7, .hello ⟨5⟩ .standard [⟨⟨.symmetric, .mpr, nofun⟩, [.ofNat 2, .ofNat 3]⟩,
        ⟨⟨.lost, .notNeighbour, nofun⟩, []⟩]⟩,
      ⟨⟨138⟩, .ofNat 1, 255, 0, 8, .tc 300 []⟩, ⟨⟨138⟩, .ofNat 1, 255, 0, 9, .mid [.ofNat 4]⟩,
      ⟨⟨0⟩, .ofNat 5, 17, 3, 10, .unknown 200 []⟩]

theorem decode_encode_append_mixed :
    mixed.messages ≠ [] ∧ mixed.size ≤ maxSize ∧ (∀ m ∈ mixed.messages, m.body.KindFits) ∧
      ∃ octets, mixed.encode = .ok octets ∧ octets.length = 164 ∧
        ∀ rest, Packet.decode (octets ++ rest) = .ok mixed :=
  ⟨by decide, by decide, by decide, decode_encode_append mixed (by decide) (by decide) (by decide)⟩

/-- Writing what was read never fails, takes no more octets than the datagram stated, and reads
back the same. It gives the datagram's own octets iff the one form that spells these is canonical. -/
theorem reencode_eq_take_iff {d : Octets} {p : Packet F} (h : Packet.decode d = .ok p) :
    p.size ≤ sizeField d ∧ sizeField d ≤ maxSize ∧ sizeField d ≤ d.length ∧
      ∃ octets, p.encode = .ok octets ∧ Packet.decode octets = .ok p ∧
        ∃ w : Wire.Packet F, w.IsWellFormed ∧ w.toOctets = d.take (sizeField d) ∧ w.read = p ∧
          (∀ w' : Wire.Packet F, w'.IsWellFormed → w'.toOctets = d.take (sizeField d) → w' = w) ∧
          (octets = d.take (sizeField d) ↔ w.IsCanonical) := by
  obtain ⟨w, rest, rfl, hw, rfl⟩ := decode_eq_ok_iff.mp h
  have hwritten := written_read_isWellFormed hw
  have htake : (w.toOctets ++ rest).take w.size = w.toOctets :=
    List.take_left' w.length_toOctets
  have hunique (w' : Wire.Packet F) (hw' : w'.IsWellFormed) (h : w'.toOctets = w.toOctets) : w' = w :=
    (Wire.Packet.append_inj hw' hw (congrArg (· ++ ([] : Octets)) h)).1
  rw [sizeField_toOctets_append hw, htake]
  refine ⟨w.size_read_le, hw.size_le, by simp, w.read.toOctets, ?_, ?_, w, hw, rfl, rfl, hunique, ?_⟩
  · exact if_pos (Nat.le_trans w.size_read_le hw.size_le)
  · have hread := decode_toOctets_append hwritten []
    rwa [toOctets_written, read_written, List.append_nil] at hread
  · rw [← toOctets_written, ← Wire.Packet.written_read_eq_self_iff]
    exact ⟨hunique _ hwritten, fun h => by rw [h]⟩

/-- A HELLO with reserved octets set, a willingness of 15 and a block whose link code means nothing. -/
def sloppy : Wire.Packet .ipv4 where
  seqno := 7
  messages :=
    [⟨⟨134⟩, .ofNat 2, 1, 0, 1, .hello (1, 0) ⟨5⟩ 15 [⟨15, 0, [.ofNat 3]⟩, ⟨6, 9, [.ofNat 1]⟩]⟩]

theorem sloppy_isWellFormed : sloppy.IsWellFormed where
  messages_ne_nil := by decide
  size_le := by decide
  kindFits := by decide

theorem reencode_eq_take_iff_sloppy :
    Packet.decode (sloppy.toOctets ++ [1, 2]) = .ok sloppy.read ∧
      ∃ octets, sloppy.read.encode = .ok octets ∧ Packet.decode octets = .ok sloppy.read ∧
        octets ≠ (sloppy.toOctets ++ [1, 2]).take 36 := by
  have h := decode_toOctets_append sloppy_isWellFormed [1, 2]
  obtain ⟨-, -, -, octets, hencode, hdecode, w, -, -, -, hunique, hiff⟩ := reencode_eq_take_iff h
  refine ⟨h, octets, hencode, hdecode, fun heq => ?_⟩
  have hw : sloppy = w := hunique sloppy sloppy_isWellFormed rfl
  exact absurd (hw ▸ hiff.mp heq) (by decide)

end Packet

end Manet
