import Mathlib.Data.List.Forall2
import Mathlib.Data.List.GetD
import Manet.Proofs.BoundedReads

/-!
# The grammar of datagrams

What a datagram is, said of its octets by their indices: `IsDatagram`, from the parts that its
length fields span. `MessageSays` gives the fields of a message by their places. The main result is
`Packet.decode_iff_isDatagram`: exactly the datagrams of the grammar are accepted, each is read as
its one decomposition, and reading stays within its buffers.
-/

namespace Manet

variable {F : Family}

/-! ## The grammar -/

/-- The number that two octets spell, the first of which has the given index. -/
def numberAt (bs : Octets) (i : Nat) : Nat := Octets.toNat [bs.getD i 0, bs.getD (i + 1) 0]

/-- The octets are these parts one after the other, and each part fits. -/
def IsCutInto (P : Octets → Prop) (bs : Octets) (parts : List Octets) : Prop :=
  parts.flatten = bs ∧ ∀ part ∈ parts, P part

/-- The octets are cut into parts that fit in this way and in no other. -/
def IsOnlyCut (P : Octets → Prop) (bs : Octets) (parts : List Octets) : Prop :=
  IsCutInto P bs parts ∧ ∀ parts', IsCutInto P bs parts' → parts' = parts

/-- A block of a HELLO spans its size field and has whole addresses after its header. -/
def IsBlock (F : Family) (bs : Octets) : Prop :=
  4 ≤ bs.length ∧ numberAt bs 2 = bs.length ∧ F.octets ∣ bs.length - 4

/-- The body of a message of the given type. -/
def IsBody (F : Family) (kind : UInt8) (bs : Octets) : Prop :=
  if kind = 1 then 4 ≤ bs.length ∧ ∃ blocks, IsCutInto (IsBlock F) (bs.drop 4) blocks
  else if kind = 2 then 4 ≤ bs.length ∧ F.octets ∣ bs.length - 4
  else if kind = 3 then F.octets ∣ bs.length
  else True

/-- A message spans its size field, which counts at least the header. -/
def IsMessage (F : Family) (bs : Octets) : Prop :=
  8 + F.octets ≤ bs.length ∧ numberAt bs 2 = bs.length ∧ IsBody F (bs.getD 0 0) (bs.drop (8 + F.octets))

/-- What the length field of a datagram leaves after the header. -/
def payload (d : Octets) : Octets := (d.take (numberAt d 0)).drop 4

/-- A datagram holds the octets that its length field counts, and these are messages. -/
def IsDatagram (F : Family) (d : Octets) : Prop :=
  4 ≤ d.length ∧ 4 ≤ numberAt d 0 ∧ numberAt d 0 ≤ d.length ∧
    ∃ parts ≠ [], IsCutInto (IsMessage F) (payload d) parts

/-! ## What the octets say -/

/-- The whole addresses in the octets. -/
def addressesIn (bs : Octets) : List (Address F) :=
  (List.range (bs.length / F.octets)).map fun i => Address.ofOctets ((bs.drop (i * F.octets)).take F.octets)

/-- The block, if its link code is valid. -/
def blockIn? (bs : Octets) : Option (HelloBlock F) :=
  (LinkCode.ofOctet? (bs.getD 0 0)).map (⟨·, addressesIn (bs.drop 4)⟩)

/-- What a body of the given type says. -/
def BodySays (kind : UInt8) (bs : Octets) : Body F → Prop
  | .hello interval willingness blocks =>
    kind = 1 ∧ interval.octet = bs.getD 2 0 ∧ willingness = Willingness.ofOctet (bs.getD 3 0) ∧
      ∃ parts, IsOnlyCut (IsBlock F) (bs.drop 4) parts ∧ blocks = parts.filterMap blockIn?
  | .tc ansn neighbours => kind = 2 ∧ ansn.toNat = numberAt bs 0 ∧ neighbours = addressesIn (bs.drop 4)
  | .mid interfaces => kind = 3 ∧ interfaces = addressesIn bs
  | .unknown kind' octets => (kind ≠ 1 ∧ kind ≠ 2 ∧ kind ≠ 3) ∧ kind' = kind ∧ octets = bs

/-- What a message says. -/
structure MessageSays (bs : Octets) (m : Message F) : Prop where
  validity : m.validity.octet = bs.getD 1 0
  originator : m.originator = Address.ofOctets ((bs.drop 4).take F.octets)
  ttl : m.ttl = bs.getD (4 + F.octets) 0
  hops : m.hops = bs.getD (5 + F.octets) 0
  seqno : m.seqno.toNat = numberAt bs (6 + F.octets)
  body : BodySays (bs.getD 0 0) (bs.drop (8 + F.octets)) m.body

/-! ## Cuts -/

theorem numberAt_append {bs : Octets} {i : Nat} (h : i + 2 ≤ bs.length) (rest : Octets) :
    numberAt (bs ++ rest) i = numberAt bs i := by
  rw [numberAt, numberAt, List.getD_append _ _ _ _ (by omega), List.getD_append _ _ _ _ (by omega)]

/-- Octets whose third and fourth one count them. -/
def SpansItself (bs : Octets) : Prop := 4 ≤ bs.length ∧ numberAt bs 2 = bs.length

theorem IsBlock.spansItself {bs : Octets} (h : IsBlock F bs) : SpansItself bs := ⟨h.1, h.2.1⟩

theorem IsMessage.spansItself {bs : Octets} (h : IsMessage F bs) : SpansItself bs :=
  ⟨by have := h.1; omega, h.2.1⟩

theorem SpansItself.append_inj {a b r s : Octets} (ha : SpansItself a) (hb : SpansItself b)
    (h : a ++ r = b ++ s) : a = b ∧ r = s := by
  have hnumber := congrArg (numberAt · 2) h
  simp only [numberAt_append ha.1, numberAt_append hb.1] at hnumber
  exact List.append_inj h (by rw [← ha.2, ← hb.2, hnumber])

/-- Parts that span themselves are cut in one way. -/
theorem IsCutInto.isOnlyCut {P : Octets → Prop} {bs : Octets} {parts : List Octets}
    (hP : ∀ part, P part → SpansItself part) (h : IsCutInto P bs parts) : IsOnlyCut P bs parts := by
  refine ⟨h, fun parts' h' => ?_⟩
  have hne (part : Octets) (hpart : P part) : part ≠ [] := by
    rintro rfl
    exact absurd (hP _ hpart).1 (by decide)
  have hflat : parts'.flatMap id = parts.flatMap id := by
    rw [List.flatMap_id, List.flatMap_id, h.1, h'.1]
  exact Octets.flatMap_inj hne (fun a b r s ha hb => (hP a ha).append_inj (hP b hb)) h'.2 h.2 hflat

/-- Parts that were each written from something were written from a list. -/
theorem IsCutInto.exists_map {α : Type} {P : Octets → Prop} {Q : α → Prop} {f : α → Octets} {bs : Octets}
    {parts : List Octets} (hP : ∀ part, P part → ∃ a, f a = part ∧ Q a) (h : IsCutInto P bs parts) :
    ∃ as : List α, as.map f = parts ∧ as.flatMap f = bs ∧ ∀ a ∈ as, Q a := by
  obtain ⟨rfl, h⟩ := h
  induction parts with
  | nil => exact ⟨[], rfl, rfl, nofun⟩
  | cons part parts ih =>
    rw [List.forall_mem_cons] at h
    obtain ⟨a, rfl, ha⟩ := hP part h.1
    obtain ⟨as, rfl, hflat, has⟩ := ih h.2
    refine ⟨a :: as, rfl, ?_, List.forall_mem_cons.mpr ⟨ha, has⟩⟩
    rw [List.flatMap_cons, hflat, List.flatten_cons]

theorem isCutInto_map {α : Type} {P : Octets → Prop} {f : α → Octets} {as : List α}
    (h : ∀ a ∈ as, P (f a)) : IsCutInto P (as.flatMap f) (as.map f) :=
  ⟨List.flatMap_def.symm, List.forall_mem_map.mpr h⟩

/-! ## Addresses and blocks -/

theorem addressesIn_append {front : Octets} (h : front.length = F.octets) (rest : Octets) :
    (addressesIn (front ++ rest) : List (Address F)) = Address.ofOctets front :: addressesIn rest := by
  have hpos := F.octets_pos
  have hdiv : (front ++ rest).length / F.octets = rest.length / F.octets + 1 := by
    rw [List.length_append, h, Nat.add_div_left _ hpos]
  have hhead : Address.ofOctets (((front ++ rest).drop (0 * F.octets)).take F.octets) =
      (Address.ofOctets front : Address F) := by
    rw [Nat.zero_mul, List.drop_zero, List.take_left' h]
  have htail (i : Nat) : Address.ofOctets (((front ++ rest).drop ((i + 1) * F.octets)).take F.octets) =
      (Address.ofOctets ((rest.drop (i * F.octets)).take F.octets) : Address F) := by
    have hindex : (i + 1) * F.octets = front.length + i * F.octets := by
      rw [Nat.succ_mul, h, Nat.add_comm]
    rw [hindex, ← List.drop_drop, List.drop_left]
  rw [addressesIn, hdiv, List.range_succ_eq_map, List.map_cons, List.map_map, hhead, addressesIn]
  exact congrArg _ (List.map_congr_left fun i _ => htail i)

@[simp] theorem addressesIn_addressesToOctets (as : List (Address F)) :
    addressesIn (addressesToOctets as) = as := by
  induction as with
  | nil => simp [addressesIn, addressesToOctets]
  | cons a as ih =>
    rw [addressesToOctets_cons, addressesIn_append a.length_toOctets, ih, Address.ofOctets_toOctets]

theorem octets_dvd_addressesSize (as : List (Address F)) : F.octets ∣ addressesSize as :=
  Nat.dvd_mul_left ..

theorem exists_addressesToOctets {bs : Octets} (h : F.octets ∣ bs.length) :
    ∃ as : List (Address F), addressesToOctets as = bs := by
  obtain ⟨n, hn⟩ := h
  induction n generalizing bs with
  | zero => exact ⟨[], (List.length_eq_zero_iff.mp hn).symm⟩
  | succ n ih =>
    rw [Nat.mul_succ] at hn
    have hrest : (bs.drop F.octets).length = F.octets * n := by
      rw [List.length_drop]
      omega
    have hfront : (bs.take F.octets).length = F.octets := by
      rw [List.length_take]
      omega
    obtain ⟨as, has⟩ := ih hrest
    refine ⟨Address.ofOctets (bs.take F.octets) :: as, ?_⟩
    rw [addressesToOctets_cons, Address.toOctets_ofOctets hfront, has, List.take_append_drop]

namespace Wire

theorem Block.isBlock_toOctets {b : Block F} (h : b.size ≤ Manet.Packet.maxSize) : IsBlock F b.toOctets := by
  obtain ⟨high, low, hpair, hsize⟩ := Octets.exists_ofNat_two_eq h
  refine ⟨?_, ?_, ?_⟩
  · simp [size]
  · rw [length_toOctets, ← hsize, toOctets, hpair]
    rfl
  · rw [length_toOctets, size, Nat.add_sub_cancel_left]
    exact octets_dvd_addressesSize _

theorem Block.blockIn?_toOctets (b : Block F) : blockIn? b.toOctets = b.read? := by
  rw [blockIn?, read?, toOctets, Octets.ofNat_two]
  simp

end Wire

theorem IsBlock.exists_toOctets {bs : Octets} (h : IsBlock F bs) :
    ∃ b : Wire.Block F, b.toOctets = bs ∧ b.size ≤ Packet.maxSize := by
  obtain ⟨hfour, hsize, hdvd⟩ := h
  rcases Reading.length_lt_four_or bs with hlt | ⟨code, reserved, high, low, rest, rfl⟩
  · omega
  have hrest : F.octets ∣ rest.length := by simpa using hdvd
  obtain ⟨as, rfl⟩ := exists_addressesToOctets hrest
  have hnumber : Octets.toNat [high, low] = Wire.Block.size ⟨code, reserved, as⟩ := by
    refine hsize.trans ?_
    simp only [List.length_cons, length_addressesToOctets, Wire.Block.size]
    omega
  refine ⟨⟨code, reserved, as⟩, ?_, ?_⟩
  · rw [Wire.Block.toOctets, ← hnumber, Octets.ofNat_two_toNat]
    rfl
  · rw [← hnumber]
    exact Octets.toNat_pair_le high low

/-! ## Bodies -/

/-- What was written as a body is one. -/
theorem Wire.Body.isBody_toOctets {b : Body F} (hsize : b.size ≤ Packet.maxSize) (hfits : b.read.KindFits) :
    IsBody F b.kind b.toOctets := by
  cases b with
  | hello reserved interval willingness blocks =>
    have hblocks (b : Block F) (hb : b ∈ blocks) : IsBlock F b.toOctets :=
      Block.isBlock_toOctets (Nat.le_trans (size_le_of_mem hb) hsize)
    rw [IsBody, kind, if_pos rfl]
    exact ⟨by simp [toOctets], _, isCutInto_map hblocks⟩
  | tc ansn reserved neighbours =>
    rw [IsBody, kind, if_neg (by decide), if_pos rfl, length_toOctets, size, Nat.add_sub_cancel_left]
    exact ⟨Nat.le_add_right .., octets_dvd_addressesSize neighbours⟩
  | mid interfaces =>
    rw [IsBody, kind, if_neg (by decide), if_neg (by decide), if_pos rfl, length_toOctets]
    exact octets_dvd_addressesSize interfaces
  | other kind payload =>
    have hkind : kind ≠ 1 ∧ kind ≠ 2 ∧ kind ≠ 3 := hfits
    rw [IsBody, Body.kind, if_neg hkind.1, if_neg hkind.2.1, if_neg hkind.2.2]
    trivial

/-- What was written says what it means. -/
theorem Wire.Body.bodySays_toOctets {b : Body F} (hsize : b.size ≤ Packet.maxSize)
    (hfits : b.read.KindFits) : BodySays b.kind b.toOctets b.read := by
  cases b with
  | hello reserved interval willingness blocks =>
    have hblocks (b : Block F) (hb : b ∈ blocks) : IsBlock F b.toOctets :=
      Block.isBlock_toOctets (Nat.le_trans (size_le_of_mem hb) hsize)
    refine ⟨rfl, rfl, rfl, _, (isCutInto_map hblocks).isOnlyCut fun _ => IsBlock.spansItself, ?_⟩
    rw [List.filterMap_map]
    congr 1
    funext b
    exact b.blockIn?_toOctets.symm
  | tc ansn reserved neighbours =>
    refine ⟨rfl, ?_, ?_⟩
    · exact (Octets.toNat_ofNat_two (Nat.le_of_lt_succ ansn.toNat_lt)).symm
    · exact (addressesIn_addressesToOctets neighbours).symm
  | mid interfaces => exact ⟨rfl, (addressesIn_addressesToOctets interfaces).symm⟩
  | other kind payload => exact ⟨hfits, rfl, rfl⟩

/-- What is a body was written. -/
theorem IsBody.exists_toOctets {kind : UInt8} {bs : Octets} (h : IsBody F kind bs) :
    ∃ b : Wire.Body F, b.kind = kind ∧ b.toOctets = bs ∧ b.read.KindFits := by
  by_cases h₁ : kind = 1
  · rw [IsBody, if_pos h₁] at h
    obtain ⟨hfour, parts, hparts⟩ := h
    rcases Reading.length_lt_four_or bs with hlt | ⟨b₀, b₁, interval, willingness, rest, rfl⟩
    · omega
    obtain ⟨blocks, -, hrest, -⟩ := hparts.exists_map fun _ => IsBlock.exists_toOctets
    refine ⟨.hello (b₀, b₁) ⟨interval⟩ willingness blocks, h₁.symm, ?_, trivial⟩
    rw [Wire.Body.toOctets, hrest]
    rfl
  by_cases h₂ : kind = 2
  · rw [IsBody, if_neg h₁, if_pos h₂] at h
    obtain ⟨hfour, hdvd⟩ := h
    rcases Reading.length_lt_four_or bs with hlt | ⟨high, low, b₂, b₃, rest, rfl⟩
    · omega
    have hrest : F.octets ∣ rest.length := by simpa using hdvd
    obtain ⟨as, rfl⟩ := exists_addressesToOctets hrest
    refine ⟨.tc (UInt16.ofNat (Octets.toNat [high, low])) (b₂, b₃) as, h₂.symm, ?_, trivial⟩
    rw [Wire.Body.toOctets, Octets.ofNat_two_seqNum]
    rfl
  by_cases h₃ : kind = 3
  · rw [IsBody, if_neg h₁, if_neg h₂, if_pos h₃] at h
    obtain ⟨as, rfl⟩ := exists_addressesToOctets h
    exact ⟨.mid as, h₃.symm, rfl, trivial⟩
  · exact ⟨.other kind bs, rfl, rfl, h₁, h₂, h₃⟩

/-! ## Messages -/

section Header

variable {kind validity high low : UInt8} {originator : Octets}

/-- What comes after the originator in a message. -/
theorem getD_header (h : originator.length = F.octets) (i : Nat) (rest : Octets) :
    (kind :: validity :: high :: low :: (originator ++ rest)).getD (4 + F.octets + i) 0 = rest.getD i 0 := by
  have hfront : (kind :: validity :: high :: low :: originator).length = 4 + F.octets := by
    simp only [List.length_cons]
    omega
  show (kind :: validity :: high :: low :: originator ++ rest).getD (4 + F.octets + i) 0 = _
  rw [List.getD_append_right _ _ _ _ (by omega), hfront, Nat.add_sub_cancel_left]

theorem drop_header (h : originator.length = F.octets) (ttl hops seqnoHigh seqnoLow : UInt8) (rest : Octets) :
    (kind :: validity :: high :: low :: (originator ++ ttl :: hops :: seqnoHigh :: seqnoLow :: rest)).drop
      (8 + F.octets) = rest := by
  have hindex : 8 + F.octets = originator.length + 4 + 4 := by omega
  rw [hindex, List.drop_succ_cons, List.drop_succ_cons, List.drop_succ_cons, List.drop_succ_cons,
    ← List.drop_drop, List.drop_left]
  rfl

end Header

namespace Wire.Message

variable {m : Message F}

/-- The octets of a message, with its size field and number as two octets each. -/
theorem exists_toOctets_eq (h : m.size ≤ Packet.maxSize) :
    ∃ high low seqnoHigh seqnoLow, Octets.toNat [high, low] = m.size ∧
      Octets.toNat [seqnoHigh, seqnoLow] = m.seqno.toNat ∧
        m.toOctets = m.body.kind :: m.validity.octet :: high :: low ::
          (m.originator.toOctets ++ m.ttl :: m.hops :: seqnoHigh :: seqnoLow :: m.body.toOctets) := by
  obtain ⟨high, low, hpair, hsize⟩ := Octets.exists_ofNat_two_eq h
  obtain ⟨seqnoHigh, seqnoLow, hseqno, hnumber⟩ :=
    Octets.exists_ofNat_two_eq (Nat.le_of_lt_succ m.seqno.toNat_lt)
  refine ⟨high, low, seqnoHigh, seqnoLow, hsize, hnumber, ?_⟩
  rw [toOctets, hpair, hseqno]
  rfl

theorem isMessage_toOctets (h : m.size ≤ Packet.maxSize) (hfits : m.body.read.KindFits) :
    IsMessage F m.toOctets := by
  have hlen : m.toOctets.length = m.size := m.length_toOctets
  obtain ⟨high, low, seqnoHigh, seqnoLow, hsize, -, hm⟩ := exists_toOctets_eq h
  rw [IsMessage, hlen, hm, drop_header m.originator.length_toOctets]
  refine ⟨Nat.le_add_right .., hsize, ?_⟩
  exact m.body.isBody_toOctets (Nat.le_trans (Nat.le_add_left ..) h) hfits

theorem messageSays_toOctets (h : m.size ≤ Packet.maxSize) (hfits : m.body.read.KindFits) :
    MessageSays m.toOctets m.read := by
  obtain ⟨high, low, seqnoHigh, seqnoLow, -, hseqno, hm⟩ := exists_toOctets_eq h
  have hlen := m.originator.length_toOctets
  have hfive : 5 + F.octets = 4 + F.octets + 1 := by omega
  have hsix : 6 + F.octets = 4 + F.octets + 2 := by omega
  have hseven : 6 + F.octets + 1 = 4 + F.octets + 3 := by omega
  rw [hm]
  refine ⟨rfl, ?_, ?_, ?_, ?_, ?_⟩
  · simp only [List.drop_succ_cons, List.drop_zero]
    rw [List.take_left' hlen, Address.ofOctets_toOctets]
    rfl
  · exact (getD_header hlen 0 (m.ttl :: _)).symm
  · rw [hfive, getD_header hlen]
    rfl
  · rw [numberAt, hseven, hsix, getD_header hlen, getD_header hlen]
    exact hseqno.symm
  · rw [drop_header hlen]
    exact m.body.bodySays_toOctets (Nat.le_trans (Nat.le_add_left ..) h) hfits

end Wire.Message

theorem IsMessage.exists_toOctets {bs : Octets} (h : IsMessage F bs) :
    ∃ m : Wire.Message F, m.toOctets = bs ∧ m.body.read.KindFits := by
  obtain ⟨hheader, hsize, hbody⟩ := h
  obtain ⟨kind, validity, high, low, originator, ttl, hops, seqnoHigh, seqnoLow, rest, rfl, hlen⟩ :=
    Reading.exists_header hheader
  rw [drop_header hlen] at hbody
  obtain ⟨b, hkind, rfl, hfits⟩ := hbody.exists_toOctets
  let m : Wire.Message F := ⟨⟨validity⟩, Address.ofOctets originator, ttl, hops,
    UInt16.ofNat (Octets.toNat [seqnoHigh, seqnoLow]), b⟩
  have hnumber : Octets.toNat [high, low] = m.size := by
    refine hsize.trans ?_
    simp [m, Wire.Message.size, Message.headerSize, hlen]
    omega
  refine ⟨m, ?_, hfits⟩
  rw [Wire.Message.toOctets, ← hnumber, Octets.ofNat_two_toNat, Octets.ofNat_two_seqNum,
    Address.toOctets_ofOctets hlen, hkind]
  rfl

/-! ## Datagrams -/

namespace Wire.Packet

variable {p : Packet F}

theorem numberAt_zero (h : p.IsWellFormed) (rest : Octets) : numberAt (p.toOctets ++ rest) 0 = p.size := by
  obtain ⟨high, low, hpair, hsize⟩ := Octets.exists_ofNat_two_eq h.size_le
  rw [toOctets, hpair]
  exact hsize

theorem numberAt_two (p : Packet F) (rest : Octets) : numberAt (p.toOctets ++ rest) 2 = p.seqno.toNat := by
  obtain ⟨high, low, hpair, hseqno⟩ := Octets.exists_ofNat_two_eq (Nat.le_of_lt_succ p.seqno.toNat_lt)
  rw [toOctets, Octets.ofNat_two p.size, hpair]
  exact hseqno

theorem payload_toOctets (h : p.IsWellFormed) (rest : Octets) :
    payload (p.toOctets ++ rest) = p.messages.flatMap Message.toOctets := by
  rw [payload, numberAt_zero h, List.take_left' p.length_toOctets, toOctets, Octets.ofNat_two, Octets.ofNat_two]
  rfl

theorem size_le_of_isWellFormed (h : p.IsWellFormed) {m : Message F} (hm : m ∈ p.messages) :
    m.size ≤ Manet.Packet.maxSize :=
  Nat.le_trans (size_le_of_mem hm) h.size_le

/-- The messages of a packet are a cut of what its length field leaves. -/
theorem payload_isCutInto (h : p.IsWellFormed) (rest : Octets) :
    IsCutInto (IsMessage F) (payload (p.toOctets ++ rest)) (p.messages.map Message.toOctets) := by
  rw [payload_toOctets h]
  exact isCutInto_map fun m hm => m.isMessage_toOctets (size_le_of_isWellFormed h hm) (h.kindFits m hm)

theorem isDatagram_toOctets (h : p.IsWellFormed) (rest : Octets) : IsDatagram F (p.toOctets ++ rest) := by
  have hsize : 4 ≤ p.size := Nat.le_add_right ..
  have hlen : p.size ≤ (p.toOctets ++ rest).length := by
    rw [List.length_append, length_toOctets]
    exact Nat.le_add_right ..
  have hne : p.messages.map Message.toOctets ≠ [] := fun hnil => h.messages_ne_nil (List.map_eq_nil_iff.mp hnil)
  rw [IsDatagram, numberAt_zero h]
  exact ⟨Nat.le_trans hsize hlen, hsize, hlen, _, hne, payload_isCutInto h rest⟩

end Wire.Packet

/-- A datagram of the grammar starts with a written packet. -/
theorem IsDatagram.exists_toOctets {d : Octets} (h : IsDatagram F d) :
    ∃ (p : Wire.Packet F) (rest : Octets), d = p.toOctets ++ rest ∧ p.IsWellFormed := by
  obtain ⟨hlen, hfour, hle, parts, hne, hparts⟩ := h
  rcases Reading.length_lt_four_or d with hlt | ⟨lengthHigh, lengthLow, seqnoHigh, seqnoLow, tail, rfl⟩
  · omega
  obtain ⟨ms, rfl, hflat, hfits⟩ := hparts.exists_map fun _ => IsMessage.exists_toOctets
  obtain ⟨n, hn⟩ : ∃ n, numberAt (lengthHigh :: lengthLow :: seqnoHigh :: seqnoLow :: tail) 0 = n + 4 :=
    ⟨_, (Nat.sub_add_cancel hfour).symm⟩
  have hlength : Octets.toNat [lengthHigh, lengthLow] = n + 4 := hn
  have hpayload : payload (lengthHigh :: lengthLow :: seqnoHigh :: seqnoLow :: tail) = tail.take n := by
    rw [payload, hn]
    rfl
  have hn' : n ≤ tail.length := by
    simp only [hn, List.length_cons] at hle
    omega
  let p : Wire.Packet F := ⟨UInt16.ofNat (Octets.toNat [seqnoHigh, seqnoLow]), ms⟩
  have hsize : p.size = Octets.toNat [lengthHigh, lengthLow] := by
    have hflatlen := congrArg List.length (hflat.trans hpayload)
    rw [Wire.Message.length_flatMap, List.length_take_of_le hn'] at hflatlen
    rw [hlength, Wire.Packet.size, Packet.headerSize, hflatlen, Nat.add_comm]
  refine ⟨p, tail.drop n, ?_, ?_, ?_, hfits⟩
  · rw [Wire.Packet.toOctets, hsize, Octets.ofNat_two_toNat, Octets.ofNat_two_seqNum, hflat, hpayload,
      List.append_assoc, List.append_assoc, List.take_append_drop]
    rfl
  · exact fun hnil => hne (by rw [show ms = [] from hnil, List.map_nil])
  · rw [hsize]
    exact Octets.toNat_pair_le lengthHigh lengthLow

theorem Packet.exists_decode_iff_isDatagram {d : Octets} :
    (∃ p : Packet F, Packet.decode d = .ok p) ↔ IsDatagram F d := by
  constructor
  · rintro ⟨p, h⟩
    obtain ⟨w, rest, rfl, hw, -⟩ := decode_eq_ok_iff.mp h
    exact w.isDatagram_toOctets hw rest
  · intro h
    obtain ⟨w, rest, rfl, hw⟩ := h.exists_toOctets
    exact ⟨w.read, decode_toOctets_append hw rest⟩

theorem Message.forall₂_says {ms : List (Wire.Message F)}
    (h : ∀ m ∈ ms, m.size ≤ Packet.maxSize ∧ m.body.read.KindFits) :
    List.Forall₂ MessageSays (ms.map Wire.Message.toOctets) (ms.map Wire.Message.read) := by
  induction ms with
  | nil => exact .nil
  | cons m ms ih =>
    rw [List.forall_mem_cons] at h
    exact .cons (m.messageSays_toOctets h.1.1 h.1.2) (ih h.2)

/-- A datagram is read iff it is one of the grammar, and is rejected with an error otherwise. What is
read are the messages of its only cut, each with what its octets say, and all reading stays within
the buffers. -/
theorem Packet.decode_iff_isDatagram (F : Family) (d : Octets) :
    ((∃ p : Packet F, Packet.decode d = .ok p) ↔ IsDatagram F d) ∧
      ((∃ e, (Packet.decode d : Except DecodeError (Packet F)) = .error e) ↔ ¬ IsDatagram F d) ∧
      (∀ p : Packet F, Packet.decode d = .ok p →
        p.seqno.toNat = numberAt d 2 ∧
          ∃ parts, IsOnlyCut (IsMessage F) (payload d) parts ∧ List.Forall₂ MessageSays parts p.messages) ∧
      Reading.packet d = .ofExcept (Packet.decode (F := F) d) := by
  refine ⟨exists_decode_iff_isDatagram, ?_, ?_, Reading.packet_eq d⟩
  · rw [← exists_decode_iff_isDatagram]
    cases Packet.decode (F := F) d <;> simp
  · intro p h
    obtain ⟨w, rest, rfl, hw, rfl⟩ := decode_eq_ok_iff.mp h
    have hcut := w.payload_isCutInto hw rest
    refine ⟨(w.numberAt_two rest).symm, _, hcut.isOnlyCut fun _ => IsMessage.spansItself, ?_⟩
    exact Message.forall₂_says fun m hm => ⟨w.size_le_of_isWellFormed hw hm, hw.kindFits m hm⟩

end Manet
