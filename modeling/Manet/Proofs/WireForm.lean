import Mathlib.Algebra.Ring.Nat
import Manet.Packet.Decoding
import Manet.Packet.Encoding

/-!
# Written forms

A written form is what a datagram says, octet for octet: also the reserved octets, the link codes
that mean nothing and the unused bits of a willingness, which reading drops (`Wire.Packet.read`).
Every level states its own length, so a string of octets starts with one written form at most
(`Wire.Packet.append_inj`).
-/

namespace Manet

variable {F : Family}

namespace Wire

/-- A block of a HELLO with any link code. -/
@[ext] structure Block (F : Family) where
  code : UInt8
  reserved : UInt8
  addresses : List (Address F)
deriving DecidableEq

/-- The contents of a message, reserved octets included. -/
inductive Body (F : Family) where
  | hello (reserved : UInt8 × UInt8) (interval : TimeCode) (willingness : UInt8) (blocks : List (Block F))
  | tc (ansn : SeqNum) (reserved : UInt8 × UInt8) (neighbours : List (Address F))
  | mid (interfaces : List (Address F))
  | other (kind : UInt8) (payload : Octets)
deriving DecidableEq

/-- A message with a written body. -/
@[ext] structure Message (F : Family) where
  validity : TimeCode
  originator : Address F
  ttl : UInt8
  hops : UInt8
  seqno : SeqNum
  body : Body F
deriving DecidableEq

/-- A packet of written messages. -/
@[ext] structure Packet (F : Family) where
  seqno : SeqNum
  messages : List (Message F)
deriving DecidableEq

/-! ## Octets -/

/-- The octets of a block with its header. -/
def Block.size (b : Block F) : Nat := 4 + addressesSize b.addresses

/-- The octets of a body. -/
def Body.size : Body F → Nat
  | .hello _ _ _ blocks => 4 + (blocks.map Block.size).sum
  | .tc _ _ neighbours => 4 + addressesSize neighbours
  | .mid interfaces => addressesSize interfaces
  | .other _ payload => payload.length

/-- The octets of a message. -/
def Message.size (m : Message F) : Nat := Manet.Message.headerSize F + m.body.size

/-- The octets of a packet. -/
def Packet.size (p : Packet F) : Nat := Manet.Packet.headerSize + (p.messages.map Message.size).sum

/-- The message type. -/
def Body.kind : Body F → UInt8
  | .hello .. => 1
  | .tc .. => 2
  | .mid .. => 3
  | .other kind _ => kind

/-- A block as it is written. -/
def Block.toOctets (b : Block F) : Octets :=
  b.code :: b.reserved :: (Octets.ofNat 2 b.size ++ addressesToOctets b.addresses)

/-- A body as it is written. -/
def Body.toOctets : Body F → Octets
  | .hello reserved interval willingness blocks =>
    reserved.1 :: reserved.2 :: interval.octet :: willingness :: blocks.flatMap Block.toOctets
  | .tc ansn reserved neighbours =>
    Octets.ofNat 2 ansn.toNat ++ reserved.1 :: reserved.2 :: addressesToOctets neighbours
  | .mid interfaces => addressesToOctets interfaces
  | .other _ payload => payload

/-- A message as it is written. -/
def Message.toOctets (m : Message F) : Octets :=
  m.body.kind :: m.validity.octet :: (Octets.ofNat 2 m.size ++ (m.originator.toOctets ++
    m.ttl :: m.hops :: (Octets.ofNat 2 m.seqno.toNat ++ m.body.toOctets)))

/-- A packet as it is written. -/
def Packet.toOctets (p : Packet F) : Octets :=
  Octets.ofNat 2 p.size ++ (Octets.ofNat 2 p.seqno.toNat ++ p.messages.flatMap Message.toOctets)

/-! ## Meaning -/

/-- The block, if its link code means something. -/
def Block.read? (b : Block F) : Option (HelloBlock F) :=
  (LinkCode.ofOctet? b.code).map (⟨·, b.addresses⟩)

/-- What the body says. -/
def Body.read : Body F → Manet.Body F
  | .hello _ interval willingness blocks =>
    .hello interval (Willingness.ofOctet willingness) (blocks.filterMap Block.read?)
  | .tc ansn _ neighbours => .tc ansn neighbours
  | .mid interfaces => .mid interfaces
  | .other kind payload => .unknown kind payload

/-- What the message says. -/
def Message.read (m : Message F) : Manet.Message F where
  validity := m.validity
  originator := m.originator
  ttl := m.ttl
  hops := m.hops
  seqno := m.seqno
  body := m.body.read

/-- What the packet says. -/
def Packet.read (p : Packet F) : Manet.Packet F := ⟨p.seqno, p.messages.map Message.read⟩

end Wire

/-- A body of a type that is not understood does not have the type of one that is. -/
def Body.KindFits : Body F → Prop
  | .unknown kind _ => kind ≠ 1 ∧ kind ≠ 2 ∧ kind ≠ 3
  | _ => True

instance : (b : Body F) → Decidable b.KindFits
  | .unknown kind _ => inferInstanceAs (Decidable (kind ≠ 1 ∧ kind ≠ 2 ∧ kind ≠ 3))
  | .hello .. | .tc .. | .mid .. => .isTrue trivial

/-- A packet can be written: it has messages, fits its length field, and bodies have their types. -/
structure Wire.Packet.IsWellFormed (p : Wire.Packet F) : Prop where
  messages_ne_nil : p.messages ≠ []
  size_le : p.size ≤ Packet.maxSize
  kindFits : ∀ m ∈ p.messages, m.body.read.KindFits

/-! ## Octets of the parts -/

namespace Octets

theorem ofNat_two (v : Nat) : ofNat 2 v = [UInt8.ofNat (v / 256), UInt8.ofNat v] := rfl

theorem ofNat_two_toNat (high low : UInt8) : ofNat 2 (toNat [high, low]) = [high, low] :=
  ofNat_toNat [high, low]

theorem toNat_pair_le (high low : UInt8) : toNat [high, low] ≤ Packet.maxSize :=
  Nat.le_of_lt_succ (toNat_lt [high, low])

/-- A length field says the length. -/
theorem toNat_ofNat_two {v : Nat} (h : v ≤ Packet.maxSize) : toNat (ofNat 2 v) = v := by
  rw [toNat_ofNat]
  exact Nat.mod_eq_of_lt (Nat.lt_succ_of_le h)

theorem exists_ofNat_two_eq {v : Nat} (h : v ≤ Packet.maxSize) :
    ∃ high low, ofNat 2 v = [high, low] ∧ toNat [high, low] = v :=
  ⟨_, _, ofNat_two v, toNat_ofNat_two h⟩

theorem seqNum_ofNat_two (s : SeqNum) : UInt16.ofNat (toNat (ofNat 2 s.toNat)) = s := by
  rw [toNat_ofNat_two (Nat.le_of_lt_succ s.toNat_lt), UInt16.ofNat_toNat]

theorem ofNat_two_seqNum (high low : UInt8) :
    ofNat 2 (UInt16.ofNat (toNat [high, low])).toNat = [high, low] := by
  rw [UInt16.toNat_ofNat_of_lt' (Nat.lt_succ_of_le (toNat_pair_le high low)), ofNat_two_toNat]

theorem ofNat_two_inj {v w : Nat} (hv : v ≤ Packet.maxSize) (hw : w ≤ Packet.maxSize)
    (h : ofNat 2 v = ofNat 2 w) : v = w := by
  rw [← toNat_ofNat_two hv, ← toNat_ofNat_two hw, h]

end Octets

theorem Address.splitFirst_toOctets (a : Address F) (rest : Octets) :
    Octets.splitFirst F.octets (a.toOctets ++ rest) = some (a.toOctets, rest) :=
  Octets.splitFirst_eq_some_iff.mpr ⟨rfl, a.length_toOctets⟩

theorem Address.toOctets_inj {a b : Address F} (h : a.toOctets = b.toOctets) : a = b := by
  rw [← ofOctets_toOctets a, h, ofOctets_toOctets]

@[simp] theorem length_addressesToOctets (as : List (Address F)) :
    (addressesToOctets as).length = addressesSize as := by
  simp [addressesToOctets, addressesSize, List.length_flatMap, List.map_const']

/-! ## Lengths -/

namespace Wire

@[simp] theorem Block.length_toOctets (b : Block F) : b.toOctets.length = b.size := by
  simp [toOctets, size]
  omega

theorem Block.length_flatMap (bs : List (Block F)) : (bs.flatMap toOctets).length = (bs.map size).sum := by
  rw [List.length_flatMap, funext length_toOctets]

@[simp] theorem Body.length_toOctets (b : Body F) : b.toOctets.length = b.size := by
  cases b with
  | hello =>
    rw [toOctets, size, ← Block.length_flatMap]
    simp only [List.length_cons]
    omega
  | tc =>
    simp [toOctets, size]
    omega
  | mid => simp [toOctets, size]
  | other => rfl

@[simp] theorem Message.length_toOctets (m : Message F) : m.toOctets.length = m.size := by
  simp [toOctets, size, Manet.Message.headerSize]
  omega

theorem Message.length_flatMap (ms : List (Message F)) :
    (ms.flatMap toOctets).length = (ms.map size).sum := by
  rw [List.length_flatMap, funext length_toOctets]

@[simp] theorem Packet.length_toOctets (p : Packet F) : p.toOctets.length = p.size := by
  rw [toOctets, size, ← Message.length_flatMap]
  simp [Manet.Packet.headerSize]
  omega

theorem Body.size_le_of_mem {reserved : UInt8 × UInt8} {interval : TimeCode} {willingness : UInt8}
    {blocks : List (Block F)} {b : Block F} (h : b ∈ blocks) :
    b.size ≤ (Body.hello reserved interval willingness blocks).size := by
  have hsub := (List.sublist_flatten_of_mem (List.mem_map_of_mem (f := Block.toOctets) h)).length_le
  rw [← List.flatMap_def, Block.length_toOctets, Block.length_flatMap] at hsub
  exact Nat.le_trans hsub (Nat.le_add_left ..)

theorem Packet.size_le_of_mem {p : Packet F} {m : Message F} (h : m ∈ p.messages) : m.size ≤ p.size := by
  have hsub := (List.sublist_flatten_of_mem (List.mem_map_of_mem (f := Message.toOctets) h)).length_le
  rw [← List.flatMap_def, Message.length_toOctets, Message.length_flatMap] at hsub
  exact Nat.le_trans hsub (Nat.le_add_left ..)

end Wire

/-! ## Written forms are self-delimiting -/

/-- A string cut into parts that say where they end was cut in one way. -/
theorem Octets.flatMap_inj {α : Type} {f : α → Octets} {P : α → Prop} (hne : ∀ a, P a → f a ≠ [])
    (hinj : ∀ a b r s, P a → P b → f a ++ r = f b ++ s → a = b ∧ r = s) {as bs : List α}
    (has : ∀ a ∈ as, P a) (hbs : ∀ b ∈ bs, P b) (h : as.flatMap f = bs.flatMap f) : as = bs := by
  induction as generalizing bs with
  | nil =>
    cases bs with
    | nil => rfl
    | cons b bs => exact absurd (List.append_eq_nil_iff.mp h.symm).1 (hne b (hbs b List.mem_cons_self))
  | cons a as ih =>
    rw [List.forall_mem_cons] at has
    cases bs with
    | nil => exact absurd (List.append_eq_nil_iff.mp h).1 (hne a has.1)
    | cons b bs =>
      rw [List.forall_mem_cons] at hbs
      obtain ⟨rfl, hrest⟩ := hinj a b _ _ has.1 hbs.1 h
      rw [ih has.2 hbs.2 hrest]

theorem addressesToOctets_inj {as bs : List (Address F)} (h : addressesToOctets as = addressesToOctets bs) :
    as = bs := by
  refine Octets.flatMap_inj (P := fun _ => True) ?_ ?_ (fun _ _ => trivial) (fun _ _ => trivial) h
  · intro a _ ha
    have hlen := a.length_toOctets
    rw [ha] at hlen
    exact absurd hlen (Nat.ne_of_lt F.octets_pos)
  · intro a b r s _ _ h
    obtain ⟨ha, rfl⟩ := List.append_inj h (by simp)
    exact ⟨Address.toOctets_inj ha, rfl⟩

attribute [ext] TimeCode

theorem Octets.ofNat_two_append_inj {v w : Nat} {r s : Octets} (h : ofNat 2 v ++ r = ofNat 2 w ++ s) :
    ofNat 2 v = ofNat 2 w ∧ r = s :=
  List.append_inj h (by simp)

theorem Octets.seqNum_append_inj {s t : SeqNum} {r r' : Octets}
    (h : ofNat 2 s.toNat ++ r = ofNat 2 t.toNat ++ r') : s = t ∧ r = r' := by
  obtain ⟨hpair, rfl⟩ := ofNat_two_append_inj h
  have hnat := ofNat_two_inj (Nat.le_of_lt_succ s.toNat_lt) (Nat.le_of_lt_succ t.toNat_lt) hpair
  exact ⟨UInt16.toNat_inj.mp hnat, rfl⟩

namespace Wire

theorem Block.append_inj {b b' : Block F} {r r' : Octets} (hb : b.size ≤ Manet.Packet.maxSize)
    (hb' : b'.size ≤ Manet.Packet.maxSize) (h : b.toOctets ++ r = b'.toOctets ++ r') : b = b' ∧ r = r' := by
  simp only [toOctets, List.cons_append, List.append_assoc, List.cons.injEq] at h
  obtain ⟨hcode, hreserved, h⟩ := h
  obtain ⟨hsize, h⟩ := Octets.ofNat_two_append_inj h
  have hlen : b.size = b'.size := Octets.ofNat_two_inj hb hb' hsize
  rw [size, size] at hlen
  obtain ⟨haddresses, rfl⟩ := List.append_inj h (by
    rw [length_addressesToOctets, length_addressesToOctets]
    omega)
  exact ⟨Block.ext hcode hreserved (addressesToOctets_inj haddresses), rfl⟩

/-- The type of a message and its octets say what the body is. -/
theorem Body.toOctets_inj {b b' : Body F} (hb : b.size ≤ Manet.Packet.maxSize)
    (hb' : b'.size ≤ Manet.Packet.maxSize) (hfits : b.read.KindFits) (hfits' : b'.read.KindFits)
    (hkind : b.kind = b'.kind) (h : b.toOctets = b'.toOctets) : b = b' := by
  cases b <;> cases b'
  case hello.hello reserved interval willingness blocks reserved' interval' willingness' blocks' =>
    simp only [toOctets, List.cons.injEq] at h
    obtain ⟨hfirst, hsecond, hinterval, rfl, h⟩ := h
    have hblocks : blocks = blocks' :=
      Octets.flatMap_inj (fun _ _ => List.cons_ne_nil _ _) (fun _ _ _ _ => Block.append_inj)
        (fun _ hc => Nat.le_trans (size_le_of_mem hc) hb) (fun _ hc => Nat.le_trans (size_le_of_mem hc) hb') h
    rw [Prod.ext hfirst hsecond, TimeCode.ext hinterval, hblocks]
  case tc.tc ansn reserved neighbours ansn' reserved' neighbours' =>
    obtain ⟨rfl, hrest⟩ := Octets.seqNum_append_inj h
    obtain ⟨hfirst, hsecond, haddresses⟩ : _ ∧ _ ∧ _ := by simpa only [List.cons.injEq] using hrest
    rw [Prod.ext hfirst hsecond, addressesToOctets_inj haddresses]
  case mid.mid => rw [addressesToOctets_inj h]
  case other.other kind payload kind' payload' =>
    have hkind' : kind = kind' := hkind
    have hpayload : payload = payload' := h
    rw [hkind', hpayload]
  all_goals simp_all [kind, read, Manet.Body.KindFits]

theorem Message.append_inj {m m' : Message F} {r r' : Octets} (hm : m.size ≤ Manet.Packet.maxSize)
    (hm' : m'.size ≤ Manet.Packet.maxSize) (hfits : m.body.read.KindFits) (hfits' : m'.body.read.KindFits)
    (h : m.toOctets ++ r = m'.toOctets ++ r') : m = m' ∧ r = r' := by
  simp only [toOctets, List.cons_append, List.append_assoc, List.cons.injEq] at h
  obtain ⟨hkind, hvalidity, h⟩ := h
  obtain ⟨hsize, h⟩ := Octets.ofNat_two_append_inj h
  obtain ⟨horiginator, h⟩ := List.append_inj h (by simp)
  obtain ⟨httl, hhops, h⟩ : _ ∧ _ ∧ _ := by simpa only [List.cons.injEq] using h
  obtain ⟨hseqno, h⟩ := Octets.seqNum_append_inj h
  have hlen : m.body.size = m'.body.size :=
    Nat.add_left_cancel (Octets.ofNat_two_inj hm hm' hsize)
  obtain ⟨hoctets, rfl⟩ := List.append_inj h (by simpa using hlen)
  have hbody := Body.toOctets_inj (Nat.le_trans (Nat.le_add_left ..) hm)
    (Nat.le_trans (Nat.le_add_left ..) hm') hfits hfits' hkind hoctets
  exact ⟨Message.ext (TimeCode.ext hvalidity) (Address.toOctets_inj horiginator) httl hhops hseqno hbody, rfl⟩

/-- A string starts with one written packet at most. -/
theorem Packet.append_inj {p p' : Packet F} {r r' : Octets} (hp : p.IsWellFormed) (hp' : p'.IsWellFormed)
    (h : p.toOctets ++ r = p'.toOctets ++ r') : p = p' ∧ r = r' := by
  simp only [toOctets, List.append_assoc] at h
  obtain ⟨hsize, h⟩ := Octets.ofNat_two_append_inj h
  obtain ⟨hseqno, h⟩ := Octets.seqNum_append_inj h
  have hlen := Nat.add_left_cancel (Octets.ofNat_two_inj hp.size_le hp'.size_le hsize)
  rw [← Message.length_flatMap, ← Message.length_flatMap] at hlen
  obtain ⟨hoctets, rfl⟩ := List.append_inj h hlen
  have hmessages : p.messages = p'.messages :=
    Octets.flatMap_inj (P := fun m : Message F => m.size ≤ Manet.Packet.maxSize ∧ m.body.read.KindFits)
      (fun _ _ => List.cons_ne_nil _ _) (fun _ _ _ _ hm hm' => Message.append_inj hm.1 hm'.1 hm.2 hm'.2)
      (fun m hm => ⟨Nat.le_trans (size_le_of_mem hm) hp.size_le, hp.kindFits m hm⟩)
      (fun m hm => ⟨Nat.le_trans (size_le_of_mem hm) hp'.size_le, hp'.kindFits m hm⟩) hoctets
  exact ⟨Packet.ext hseqno hmessages, rfl⟩

end Wire

end Manet
