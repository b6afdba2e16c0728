import Manet.Proofs.WireForm

/-!
# Accepted datagrams

A datagram is accepted iff it starts with a well-formed packet, and is then read as what the packet
says (`Packet.decode_eq_ok_iff`). Addresses, blocks, bodies and messages each have a lemma for
reading what was written, and one that finds what was written in what was read.
-/

namespace Manet

variable {F : Family}

/-! ## Reading the parts -/

theorem addressesToOctets_cons (a : Address F) (as : List (Address F)) :
    addressesToOctets (a :: as) = a.toOctets ++ addressesToOctets as := List.flatMap_cons

/-- Addresses are read iff they are what is written. -/
theorem addressesOfOctets?_eq_some_iff {bs : Octets} {as : List (Address F)} :
    addressesOfOctets? bs = some as ↔ bs = addressesToOctets as := by
  fun_induction addressesOfOctets? (F := F) bs generalizing as with
  | case1 =>
    cases as with
    | nil => simp [addressesToOctets]
    | cons a as =>
      have ha := a.length_toOctets
      have hpos := F.octets_pos
      constructor
      · rintro ⟨⟩
      · intro h
        rw [addressesToOctets_cons] at h
        rw [(List.append_eq_nil_iff.mp h.symm).1] at ha
        exact absurd ha (Nat.ne_of_lt hpos)
  | case2 bs hne hnone =>
    refine ⟨by rintro ⟨⟩, ?_⟩
    rintro rfl
    cases as with
    | nil => exact absurd rfl hne
    | cons a as => simp [addressesToOctets_cons, a.splitFirst_toOctets] at hnone
  | case3 bs hne front rest hcut hlt ih =>
    obtain ⟨rfl, hlen⟩ := Octets.splitFirst_eq_some_iff.mp hcut
    cases as with
    | nil => simpa [addressesToOctets] using hne
    | cons a as =>
      rw [Option.map_eq_some_iff, addressesToOctets_cons]
      constructor
      · rintro ⟨as', hrest, h⟩
        obtain ⟨rfl, rfl⟩ := List.cons.inj h
        rw [Address.toOctets_ofOctets hlen, ← ih.mp hrest]
      · intro h
        obtain ⟨rfl, rfl⟩ := List.append_inj h (by rw [hlen, a.length_toOctets])
        exact ⟨as, ih.mpr rfl, by rw [Address.ofOctets_toOctets]⟩

/-- A block at the front is read as its addresses under its link code. -/
theorem blocksOfOctets?_append {b : Wire.Block F} (hb : b.size ≤ Packet.maxSize) (rest : Octets) :
    blocksOfOctets? (b.toOctets ++ rest) = (blocksOfOctets? rest).map (b.read?.toList ++ ·) := by
  obtain ⟨high, low, hpair, hsize⟩ := Octets.exists_ofNat_two_eq hb
  have hfour : b.size = 4 + addressesSize b.addresses := rfl
  have hcut : Octets.splitFirst (Octets.toNat [high, low] - 4) (addressesToOctets b.addresses ++ rest) =
      some (addressesToOctets b.addresses, rest) := by
    rw [Octets.splitFirst_eq_some_iff, length_addressesToOctets]
    exact ⟨rfl, by omega⟩
  have hread : addressesOfOctets? (addressesToOctets b.addresses) = some b.addresses :=
    addressesOfOctets?_eq_some_iff.mpr rfl
  rw [Wire.Block.toOctets, hpair]
  simp only [List.cons_append, List.nil_append]
  rw [blocksOfOctets?, if_neg (by omega)]
  split
  next h => cases hcut.symm.trans h
  next front rest' h =>
    cases hcut.symm.trans h
    rw [hread]
    cases blocksOfOctets? rest with
    | none => rfl
    | some blocks =>
      rw [Wire.Block.read?]
      cases LinkCode.ofOctet? b.code <;> rfl

theorem blocksOfOctets?_flatMap {bs : List (Wire.Block F)} (hbs : ∀ b ∈ bs, b.size ≤ Packet.maxSize) :
    blocksOfOctets? (bs.flatMap Wire.Block.toOctets) = some (bs.filterMap Wire.Block.read?) := by
  induction bs with
  | nil => rw [List.flatMap_nil, blocksOfOctets?, List.filterMap_nil]
  | cons b bs ih =>
    rw [List.forall_mem_cons] at hbs
    rw [List.flatMap_cons, blocksOfOctets?_append hbs.1, ih hbs.2, Option.map_some, List.filterMap_cons]
    cases b.read? <;> rfl

/-- What the size field of a block spans is the block. -/
theorem Wire.Block.toOctets_eq_of_splitFirst {code reserved high low : UInt8} {body front rest : Octets}
    {addresses : List (Address F)} (hfour : ¬ Octets.toNat [high, low] < 4)
    (hcut : Octets.splitFirst (Octets.toNat [high, low] - 4) body = some (front, rest))
    (hread : addressesOfOctets? front = some addresses) :
    code :: reserved :: high :: low :: body = Block.toOctets ⟨code, reserved, addresses⟩ ++ rest := by
  obtain ⟨rfl, hlen⟩ := Octets.splitFirst_eq_some_iff.mp hcut
  rw [addressesOfOctets?_eq_some_iff] at hread
  have hsize : Block.size ⟨code, reserved, addresses⟩ = Octets.toNat [high, low] := by
    rw [hread, length_addressesToOctets] at hlen
    rw [Block.size, hlen]
    omega
  rw [Block.toOctets, hsize, Octets.ofNat_two_toNat, hread]
  rfl

/-- Blocks that are read were written, those without a meaning among them. -/
theorem exists_of_blocksOfOctets? {bs : Octets} {blocks : List (HelloBlock F)}
    (h : blocksOfOctets? bs = some blocks) :
    ∃ ws : List (Wire.Block F), bs = ws.flatMap Wire.Block.toOctets ∧
      ws.filterMap Wire.Block.read? = blocks := by
  fun_induction blocksOfOctets? (F := F) bs generalizing blocks with
  | case1 => exact ⟨[], rfl, Option.some.inj h⟩
  | case2 | case3 | case6 | case7 => cases h
  | case4 code reserved high low body size hfour front rest hcut _ addresses blocks' hrest hfront c hcode =>
    rename_i ih
    obtain ⟨ws, rfl, rfl⟩ := ih hrest
    cases h
    refine ⟨⟨code, reserved, addresses⟩ :: ws, ?_, ?_⟩
    · rw [List.flatMap_cons, Wire.Block.toOctets_eq_of_splitFirst hfour hcut hfront]
    · exact List.filterMap_cons_some (Option.map_eq_some_iff.mpr ⟨c, hcode, rfl⟩)
  | case5 code reserved high low body size hfour front rest hcut _ addresses blocks' hrest hfront hcode =>
    rename_i ih
    obtain ⟨ws, rfl, rfl⟩ := ih hrest
    cases h
    refine ⟨⟨code, reserved, addresses⟩ :: ws, ?_, ?_⟩
    · rw [List.flatMap_cons, Wire.Block.toOctets_eq_of_splitFirst hfour hcut hfront]
    · exact List.filterMap_cons_none (Option.map_eq_none_iff.mpr hcode)

/-! ## Reading bodies -/

/-- The type of a message says how its body is read. -/
theorem Body.decode_eq_ok_iff {kind : UInt8} {bs : Octets} {b : Body F} :
    decode kind bs = .ok b ↔
      kind = 1 ∧ helloOfOctets? bs = some b ∨ kind = 2 ∧ tcOfOctets? bs = some b ∨
        kind = 3 ∧ (addressesOfOctets? bs).map mid = some b ∨
          (kind ≠ 1 ∧ kind ≠ 2 ∧ kind ≠ 3) ∧ .unknown kind bs = b := by
  rw [decode]
  by_cases h₁ : kind = 1
  · cases helloOfOctets? (F := F) bs <;> simp [h₁]
  by_cases h₂ : kind = 2
  · cases tcOfOctets? (F := F) bs <;> simp [h₂]
  by_cases h₃ : kind = 3
  · cases addressesOfOctets? (F := F) bs <;> simp [h₃]
  · simp [h₁, h₂, h₃]

/-- A written body is read as what it says. -/
theorem Body.decode_toOctets {b : Wire.Body F} (hsize : b.size ≤ Packet.maxSize)
    (hkind : b.read.KindFits) : Body.decode b.kind b.toOctets = .ok b.read := by
  rw [decode_eq_ok_iff]
  cases b with
  | hello reserved interval willingness blocks =>
    have hblocks := blocksOfOctets?_flatMap fun b hb => Nat.le_trans (Wire.Body.size_le_of_mem hb) hsize
    refine .inl ⟨rfl, ?_⟩
    rw [Wire.Body.toOctets, helloOfOctets?, hblocks]
    rfl
  | tc ansn reserved neighbours =>
    obtain ⟨high, low, hpair, -⟩ := Octets.exists_ofNat_two_eq (Nat.le_of_lt_succ ansn.toNat_lt)
    have hansn := Octets.seqNum_ofNat_two ansn
    refine .inr (.inl ⟨rfl, ?_⟩)
    rw [hpair] at hansn
    rw [Wire.Body.toOctets, hpair, List.cons_append, List.cons_append, List.nil_append, tcOfOctets?,
      addressesOfOctets?_eq_some_iff.mpr rfl, hansn]
    rfl
  | mid interfaces =>
    refine .inr (.inr (.inl ⟨rfl, ?_⟩))
    rw [Wire.Body.toOctets, addressesOfOctets?_eq_some_iff.mpr rfl]
    rfl
  | other kind payload => exact .inr (.inr (.inr ⟨hkind, rfl⟩))

/-- A body that is read was written. -/
theorem Body.exists_of_decode {kind : UInt8} {bs : Octets} {b : Body F} (h : decode kind bs = .ok b) :
    ∃ w : Wire.Body F, w.kind = kind ∧ w.toOctets = bs ∧ w.read = b ∧ b.KindFits := by
  rw [decode_eq_ok_iff] at h
  obtain ⟨rfl, h⟩ | ⟨rfl, h⟩ | ⟨rfl, h⟩ | ⟨hkind, rfl⟩ := h
  · unfold helloOfOctets? at h
    split at h
    next first second interval willingness rest =>
      obtain ⟨blocks, hblocks, rfl⟩ := Option.map_eq_some_iff.mp h
      obtain ⟨ws, rfl, rfl⟩ := exists_of_blocksOfOctets? hblocks
      exact ⟨.hello (first, second) ⟨interval⟩ willingness ws, rfl, rfl, rfl, trivial⟩
    next => cases h
  · unfold tcOfOctets? at h
    split at h
    next high low first second rest =>
      obtain ⟨neighbours, hneighbours, rfl⟩ := Option.map_eq_some_iff.mp h
      obtain rfl := addressesOfOctets?_eq_some_iff.mp hneighbours
      refine ⟨.tc (UInt16.ofNat (Octets.toNat [high, low])) (first, second) neighbours, rfl, ?_, rfl, trivial⟩
      rw [Wire.Body.toOctets, Octets.ofNat_two_seqNum]
      rfl
    next => cases h
  · obtain ⟨interfaces, hinterfaces, rfl⟩ := Option.map_eq_some_iff.mp h
    obtain rfl := addressesOfOctets?_eq_some_iff.mp hinterfaces
    exact ⟨.mid interfaces, rfl, rfl, rfl, trivial⟩
  · exact ⟨.other kind bs, rfl, rfl, rfl, hkind⟩

/-! ## Reading messages and packets -/

theorem Except.bind_eq_ok {ε α β : Type} {x : Except ε α} {f : α → Except ε β} {b : β}
    (h : x >>= f = .ok b) : ∃ a, x = .ok a ∧ f a = .ok b := by
  cases x with
  | error e => cases h
  | ok a => exact ⟨a, rfl, h⟩

/-- A written message is read as what it says. -/
theorem Message.decode_toOctets {m : Wire.Message F} (hsize : m.size ≤ Packet.maxSize)
    (hkind : m.body.read.KindFits) : Message.decode m.toOctets = .ok m.read := by
  obtain ⟨high, low, hpair, -⟩ := Octets.exists_ofNat_two_eq hsize
  obtain ⟨seqnoHigh, seqnoLow, hseqno, -⟩ := Octets.exists_ofNat_two_eq (Nat.le_of_lt_succ m.seqno.toNat_lt)
  have hbody := Body.decode_toOctets (Nat.le_trans (Nat.le_add_left ..) hsize) hkind
  have hread := Octets.seqNum_ofNat_two m.seqno
  rw [hseqno] at hread
  rw [Wire.Message.toOctets, hpair, hseqno]
  simp only [List.cons_append, List.nil_append, decode, m.originator.splitFirst_toOctets, hbody]
  rw [hread, Address.ofOctets_toOctets]
  rfl

/-- The size field of a message is among its octets. -/
theorem messageSizeField_append {front : Octets} (h : 4 ≤ front.length) (rest : Octets) :
    messageSizeField (front ++ rest) = messageSizeField front :=
  match front, h with
  | _ :: _ :: _ :: _ :: _, _ => rfl

theorem messageSizeField_toOctets {m : Wire.Message F} (h : m.size ≤ Packet.maxSize) (rest : Octets) :
    messageSizeField (m.toOctets ++ rest) = m.size := by
  obtain ⟨high, low, hpair, hsize⟩ := Octets.exists_ofNat_two_eq h
  rw [Wire.Message.toOctets, hpair]
  exact hsize

/-- A message that is read from as many octets as it says was written. -/
theorem Message.exists_of_decode {bs : Octets} {m : Message F} (h : decode bs = .ok m)
    (hlen : bs.length = messageSizeField bs) :
    ∃ w : Wire.Message F, bs = w.toOctets ∧ w.read = m ∧ w.body.read.KindFits := by
  unfold decode at h
  split at h
  next kind validity high low rest =>
    split at h
    next originator ttl hops seqnoHigh seqnoLow payload hcut =>
      obtain ⟨rfl, horiginator⟩ := Octets.splitFirst_eq_some_iff.mp hcut
      obtain ⟨body, hbody, h⟩ := Except.bind_eq_ok h
      obtain ⟨w, rfl, rfl, rfl, hkind⟩ := Body.exists_of_decode hbody
      cases h
      let m : Wire.Message F :=
        ⟨⟨validity⟩, Address.ofOctets originator, ttl, hops,
          UInt16.ofNat (Octets.toNat [seqnoHigh, seqnoLow]), w⟩
      have hsize : m.size = Octets.toNat [high, low] := by
        rw [messageSizeField] at hlen
        rw [← hlen, Wire.Message.size, Message.headerSize]
        simp [horiginator, m]
        omega
      refine ⟨m, ?_, rfl, hkind⟩
      rw [Wire.Message.toOctets, hsize, Octets.ofNat_two_toNat, Octets.ofNat_two_seqNum,
        Address.toOctets_ofOctets horiginator]
      rfl
    next => cases h
  next => cases h

/-- A message at the front is read first. -/
theorem messagesOfOctets_append {m : Wire.Message F} (hsize : m.size ≤ Packet.maxSize)
    (hkind : m.body.read.KindFits) (rest : Octets) :
    messagesOfOctets (m.toOctets ++ rest) = (messagesOfOctets rest).map (m.read :: ·) := by
  have hle : Message.headerSize F ≤ m.size := Nat.le_add_right ..
  have hpos := Message.headerSize_pos F
  have hfield := messageSizeField_toOctets hsize rest
  have hlength : (m.toOctets ++ rest).length = m.size + rest.length := by simp
  have hcut : (m.toOctets ++ rest).splitFirst (messageSizeField (m.toOctets ++ rest)) = some (m.toOctets, rest) := by
    rw [hfield]
    exact Octets.splitFirst_eq_some_iff.mpr ⟨rfl, m.length_toOctets⟩
  rw [messagesOfOctets, if_neg (by rintro h; simp [h] at hlength; omega),
    if_neg (by rw [Octets.splitFirst_eq_none_iff]; omega), dif_neg (by omega)]
  split
  next h => cases hcut.symm.trans h
  next front rest' h =>
    cases hcut.symm.trans h
    rw [Message.decode_toOctets hsize hkind]
    cases messagesOfOctets rest <;> rfl

theorem messagesOfOctets_flatMap {ms : List (Wire.Message F)}
    (hms : ∀ m ∈ ms, m.size ≤ Packet.maxSize ∧ m.body.read.KindFits) :
    messagesOfOctets (ms.flatMap Wire.Message.toOctets) = .ok (ms.map Wire.Message.read) := by
  induction ms with
  | nil => rw [List.flatMap_nil, messagesOfOctets, if_pos rfl, List.map_nil]
  | cons m ms ih =>
    rw [List.forall_mem_cons] at hms
    rw [List.flatMap_cons, messagesOfOctets_append hms.1.1 hms.1.2, ih hms.2]
    rfl

/-- Messages that are read were written. -/
theorem exists_of_messagesOfOctets {bs : Octets} {ms : List (Message F)} (h : messagesOfOctets bs = .ok ms) :
    ∃ ws : List (Wire.Message F), bs = ws.flatMap Wire.Message.toOctets ∧
      ws.map Wire.Message.read = ms ∧ ∀ w ∈ ws, w.body.read.KindFits := by
  fun_induction messagesOfOctets (F := F) bs generalizing ms with
  | case1 =>
    cases h
    exact ⟨[], rfl, rfl, nofun⟩
  | case2 | case3 | case4 => cases h
  | case5 bs hne hheader size hsize front rest hcut hlt =>
    rename_i ih
    obtain ⟨rfl, hlen⟩ := Octets.splitFirst_eq_some_iff.mp hcut
    obtain ⟨m, hm, h⟩ := Except.bind_eq_ok h
    obtain ⟨ms', hms', h⟩ := Except.bind_eq_ok h
    obtain ⟨ws, rfl, rfl, hws⟩ := ih hms'
    cases h
    have hfour : 4 ≤ front.length := by
      rw [Message.headerSize] at hsize
      omega
    obtain ⟨w, rfl, rfl, hkind⟩ := Message.exists_of_decode hm (hlen.trans (messageSizeField_append hfour _))
    exact ⟨w :: ws, rfl, rfl, List.forall_mem_cons.mpr ⟨hkind, hws⟩⟩

theorem Wire.Message.flatMap_toOctets_ne_nil {ms : List (Message F)} (h : ms ≠ []) :
    ms.flatMap toOctets ≠ [] := by
  obtain ⟨m, ms, rfl⟩ := List.exists_cons_of_ne_nil h
  exact List.cons_ne_nil _ _

/-- A datagram that starts with a written packet is read as what the packet says. -/
theorem Packet.decode_toOctets_append {p : Wire.Packet F} (h : p.IsWellFormed) (rest : Octets) :
    Packet.decode (p.toOctets ++ rest) = .ok p.read := by
  obtain ⟨high, low, hpair, hsize⟩ := Octets.exists_ofNat_two_eq h.size_le
  obtain ⟨seqnoHigh, seqnoLow, hseqno, -⟩ := Octets.exists_ofNat_two_eq (Nat.le_of_lt_succ p.seqno.toNat_lt)
  have hread := Octets.seqNum_ofNat_two p.seqno
  have hmessages := messagesOfOctets_flatMap fun m hm =>
    ⟨Nat.le_trans (Wire.Packet.size_le_of_mem hm) h.size_le, h.kindFits m hm⟩
  have hfour : p.size = headerSize + (p.messages.flatMap Wire.Message.toOctets).length := by
    rw [Wire.Message.length_flatMap, Wire.Packet.size]
  have hcut : Octets.splitFirst (Octets.toNat [high, low] - headerSize)
      (p.messages.flatMap Wire.Message.toOctets ++ rest) =
        some (p.messages.flatMap Wire.Message.toOctets, rest) :=
    Octets.splitFirst_eq_some_iff.mpr ⟨rfl, by omega⟩
  have hne := Wire.Message.flatMap_toOctets_ne_nil h.messages_ne_nil
  rw [hseqno] at hread
  rw [Wire.Packet.toOctets, hpair, hseqno]
  simp only [List.cons_append, List.nil_append, decode]
  rw [if_neg (by omega), hcut]
  split
  next h => cases h
  next h =>
    obtain ⟨h, -⟩ := Prod.mk.inj (Option.some.inj h)
    exact absurd h hne
  next front rest' _ h =>
    cases h
    rw [hmessages, hread]
    rfl

/-- A packet that is read was written. -/
theorem Packet.exists_of_decode {d : Octets} {p : Packet F} (h : Packet.decode d = .ok p) :
    ∃ (w : Wire.Packet F) (rest : Octets), d = w.toOctets ++ rest ∧ w.IsWellFormed ∧ w.read = p := by
  unfold Packet.decode at h
  split at h
  next high low seqnoHigh seqnoLow octets =>
    dsimp only at h
    split at h
    next => cases h
    next hfour =>
      split at h
      next => cases h
      next => cases h
      next front rest hne hcut =>
        obtain ⟨rfl, hlen⟩ := Octets.splitFirst_eq_some_iff.mp hcut
        obtain ⟨messages, hmessages, h⟩ := Except.bind_eq_ok h
        obtain ⟨ws, rfl, rfl, hws⟩ := exists_of_messagesOfOctets hmessages
        cases h
        let w : Wire.Packet F := ⟨UInt16.ofNat (Octets.toNat [seqnoHigh, seqnoLow]), ws⟩
        have hsize : w.size = Octets.toNat [high, low] := by
          rw [Wire.Message.length_flatMap] at hlen
          rw [Wire.Packet.size, hlen]
          omega
        refine ⟨w, rest, ?_, ⟨?_, ?_, hws⟩, rfl⟩
        · rw [Wire.Packet.toOctets, hsize, Octets.ofNat_two_toNat, Octets.ofNat_two_seqNum]
          rfl
        · rintro rfl
          exact hne rfl
        · rw [hsize]
          exact Octets.toNat_pair_le high low
  next => cases h

/-- A datagram is accepted iff it starts with a written packet. -/
theorem Packet.decode_eq_ok_iff {d : Octets} {p : Packet F} :
    Packet.decode d = .ok p ↔
      ∃ (w : Wire.Packet F) (rest : Octets), d = w.toOctets ++ rest ∧ w.IsWellFormed ∧ w.read = p := by
  constructor
  · exact exists_of_decode
  · rintro ⟨w, rest, rfl, hw, rfl⟩
    exact decode_toOctets_append hw rest

end Manet
