import Mathlib.Data.List.Chain
import Manet.Proofs.Emissions
import Manet.Proofs.PacketSizes

/-!
# Flushes

A flush cuts the queue into packets and sends each of them out of every interface (`flush_sends`). The
cut loses, repeats and reorders nothing, and it is greedy: a packet ends only where the next message
would break the limit on messages or the length field (`Packet.Cuts`). A queue has one such cut only
(`Packet.Cuts.eq`), and a flush takes it (`Packet.cuts_numbered`).
-/

namespace Manet

variable {F : Family}

namespace Packet

/-! ## Greedy cuts -/

/-- Messages that one packet may hold: some, no more than the limit or one, and they fit the length
field. -/
structure IsBatch (limit : Nat) (ms : List (Message F)) : Prop where
  ne_nil : ms ≠ []
  length_le : ms.length ≤ max 1 limit
  fits : headerSize + messagesSize ms ≤ maxSize

/-- Messages that are all a packet could take of what goes before the others: one more would break the
limit or the length field. -/
def IsFullBefore (limit : Nat) (ms next : List (Message F)) : Prop :=
  ∀ m ∈ next.head?, max 1 limit < ms.length + 1 ∨ maxSize < headerSize + messagesSize ms + m.size

theorem length_fst_takeFitting_le (limit used : Nat) (ms : List (Message F)) :
    (takeFitting limit used ms).1.length ≤ limit := by
  fun_induction takeFitting limit used ms with
  | case3 _ _ _ _ _ _ _ hcut ih =>
    rw [hcut] at ih
    exact Nat.succ_le_succ ih
  | _ => exact Nat.zero_le _

/-- What is left starts with a message for which there is no room. -/
theorem no_room_of_takeFitting (limit used : Nat) (ms : List (Message F)) :
    ∀ m ∈ (takeFitting limit used ms).2.head?, limit < (takeFitting limit used ms).1.length + 1 ∨
      maxSize < used + messagesSize (takeFitting limit used ms).1 + m.size := by
  fun_induction takeFitting limit used ms with
  | case1 => exact fun _ _ => .inl (Nat.zero_lt_succ _)
  | case2 => exact fun m hm => absurd hm (Option.not_mem_none m)
  | case3 limit used m ms _ front rest hcut ih =>
    intro m' hm'
    rw [hcut] at ih
    rcases ih m' hm' with hcount | hsize
    · exact .inl (Nat.succ_lt_succ hcount)
    · refine .inr ?_
      rwa [messagesSize, ← Nat.add_assoc]
  | case4 limit used m ms hfull =>
    intro m' hm'
    obtain rfl : m = m' := Option.some.inj hm'
    exact .inr (Nat.lt_of_not_le hfull)

theorem isBatch_of_mem_batches {limit : Nat} {queue : List (Message F)}
    (hqueue : ∀ m ∈ queue, m.size ≤ Message.maxSize) :
    ∀ ms ∈ batches limit queue, IsBatch limit ms := by
  fun_induction batches limit queue with
  | case1 => exact fun ms hms => absurd hms List.not_mem_nil
  | case2 m ms cut ih =>
    have hm := hqueue m List.mem_cons_self
    have hroom : headerSize + m.size ≤ maxSize := by
      simp only [Message.maxSize, maxSize, headerSize] at hm ⊢
      omega
    have hrest : ∀ m' ∈ cut.2, m'.size ≤ Message.maxSize := fun m' hm' =>
      hqueue m' (List.mem_cons_of_mem _ (by
        rw [← takeFitting_append (limit - 1) (headerSize + m.size) ms]
        exact List.mem_append_right _ hm'))
    refine List.forall_mem_cons.mpr ⟨⟨List.cons_ne_nil _ _, ?_, ?_⟩, ih hrest⟩
    · have hle : cut.1.length ≤ limit - 1 := length_fst_takeFitting_le ..
      exact (Nat.succ_le_succ hle).trans (by omega)
    · rw [messagesSize, ← Nat.add_assoc]
      exact used_add_takeFitting_le hroom _ _

/-- A batch ends only where the first message of the next one has no room. -/
theorem isChain_batches (limit : Nat) (queue : List (Message F)) :
    (batches limit queue).IsChain (IsFullBefore limit) := by
  fun_induction batches limit queue with
  | case1 => exact .nil
  | case2 m ms cut ih =>
    refine List.isChain_cons.mpr ⟨fun next hnext m' hm' => ?_, ih⟩
    have hhead : m' ∈ cut.2.head? := by
      rw [← flatten_batches limit cut.2]
      obtain ⟨rest, hrest⟩ := List.head?_eq_some_iff.mp hnext
      rw [hrest, List.flatten_cons, List.head?_append, hm']
      rfl
    rcases no_room_of_takeFitting (limit - 1) (headerSize + m.size) ms m' hhead with hcount | hsize
    · have hlt : limit - 1 < cut.1.length + 1 := hcount
      exact .inl (Nat.lt_of_le_of_lt (by omega) (Nat.succ_lt_succ hlt))
    · refine .inr ?_
      rwa [messagesSize, ← Nat.add_assoc]

/-- Where a batch is full, no batch goes on with what comes after it. -/
theorem IsFullBefore.eq_nil {limit : Nat} {ms rest more : List (Message F)}
    {bs : List (List (Message F))} (hfull : ∀ next ∈ bs.head?, IsFullBefore limit ms next)
    (hbs : ∀ b ∈ bs, IsBatch limit b) (hmore : IsBatch limit (ms ++ more))
    (he : bs.flatten = more ++ rest) : more = [] := by
  cases more with
  | nil => rfl
  | cons m more =>
    obtain _ | ⟨b, bs⟩ := bs
    · cases he
    obtain _ | ⟨m', b⟩ := b
    · exact absurd rfl (hbs _ List.mem_cons_self).ne_nil
    obtain rfl : m' = m := (List.cons.inj he).1
    have hlength := hmore.length_le
    have hfits := hmore.fits
    rw [List.length_append, List.length_cons] at hlength
    rw [messagesSize_eq_sum, List.map_append, List.sum_append, List.map_cons, List.sum_cons,
      ← messagesSize_eq_sum] at hfits
    rcases hfull _ rfl m' rfl with hcount | hsize <;> omega

/-- A greedy cut into batches is determined by what it cuts. -/
theorem eq_of_isChain {limit : Nat} {bs cs : List (List (Message F))}
    (hbs : ∀ b ∈ bs, IsBatch limit b) (hcs : ∀ c ∈ cs, IsBatch limit c)
    (hb : bs.IsChain (IsFullBefore limit)) (hc : cs.IsChain (IsFullBefore limit))
    (he : bs.flatten = cs.flatten) : bs = cs := by
  induction bs generalizing cs with
  | nil =>
    cases cs with
    | nil => rfl
    | cons c cs => exact absurd (List.append_eq_nil_iff.mp he.symm).1 (hcs c List.mem_cons_self).ne_nil
  | cons b bs ih =>
    cases cs with
    | nil => exact absurd (List.append_eq_nil_iff.mp he).1 (hbs b List.mem_cons_self).ne_nil
    | cons c cs =>
      obtain ⟨hbhead, hbs'⟩ := List.forall_mem_cons.mp hbs
      obtain ⟨hchead, hcs'⟩ := List.forall_mem_cons.mp hcs
      obtain ⟨hbfull, hb'⟩ := List.isChain_cons.mp hb
      obtain ⟨hcfull, hc'⟩ := List.isChain_cons.mp hc
      rw [List.flatten_cons, List.flatten_cons] at he
      rcases List.append_eq_append_iff.mp he with ⟨more, rfl, hrest⟩ | ⟨more, rfl, hrest⟩
      · obtain rfl := IsFullBefore.eq_nil hbfull hbs' hchead hrest
        rw [List.append_nil, ih hbs' hcs' hb' hc' hrest]
      · obtain rfl := IsFullBefore.eq_nil hcfull hcs' hbhead hrest
        rw [List.append_nil, ih hbs' hcs' hb' hc' hrest.symm]

/-! ## Packets of batches -/

/-- The packets of batches, numbered from the number after `s`. -/
def numbered (s : SeqNum) : List (List (Message F)) → List (Packet F)
  | [] => []
  | ms :: bs => ⟨s.next, ms⟩ :: numbered s.next bs

theorem map_messages_numbered (s : SeqNum) (bs : List (List (Message F))) :
    (numbered s bs).map (·.messages) = bs := by
  induction bs generalizing s with
  | nil => rfl
  | cons ms bs ih => rw [numbered, List.map_cons, ih]

theorem length_numbered (s : SeqNum) (bs : List (List (Message F))) :
    (numbered s bs).length = bs.length := by
  rw [← List.length_map (·.messages), map_messages_numbered]

theorem seqno_of_getElem?_numbered {s : SeqNum} {bs : List (List (Message F))} {k : Nat} {p : Packet F}
    (h : (numbered s bs)[k]? = some p) : p.seqno.toNat = (s.toNat + (k + 1)) % 65536 := by
  induction bs generalizing s k with
  | nil => cases h
  | cons ms bs ih =>
    have hnext : s.next.toNat = (s.toNat + 1) % 65536 := UInt16.toNat_add s 1
    cases k with
    | zero =>
      obtain rfl : ⟨s.next, ms⟩ = p := Option.some.inj h
      exact hnext
    | succ k =>
      rw [ih h, hnext]
      omega

/-- How a queue is cut into packets if the number of the last one before them was `s`: nothing is
lost, repeated or put in another order, each packet can be sent, and none is smaller than need be. -/
structure Cuts (s : SeqNum) (limit : Nat) (queue : List (Message F)) (packets : List (Packet F)) :
    Prop where
  messages : packets.flatMap (·.messages) = queue
  seqno {k : Nat} {p : Packet F} : packets[k]? = some p → p.seqno.toNat = (s.toNat + (k + 1)) % 65536
  pos : ∀ p ∈ packets, 1 ≤ p.messages.length
  length_le : ∀ p ∈ packets, p.messages.length ≤ max 1 limit
  encode : ∀ p ∈ packets, p.encode = .ok p.toOctets
  octets_le : ∀ p ∈ packets, p.toOctets.length ≤ maxSize
  full : packets.IsChain fun p q => ∀ m ∈ q.messages.head?,
    max 1 limit < p.messages.length + 1 ∨ maxSize < p.size + m.size

theorem cuts_numbered (s : SeqNum) (limit : Nat) {queue : List (Message F)}
    (hqueue : ∀ m ∈ queue, m.size ≤ Message.maxSize) :
    Cuts s limit queue (numbered s (batches limit queue)) := by
  have hbatch : ∀ p ∈ numbered s (batches limit queue), IsBatch limit p.messages := fun p hp =>
    isBatch_of_mem_batches hqueue _ (map_messages_numbered s (batches limit queue) ▸
      List.mem_map_of_mem (f := Packet.messages) hp)
  refine ⟨?_, seqno_of_getElem?_numbered, fun p hp => ?_, fun p hp => (hbatch p hp).length_le,
    fun p hp => if_pos (hbatch p hp).fits, fun p hp => ?_, ?_⟩
  · rw [List.flatMap_def, map_messages_numbered, flatten_batches]
  · exact List.length_pos_iff.mpr (hbatch p hp).ne_nil
  · rw [length_toOctets]
    exact (hbatch p hp).fits
  · have hchain := isChain_batches limit queue
    rw [← map_messages_numbered s (batches limit queue), List.isChain_map] at hchain
    exact hchain

theorem Cuts.isBatch {s : SeqNum} {limit : Nat} {queue : List (Message F)} {packets : List (Packet F)}
    (h : Cuts s limit queue packets) : ∀ ms ∈ packets.map (·.messages), IsBatch limit ms :=
  List.forall_mem_map.mpr fun p hp =>
    ⟨List.ne_nil_of_length_pos (h.pos p hp), h.length_le p hp, (p.length_toOctets.symm.le.trans (h.octets_le p hp) :)⟩

/-- There is one way only to cut a queue into packets. -/
theorem Cuts.eq {s : SeqNum} {limit : Nat} {queue : List (Message F)} {ps qs : List (Packet F)}
    (hps : Cuts s limit queue ps) (hqs : Cuts s limit queue qs) : ps = qs := by
  have hmessages : ps.map (·.messages) = qs.map (·.messages) := by
    refine eq_of_isChain hps.isBatch hqs.isBatch ((List.isChain_map _).mpr hps.full)
      ((List.isChain_map _).mpr hqs.full) ?_
    rw [← List.flatMap_def, ← List.flatMap_def, hps.messages, hqs.messages]
  have hlength : ps.length = qs.length := by simpa using congrArg List.length hmessages
  refine List.ext_getElem hlength fun k hp hq => ?_
  have hms : ps[k].messages = qs[k].messages := by
    simpa [hp, hq] using congrArg (·[k]?) hmessages
  have hseqno : ps[k].seqno = qs[k].seqno := UInt16.toNat_inj.mp
    ((hps.seqno (List.getElem?_eq_getElem hp)).trans (hqs.seqno (List.getElem?_eq_getElem hq)).symm)
  generalize ps[k] = p at hms hseqno
  generalize qs[k] = q at hms hseqno
  cases p
  cases q
  cases hms
  cases hseqno
  rfl

end Packet

namespace Router

/-! ## What a flush sends -/

/-- The calls that send packets: each goes out of every interface, before the next one does. -/
def sendCalls (r : Router F) (packets : List (Packet F)) : List (Call F) :=
  packets.flatMap fun p => r.interfaces.map fun i => .broadcast i.id p.toOctets

theorem foldl_journal_call {α : Type} (c : α → Call F) (l : List α) (j : Journal F) :
    l.foldl (fun j a => j.call (c a)) j = { j with calls := j.calls ++ l.map c } := by
  induction l generalizing j with
  | nil => simp
  | cons a l ih =>
    rw [List.foldl_cons, ih]
    simp [Journal.call]

theorem sendPacket_eq (r : Router F) {ms : List (Message F)}
    (hfits : Packet.headerSize + messagesSize ms ≤ Packet.maxSize) :
    r.sendPacket ms = { r with
      packetSeqno := r.packetSeqno.next
      journal := { r.journal with calls := r.journal.calls ++ r.sendCalls [⟨r.packetSeqno.next, ms⟩] } } := by
  have hencode : (⟨r.packetSeqno.next, ms⟩ : Packet F).encode = .ok _ := if_pos hfits
  rw [sendPacket]
  simp only [hencode]
  rw [foldl_call_eq, foldl_journal_call]
  simp only [sendCalls, List.flatMap_cons, List.flatMap_nil, List.append_nil]

theorem foldl_sendPacket_eq {bs : List (List (Message F))}
    (hbs : ∀ ms ∈ bs, Packet.headerSize + messagesSize ms ≤ Packet.maxSize) (r : Router F) :
    bs.foldl sendPacket r = { r with
      packetSeqno := r.packetSeqno + .ofNat bs.length
      journal := { r.journal with
        calls := r.journal.calls ++ r.sendCalls (Packet.numbered r.packetSeqno bs) } } := by
  induction bs generalizing r with
  | nil => simp [Packet.numbered, sendCalls]
  | cons ms bs ih =>
    obtain ⟨hms, hbs⟩ := List.forall_mem_cons.mp hbs
    rw [List.foldl_cons, sendPacket_eq r hms, ih hbs]
    have hcalls : r.journal.calls ++ r.sendCalls [⟨r.packetSeqno.next, ms⟩] ++
        r.sendCalls (Packet.numbered r.packetSeqno.next bs) =
        r.journal.calls ++ r.sendCalls (Packet.numbered r.packetSeqno (ms :: bs)) :=
      Array.toList_inj.mp (by simp [sendCalls, Packet.numbered])
    rw [List.length_cons, ← SeqNum.next_add, ← hcalls]
    rfl

/-- What a flush does if each message that waits fits a packet: it sends the packets of the only cut of
the queue, each out of every interface in turn and in the same octets, and changes nothing but the
queue, the number of the last packet and the journal. Messages whose bodies are of their types, as those
of any run are, are read again from these octets. -/
theorem flush_sends (r : Router F) (hfit : ∀ m ∈ r.outbound, m.size ≤ Message.maxSize) :
    ∃ packets : List (Packet F),
      Packet.Cuts r.packetSeqno r.params.maxMessages r.outbound packets ∧
      (∀ ps, Packet.Cuts r.packetSeqno r.params.maxMessages r.outbound ps → ps = packets) ∧
      r.flush = { r with
        outbound := []
        packetSeqno := r.packetSeqno + .ofNat packets.length
        journal := { r.journal with calls := r.journal.calls ++ r.sendCalls packets } } ∧
      ((∀ m ∈ r.outbound, m.body.KindFits) → ∀ p ∈ packets, Packet.decode p.toOctets = .ok p) ∧
      ∀ t, r.Reachable t → ∀ m ∈ r.outbound, m.body.KindFits := by
  have hcuts := Packet.cuts_numbered r.packetSeqno r.params.maxMessages hfit
  refine ⟨_, hcuts, fun ps hps => hps.eq hcuts, ?_, fun hkind p hp => ?_, fun _ h => h.kindFits⟩
  · rw [flush, foldl_sendPacket_eq fun ms hms => (Packet.isBatch_of_mem_batches hfit ms hms).fits,
      Packet.length_numbered]
    rfl
  · have hmem : ∀ m ∈ p.messages, m ∈ r.outbound := fun m hm =>
      hcuts.messages ▸ List.mem_flatMap.mpr ⟨p, hp, hm⟩
    obtain ⟨octets, he, -, hread⟩ := p.decode_encode_append
      (List.ne_nil_of_length_pos (hcuts.pos p hp)) (hcuts.isBatch _ (List.mem_map_of_mem hp)).fits
      fun m hm => hkind m (hmem m hm)
    obtain rfl : p.toOctets = octets := Except.ok.inj ((hcuts.encode p hp).symm.trans he)
    simpa using hread []

/-- A node with two interfaces that sends two messages a packet, and lets three wait. -/
def waiting : Router .ipv4 :=
  [.hello, .mid, .hello].foldl (fun r timer => r.apply 0 (.timer timer))
    ((create sampleAddress { maxMessages := 2 } (.cycle #[])).apply 0
      (.start [⟨.number 0, sampleAddress⟩, ⟨.number 1, .ofNat 0x0a000101⟩]))

theorem flush_sends_waiting :
    (∀ m ∈ waiting.outbound, m.size ≤ Message.maxSize) ∧
      ∃ packets, Packet.Cuts 65535 2 waiting.outbound packets ∧
        packets.map (fun p => (p.seqno, p.messages.length)) = [(0, 2), (1, 1)] ∧
        waiting.flush.journal.calls = waiting.journal.calls ++ waiting.sendCalls packets ∧
        ∀ p ∈ packets, Packet.decode p.toOctets = .ok p := by
  have hfit : ∀ m ∈ waiting.outbound, m.size ≤ Message.maxSize := by decide +kernel
  obtain ⟨packets, hcuts, -, hflush, hread, -⟩ := flush_sends waiting hfit
  refine ⟨hfit, packets, hcuts, ?_, congrArg (·.journal.calls) hflush, hread (by decide +kernel)⟩
  rw [hcuts.eq (Packet.cuts_numbered _ _ hfit)]
  decide +kernel

end Router

end Manet
