import Mathlib.Data.Finset.Card
import Manet.Proofs.Ownership
import Manet.Proofs.Packing

/-!
# Sizes of messages and packets

A packet has room for any one message of at most `Message.maxSize` octets. A message that is relayed
came in a packet, and so it fits into one again. The messages that a router composes list its links,
its selectors or its interfaces and grow with these (`Router.composedSize`). A flush cuts the queue
between messages only: the packets that it builds too long are those of single messages that are too
long (`Packet.filter_batches`). So a router builds one iff a timer made it compose such a message
(`Router.fits_iff_not_overgrows`), as the timer for MID messages does where there are enough
interfaces (`Router.overgrows_of_many_interfaces`).
-/

namespace Manet

variable {F : Family}

/-- The octets of the greatest message that a packet can hold. -/
def Message.maxSize : Nat := Packet.maxSize - Packet.headerSize

/-- Whether no packet can hold the message. -/
def Message.isLong (m : Message F) : Bool := Message.maxSize < m.size

theorem Message.isLong_iff {m : Message F} : m.isLong = true ↔ Message.maxSize < m.size :=
  decide_eq_true_iff

/-! ## Packets -/

namespace Packet

/-- Whether messages are too long for one packet. -/
def overflows (ms : List (Message F)) : Bool := maxSize < headerSize + messagesSize ms

theorem overflows_iff {ms : List (Message F)} :
    overflows ms = true ↔ maxSize < headerSize + messagesSize ms :=
  decide_eq_true_iff

theorem overflows_singleton (m : Message F) : overflows [m] = m.isLong := by
  rw [Bool.eq_iff_iff, overflows_iff, Message.isLong_iff, Message.maxSize]
  show maxSize < headerSize + (m.size + 0) ↔ _
  simp only [maxSize, headerSize]
  omega

/-- Nothing fits a packet that is too long already. -/
theorem takeFitting_of_full {used : Nat} (h : maxSize < used) (limit : Nat) (ms : List (Message F)) :
    takeFitting limit used ms = ([], ms) := by
  fun_cases takeFitting limit used ms with
  | case3 _ m _ hfits => omega
  | _ => rfl

theorem used_add_takeFitting_le {used : Nat} (h : used ≤ maxSize) (limit : Nat)
    (ms : List (Message F)) : used + messagesSize (takeFitting limit used ms).1 ≤ maxSize := by
  fun_induction takeFitting limit used ms with
  | case3 _ _ m _ hfits _ _ hcut ih =>
    have hrest := ih hfits
    rw [hcut] at hrest
    rwa [messagesSize, ← Nat.add_assoc]
  | _ => exact h

/-- The packets that are too long hold one message each, which is too long itself. -/
theorem filter_batches (limit : Nat) (ms : List (Message F)) :
    (batches limit ms).filter overflows = (ms.filter Message.isLong).map fun m => [m] := by
  fun_induction batches limit ms with
  | case1 => rfl
  | case2 m ms cut ih =>
    cases hlong : m.isLong with
    | true =>
      have hfull : maxSize < headerSize + m.size := by
        rw [Message.isLong_iff, Message.maxSize] at hlong
        omega
      have hcut : cut = ([], ms) := takeFitting_of_full hfull _ _
      rw [hcut] at ih ⊢
      rw [List.filter_cons_of_pos ((overflows_singleton m).trans hlong), ih,
        List.filter_cons_of_pos hlong, List.map_cons]
    | false =>
      have hroom : headerSize + m.size ≤ maxSize := by
        have hshort : ¬ Message.maxSize < m.size := fun h =>
          Bool.false_ne_true (hlong.symm.trans (Message.isLong_iff.mpr h))
        simp only [Message.maxSize, maxSize, headerSize] at hshort ⊢
        omega
      have hfits : headerSize + m.size + messagesSize cut.1 ≤ maxSize :=
        used_add_takeFitting_le hroom _ _
      have hhead : overflows (m :: cut.1) = false := by
        rw [Bool.eq_false_iff, ne_eq, overflows_iff, messagesSize]
        omega
      have htaken : cut.1.filter Message.isLong = [] := by
        refine List.filter_eq_nil_iff.mpr fun m' hm' hlong' => ?_
        have hle := size_le_messagesSize hm'
        rw [Message.isLong_iff, Message.maxSize] at hlong'
        omega
      have happend : cut.1 ++ cut.2 = ms := takeFitting_append _ _ _
      rw [List.filter_cons_of_neg (Bool.eq_false_iff.mp hhead), ih,
        List.filter_cons_of_neg (Bool.eq_false_iff.mp hlong), ← happend, List.filter_append, htaken,
        List.nil_append]

end Packet

/-- The octets of the packet that a call says to be too long. -/
def Call.overflow? : Call F → Option Nat
  | .oversized size => some size
  | .schedule .. | .cancel .. | .broadcast .. | .routeAdded .. | .routeChanged .. | .routeRemoved ..
  | .neighbourLost .. | .relaysChanged .. => none

theorem Call.overflow?_eq_none (c : Call F) (hc : c.part ≠ .sending) : c.overflow? = none := by
  cases c <;> first | rfl | exact absurd rfl hc

/-- The octets of the packets that were built too long. -/
def Journal.overflows (j : Journal F) : List Nat := j.read Call.overflow?

namespace Router

variable {now : Time} {r : Router F}

theorem sendPacket_overflows (r : Router F) (ms : List (Message F)) :
    (r.sendPacket ms).journal.overflows = r.journal.overflows ++
      if Packet.overflows ms then [Packet.headerSize + messagesSize ms] else [] := by
  unfold sendPacket Packet.encode
  by_cases hsize : Packet.headerSize + messagesSize ms ≤ Packet.maxSize
  · rw [if_neg (by rw [Packet.overflows_iff]; omega), List.append_nil]
    simp only [Packet.size, hsize, if_true, foldl_call_eq]
    exact Journal.read_foldl_of_none (c := fun i : Interface F => .broadcast i.id _) (fun _ => rfl) _ _
  · rw [if_pos (by rw [Packet.overflows_iff]; omega)]
    simp only [Packet.size, hsize, if_false]
    exact Journal.read_call r.journal _

theorem foldl_sendPacket_overflows (batches : List (List (Message F))) (r : Router F) :
    (batches.foldl sendPacket r).journal.overflows = r.journal.overflows ++
      (batches.filter Packet.overflows).map fun ms => Packet.headerSize + messagesSize ms := by
  induction batches generalizing r with
  | nil => exact (List.append_nil _).symm
  | cons ms batches ih =>
    rw [List.foldl_cons, ih, sendPacket_overflows, List.append_assoc, List.filter_cons]
    split <;> rfl

/-- A flush builds a packet too long for each message that waits and is too long, and for nothing
else. -/
theorem flush_overflows (r : Router F) :
    r.flush.journal.overflows = r.journal.overflows ++
      (r.outbound.filter Message.isLong).map fun m => Packet.headerSize + m.size := by
  rw [flush, foldl_sendPacket_overflows, Packet.filter_batches, List.map_map]
  rfl

end Router

/-! ## Messages that are relayed -/

theorem Packet.size_le_of_decode {datagram : Octets} {p : Packet F} (h : Packet.decode datagram = .ok p)
    {m : Message F} (hm : m ∈ p.messages) : m.size ≤ Message.maxSize := by
  obtain ⟨hsize, hmax, -⟩ := Packet.reencode_eq_take_iff h
  have hle : Packet.headerSize + m.size ≤ p.size := Nat.add_le_add_left (size_le_messagesSize hm) _
  rw [Message.maxSize]
  omega

theorem Message.Relays.size_eq {c m : Message F} (h : c.Relays m) : c.size = m.size := by
  rw [h.same]
  rfl

/-! ## Messages that a router composes -/

/-- Blocks list links that go by the given codes, in one block for each code. -/
structure Lays (blocks : List (HelloBlock F)) (codes : List LinkCode) : Prop where
  nodup : (blocks.map (·.code)).Nodup
  mem_iff (c : LinkCode) : c ∈ blocks.map (·.code) ↔ c ∈ codes
  sum_eq : (blocks.map (·.addresses.length)).sum = codes.length

theorem blocksSize_eq (bs : List (HelloBlock F)) :
    blocksSize bs = bs.length * 4 + (bs.map (·.addresses.length)).sum * F.octets := by
  induction bs with
  | nil => simp [blocksSize]
  | cons b bs ih =>
    simp only [blocksSize, HelloBlock.size, addressesSize, ih, List.length_cons, List.map_cons,
      List.sum_cons, Nat.add_mul]
    omega

theorem Lays.blocksSize_eq {bs : List (HelloBlock F)} {cs : List LinkCode} (h : Lays bs cs) :
    blocksSize bs = cs.toFinset.card * 4 + cs.length * F.octets := by
  have hcodes : cs.toFinset = (bs.map (·.code)).toFinset := by
    ext c
    rw [List.mem_toFinset, List.mem_toFinset, h.mem_iff]
  rw [Manet.blocksSize_eq, h.sum_eq, hcodes, List.toFinset_card_of_nodup h.nodup, List.length_map]

namespace Router

variable {now : Time} {r : Router F}

theorem map_code_addToBlock (code : LinkCode) (a : Address F) (bs : List (HelloBlock F)) :
    (addToBlock code a bs).map (·.code) =
      if code ∈ bs.map (·.code) then bs.map (·.code) else bs.map (·.code) ++ [code] := by
  induction bs with
  | nil => rfl
  | cons b bs ih =>
    unfold addToBlock
    by_cases hb : b.code = code
    · simp [hb]
    · rw [if_neg hb, List.map_cons, ih, List.map_cons]
      by_cases hbs : code ∈ bs.map (·.code)
      · rw [if_pos hbs, if_pos (List.mem_cons_of_mem _ hbs)]
      · rw [if_neg hbs, if_neg (by simpa [Ne.symm hb] using hbs), List.cons_append]

theorem sum_addToBlock (code : LinkCode) (a : Address F) (bs : List (HelloBlock F)) :
    ((addToBlock code a bs).map (·.addresses.length)).sum = (bs.map (·.addresses.length)).sum + 1 := by
  induction bs with
  | nil => rfl
  | cons b bs ih =>
    unfold addToBlock
    split
    · simp only [List.map_cons, List.sum_cons, List.length_append, List.length_singleton]
      omega
    · rw [List.map_cons, List.sum_cons, ih, List.map_cons, List.sum_cons, Nat.add_assoc]

theorem lays_addToBlock {bs : List (HelloBlock F)} {cs : List LinkCode} (h : Lays bs cs)
    (code : LinkCode) (a : Address F) : Lays (addToBlock code a bs) (cs ++ [code]) := by
  have hmap := map_code_addToBlock code a bs
  refine ⟨?_, fun c => ?_, ?_⟩
  · rw [hmap]
    split
    · exact h.nodup
    · rename_i hnew
      exact List.nodup_append.mpr ⟨h.nodup, by simp, by grind⟩
  · rw [hmap, List.mem_append, List.mem_singleton, ← h.mem_iff]
    split
    · rename_i hold
      exact ⟨.inl, fun hc => hc.elim id fun he => he ▸ hold⟩
    · rw [List.mem_append, List.mem_singleton]
  · rw [sum_addToBlock, h.sum_eq, List.length_append, List.length_singleton]

/-- The link codes under which a HELLO lists links, link by link. -/
def advertisedCodes (r : Router F) (now : Time) : List LinkCode :=
  (r.tables.links.toList.filter (·.isAlive now)).filterMap fun l => r.linkCodeOf? l now

/-- Blocks that one link after the other is added to, or not. -/
theorem lays_foldl {step : List (HelloBlock F) → LinkTuple F → List (HelloBlock F)}
    {code? : LinkTuple F → Option LinkCode}
    (hstep : ∀ {bs cs} (t : LinkTuple F), Lays bs cs → Lays (step bs t) (cs ++ (code? t).toList))
    (l : List (LinkTuple F)) {bs : List (HelloBlock F)} {cs : List LinkCode} (h : Lays bs cs) :
    Lays (l.foldl step bs) (cs ++ l.filterMap code?) := by
  induction l generalizing bs cs with
  | nil => rwa [List.filterMap_nil, List.append_nil]
  | cons t l ih =>
    have hcodes : (code? t).toList ++ l.filterMap code? = (t :: l).filterMap code? := by
      cases ht : code? t with
      | none => exact (List.filterMap_cons_none ht).symm
      | some c => exact (List.filterMap_cons_some ht).symm
    rw [List.foldl_cons, ← hcodes, ← List.append_assoc]
    exact ih (hstep t h)

theorem lays_helloBlocks (r : Router F) (now : Time) :
    Lays (r.helloBlocks now) (r.advertisedCodes now) := by
  have hnone : Lays (F := F) [] [] := ⟨.nil, fun _ => .rfl, rfl⟩
  refine lays_foldl (fun t h => ?_) _ hnone
  cases r.linkCodeOf? t now with
  | none => rwa [Option.toList_none, List.append_nil]
  | some code => exact lays_addToBlock h code t.neighbour

/-- The octets of the message that a timer makes the router compose. -/
def composedSize (r : Router F) (now : Time) : Timer F → Nat
  | .hello =>
    Message.headerSize F + 4 + (r.advertisedCodes now).toFinset.card * 4 +
      (r.advertisedCodes now).length * F.octets
  | .tc => Message.headerSize F + 4 + r.tables.selectors.toList.length * F.octets
  | .mid => Message.headerSize F + r.declaredInterfaces.length * F.octets
  | .flush | .expiry .. => 0

/-- The operation makes the router compose a message that no packet can hold. -/
def Overgrows (r : Router F) (now : Time) (op : Operation F) : Prop :=
  r.running = true ∧ ∃ timer, op = .timer timer ∧ Message.maxSize < r.composedSize now timer

/-- A message that the router composes has the size that its timer makes it have. -/
theorem size_of_composes {op : Operation F} {m : Message F} (hm : m ∈ op.queued now r)
    (hc : op.Composes r m) :
    r.running = true ∧ ∃ timer, op = .timer timer ∧ m.size = r.composedSize now timer := by
  have hr {timer : Timer F} (hop : op = .timer timer) : r.running = true := by
    refine Classical.byContradiction fun hr => ?_
    have hsame : (r.apply now (.timer timer)).outbound = r.outbound := by
      rw [apply, handleTimer_of_not_running (Bool.eq_false_iff.mpr hr)]
    rw [hop, Operation.queued_of_outbound (hsame.trans (List.append_nil _).symm)] at hm
    cases hm
  rcases hc with ⟨-, ⟨hop, -⟩ | ⟨hop, -, hbody⟩ | ⟨hop, hbody⟩⟩
  · rw [hop, queued_hello (hr hop), List.mem_singleton] at hm
    refine ⟨hr hop, .hello, hop, ?_⟩
    rw [hm, Message.size, composedHello, Body.size, (r.lays_helloBlocks now).blocksSize_eq, composedSize]
    omega
  · refine ⟨hr hop, .tc, hop, ?_⟩
    rw [Message.size, hbody, Body.size, addressesSize, List.length_map, composedSize, Nat.add_assoc]
  · refine ⟨hr hop, .mid, hop, ?_⟩
    rw [Message.size, hbody, Body.size, addressesSize, composedSize]

/-- A message that would be too long is composed: there is something to list. -/
theorem exists_mem_queued (hr : r.running = true) {timer : Timer F}
    (hlong : Message.maxSize < r.composedSize now timer) :
    ∃ m ∈ Operation.queued now r (.timer timer), m.size = r.composedSize now timer := by
  have hheader : Message.headerSize F + 4 ≤ Message.maxSize := by cases F <;> decide
  have hlast {m : Message F} (h : (r.apply now (.timer timer)).outbound = r.outbound ++ [m]) :
      ∃ m ∈ Operation.queued now r (.timer timer), m.size = r.composedSize now timer := by
    have hm : m ∈ Operation.queued now r (.timer timer) := by
      rw [Operation.queued_of_outbound h]
      exact List.mem_singleton_self m
    obtain ⟨-, _, hop, hsize⟩ := size_of_composes hm (Operation.composes_of_mem_queued rfl hm)
    cases hop
    exact ⟨m, hm, hsize⟩
  cases timer with
  | hello =>
    obtain ⟨m, hout, -⟩ := Operation.hello_outbound hr now
    exact hlast hout
  | tc =>
    have hne : r.tables.selectors.isEmpty = false := by
      refine Bool.eq_false_iff.mpr fun hempty => ?_
      rw [composedSize, List.isEmpty_iff.mp hempty, List.length_nil] at hlong
      omega
    obtain ⟨m, hout, -⟩ := Operation.tc_outbound hr hne now
    exact hlast hout
  | mid =>
    have hne : r.declaredInterfaces ≠ [] := by
      intro hempty
      rw [composedSize, hempty, List.length_nil] at hlong
      omega
    obtain ⟨m, hout, -⟩ := Operation.mid_outbound hr hne now
    exact hlast hout
  | flush | expiry => exact absurd hlong (Nat.not_lt_zero _)

/-- The messages that an operation lets wait fit a packet unless it makes the router compose one that
does not. -/
theorem queued_fit_iff (r : Router F) (now : Time) (op : Operation F) :
    (∀ m ∈ op.queued now r, m.size ≤ Message.maxSize) ↔ ¬ r.Overgrows now op := by
  constructor
  · rintro hfit ⟨hr, timer, rfl, hlong⟩
    obtain ⟨m, hm, hsize⟩ := exists_mem_queued hr hlong
    exact absurd (hfit m hm) (Nat.not_le.mpr (hsize ▸ hlong))
  · intro hno m hm
    rcases op.mem_queued_cases hm with hc | ⟨_, _, _, p, -, hp, m', hm', hrelays⟩
    · obtain ⟨hr, timer, hop, hsize⟩ := size_of_composes hm hc
      exact Nat.le_of_not_lt fun hlong => hno ⟨hr, timer, hop, hsize ▸ hlong⟩
    · exact hrelays.size_eq ▸ Packet.size_le_of_decode hp hm'

/-! ## Runs -/

end Router

/-- The octets of the packets that an operation builds too long. -/
def Operation.overflows (r : Router F) : Operation F → List Nat
  | .timer .flush =>
    if r.running then (r.outbound.filter Message.isLong).map fun m => Packet.headerSize + m.size else []
  | _ => []

namespace Router

variable {now : Time} {r : Router F}

theorem overflows_of_fits (h : ∀ m ∈ r.outbound, m.size ≤ Message.maxSize) (op : Operation F) :
    op.overflows r = [] := by
  unfold Operation.overflows
  split
  · split
    · rw [List.filter_eq_nil_iff.mpr fun m hm hlong =>
        Nat.not_lt.mpr (h m hm) (Message.isLong_iff.mp hlong), List.map_nil]
    · rfl
  · rfl

/-- An operation builds a packet too long only if it flushes messages that are too long. -/
theorem apply_overflows (r : Router F) (now : Time) (op : Operation F) :
    (r.apply now op).journal.overflows = r.journal.overflows ++ op.overflows r := by
  by_cases hflush : r.running = true ∧ op = .timer .flush
  · obtain ⟨hr, rfl⟩ := hflush
    rw [apply, handleTimer, if_pos hr, Operation.overflows, if_pos hr]
    exact flush_overflows { r with flushTimer := none }
  · have hnone : op.overflows r = [] := by
      unfold Operation.overflows
      split
      · exact if_neg fun hr => hflush ⟨hr, rfl⟩
      · rfl
    rw [hnone, List.append_nil]
    exact (r.read_apply Call.overflow?_eq_none now op).resolve_right hflush

/-- In a run in which the router composes no message that is too long, all messages that wait fit a
packet, and no packet was built too long. -/
theorem ReachableBy.fits {t : Time} (h : r.ReachableBy (fun now r op => ¬ r.Overgrows now op) t) :
    (∀ m ∈ r.outbound, m.size ≤ Message.maxSize) ∧ r.journal.overflows = [] := by
  induction h with
  | create => exact ⟨nofun, rfl⟩
  | @apply r t now op _ _ hop ih =>
    obtain ⟨hfit, hnone⟩ := ih
    have hqueued := (queued_fit_iff r now op).mpr hop
    refine ⟨fun m hm => (mem_outbound_apply hm).elim (hfit m) (hqueued m), ?_⟩
    rw [apply_overflows, hnone, overflows_of_fits hfit]
    rfl

theorem running_apply_timer (hr : r.running = true) (now : Time) (timer : Timer F) :
    (r.apply now (.timer timer)).running = true := by
  have hs := r.apply_step now (.timer timer)
  generalize r.apply now (.timer timer) = r' at hs
  cases hs with
  | idle => exact hr
  | hello _ _ _ hd | tc _ _ _ hd | mid _ _ _ hd | flush _ hd | expiry _ _ _ hd =>
    exact hd.sameNode.running.trans hr

/-- A message that was composed too long makes the next flush build a packet too long. -/
theorem Overgrows.overflows {op : Operation F} (h : r.Overgrows now op) (later : Time) :
    ∃ size ∈ ((r.apply now op).apply later (.timer .flush)).journal.overflows, Packet.maxSize < size := by
  obtain ⟨hr, timer, rfl, hlong⟩ := h
  obtain ⟨m, hm, hsize⟩ := exists_mem_queued hr hlong
  have hwaits : m ∈ (r.apply now (.timer timer)).outbound := List.mem_of_mem_drop hm
  have hmlong : Message.maxSize < m.size := hsize ▸ hlong
  refine ⟨Packet.headerSize + m.size, ?_, ?_⟩
  · rw [apply_overflows _ later, Operation.overflows, if_pos (running_apply_timer hr now timer)]
    exact List.mem_append_right _ (List.mem_map_of_mem (List.mem_filter.mpr
      ⟨hwaits, Message.isLong_iff.mpr hmlong⟩))
  · rw [Message.maxSize] at hmlong
    omega

/-- What a router lets wait and what it builds too long. The messages that an operation lets wait fit
a packet iff it is no timer that makes the router compose one that does not; the packets that it builds
too long are those of messages that do not fit, which a flush sends alone. So such a timer makes the
next flush build a packet too long, and in runs without it all messages fit and no packet is too long. -/
theorem fits_iff_not_overgrows (r : Router F) (now : Time) (op : Operation F) :
    ((∀ m ∈ op.queued now r, m.size ≤ Message.maxSize) ↔ ¬ r.Overgrows now op) ∧
    (r.apply now op).journal.overflows = r.journal.overflows ++ op.overflows r ∧
    (r.Overgrows now op → ∀ later,
      ∃ size ∈ ((r.apply now op).apply later (.timer .flush)).journal.overflows, Packet.maxSize < size) ∧
    ∀ t, r.ReachableBy (fun now r op => ¬ r.Overgrows now op) t →
      (∀ m ∈ r.outbound, m.size ≤ Message.maxSize) ∧ r.journal.overflows = [] :=
  ⟨queued_fit_iff r now op, apply_overflows r now op, Overgrows.overflows, fun _ => ReachableBy.fits⟩

/-- A node with many interfaces composes a MID message that no packet can hold. -/
theorem overgrows_of_many_interfaces (address : Address F) (params : Params) (entropy : Entropy)
    {provided : List (Interface F)} (hmany : Message.maxSize <
      Message.headerSize F + ((provided.map (·.address)).filter (· ≠ address)).length * F.octets)
    (began now : Time) :
    ((create address params entropy).apply began (.start provided)).Overgrows now (.timer .mid) := by
  obtain ⟨r, delay, hd, he⟩ := start_does (r := create address params entropy) rfl provided began
  have hsame := hd.sameNode
  refine ⟨?_, .mid, rfl, ?_⟩
  · rw [apply, he]
    exact hsame.running
  · have haddress : ((create address params entropy).apply began (.start provided)).address = address := by
      rw [apply, he]
      exact hsame.address
    have hinterfaces : ((create address params entropy).apply began (.start provided)).interfaces =
        provided := by
      rw [apply, he]
    rw [composedSize, declaredInterfaces, hinterfaces, haddress, if_neg]
    · exact hmany
    · rintro ⟨-, hone⟩
      have hle := List.length_filter_le (· ≠ address) (provided.map (·.address))
      rw [List.length_map] at hle
      have hfew : Message.headerSize F + 1 * F.octets ≤ Message.maxSize := by cases F <;> decide
      have hoctets := Nat.mul_le_mul_right F.octets (Nat.le_trans hle hone)
      omega

/-- The interfaces fd00::1 to fd00::1000. -/
def crowd : List (Interface .ipv6) :=
  (List.range 4096).map fun n => ⟨.number 0, .ofNat (0xfd000000000000000000000000000001 + n)⟩

/-- The node fd00::1 with all of them. -/
def crowded : Router .ipv6 :=
  (create (.ofNat 0xfd000000000000000000000000000001) {} (.cycle #[])).apply 0 (.start crowd)

theorem fits_iff_not_overgrows_samples :
    (∀ m ∈ Operation.queued 0 sample (.timer .hello), m.size ≤ Message.maxSize) ∧
      crowded.Overgrows 0 (.timer .mid) ∧
      ∃ size ∈ ((crowded.apply 0 (.timer .mid)).apply 0 (.timer .flush)).journal.overflows,
        Packet.maxSize < size := by
  have hfew : ¬ sample.Overgrows 0 (.timer .hello) := by
    rintro ⟨-, timer, he, hlong⟩
    cases he
    exact absurd hlong (by decide +kernel)
  have hmany : crowded.Overgrows 0 (.timer .mid) :=
    overgrows_of_many_interfaces _ _ _ (by decide +kernel) _ _
  exact ⟨(fits_iff_not_overgrows sample 0 _).1.mpr hfew, hmany,
    (fits_iff_not_overgrows crowded 0 _).2.2.1 hmany 0⟩

end Router

end Manet
