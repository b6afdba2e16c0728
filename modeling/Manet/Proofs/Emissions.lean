import Manet.Proofs.Flooding
import Manet.Proofs.RoundTrip

/-!
# What a router sends

The HELLO that a router lets wait lists the addresses at the other ends of its live links, each under
the code of its link (`lists_helloBlocks`). Those whose resolution was selected are listed as relays
(`mem_statements_mpr`). Whatever else waits was composed by the router or is the copy of a message that
it took in (`Operation.mem_queued_cases`). A router sends packets of messages that waited, and nothing
else (`sends_apply`), and such packets are read as they were written (`Reachable.decode_encode`).
-/

namespace Manet

variable {F : Family}

/-- Some block lists the address under the link code. -/
def Lists (blocks : List (HelloBlock F)) (code : LinkCode) (a : Address F) : Prop :=
  ∃ b ∈ blocks, b.code = code ∧ a ∈ b.addresses

theorem LinkCode.neighbour_of_of? {link : LinkType} {neighbour : NeighbourType} {c : LinkCode}
    (h : LinkCode.of? link neighbour = some c) : c.neighbour = neighbour := by
  unfold LinkCode.of? at h
  split at h
  · exact congrArg LinkCode.neighbour (Option.some.inj h).symm
  · cases h

namespace Router

variable {now : Time} {r : Router F}

/-! ## The links in a HELLO -/

theorem lists_addToBlock {code c : LinkCode} {a x : Address F} {bs : List (HelloBlock F)} :
    Lists (addToBlock code a bs) c x ↔ (c = code ∧ x = a) ∨ Lists bs c x := by
  induction bs with
  | nil => simp [Lists, addToBlock, eq_comm]
  | cons b bs ih =>
    have hcons (b : HelloBlock F) (bs : List (HelloBlock F)) :
        Lists (b :: bs) c x ↔ (b.code = c ∧ x ∈ b.addresses) ∨ Lists bs c x := by simp [Lists]
    unfold addToBlock
    split
    · rename_i hcode
      rw [hcons, hcons, hcode, List.mem_append, List.mem_singleton, eq_comm (a := c)]
      grind
    · rw [hcons, hcons, ih]
      grind

theorem lists_foldl_addToBlock {α : Type} {code? : α → Option LinkCode} {address : α → Address F}
    {l : List α} {bs : List (HelloBlock F)} {c : LinkCode} {x : Address F} :
    Lists (l.foldl (fun bs t =>
        match code? t with
        | some code => addToBlock code (address t) bs
        | none => bs) bs) c x ↔
      (∃ t ∈ l, code? t = some c ∧ address t = x) ∨ Lists bs c x := by
  induction l generalizing bs with
  | nil => simp
  | cons t l ih =>
    rw [List.foldl_cons, ih]
    cases hcode : code? t with
    | none => simp [hcode]
    | some code =>
      simp only [lists_addToBlock, List.mem_cons, exists_eq_or_imp, hcode, Option.some.injEq]
      grind

/-- A HELLO lists the addresses at the ends of live links, each under the code of its link. -/
theorem lists_helloBlocks {c : LinkCode} {a : Address F} :
    Lists (r.helloBlocks now) c a ↔
      ∃ l ∈ r.tables.links, l.isAlive now = true ∧ r.linkCodeOf? l now = some c ∧ l.neighbour = a := by
  refine lists_foldl_addToBlock.trans ?_
  simp only [List.mem_filter, and_assoc, Table.mem_toList]
  simp [Lists]

theorem mem_statements {blocks : List (HelloBlock F)} {type : NeighbourType} {a : Address F} :
    (type, a) ∈ statements blocks ↔ ∃ c : LinkCode, Lists blocks c a ∧ c.neighbour = type := by
  simp only [statements, List.mem_flatMap, List.mem_map, Prod.mk.injEq, Lists]
  constructor
  · rintro ⟨b, hb, x, hx, htype, rfl⟩
    exact ⟨b.code, ⟨b, hb, rfl, hx⟩, htype⟩
  · rintro ⟨c, ⟨b, hb, rfl, ha⟩, htype⟩
    exact ⟨b, hb, a, ha, htype, rfl⟩

/-- The node behind a link is advertised as relay iff it was selected: a relay goes with any state of
the link. -/
theorem linkCodeOf?_mpr (now : Time) {l : LinkTuple F} :
    (∃ c, r.linkCodeOf? l now = some c ∧ c.neighbour = .mpr) ↔
      r.tables.mprs.contains (r.mainAddress l.neighbour) = true := by
  unfold linkCodeOf? neighbourTypeOf?
  constructor
  · rintro ⟨c, hc, htype⟩
    obtain ⟨type, hn, hof⟩ := Option.bind_eq_some_iff.mp hc
    obtain rfl : c.neighbour = type := LinkCode.neighbour_of_of? hof
    rw [htype] at hn
    by_contra hnot
    rw [if_neg hnot] at hn
    obtain ⟨n, -, hn⟩ := Option.map_eq_some_iff.mp hn
    split at hn <;> cases hn
  · intro hmpr
    rw [if_pos hmpr, Option.bind_some]
    exact ⟨_, dif_pos nofun, rfl⟩

/-- A HELLO lists as relays the ends of live links whose resolution was selected. -/
theorem mem_statements_mpr {a : Address F} :
    (.mpr, a) ∈ statements (r.helloBlocks now) ↔
      ∃ l ∈ r.tables.links, l.isAlive now = true ∧ l.neighbour = a ∧
        r.tables.mprs.contains (r.mainAddress l.neighbour) = true := by
  simp only [mem_statements, lists_helloBlocks, ← linkCodeOf?_mpr now]
  constructor
  · rintro ⟨c, ⟨l, hl, halive, hcode, hend⟩, htype⟩
    exact ⟨l, hl, halive, hend, c, hcode, htype⟩
  · rintro ⟨l, hl, halive, hend, c, hcode, htype⟩
    exact ⟨c, ⟨l, hl, halive, hcode, hend⟩, htype⟩

/-! ## The HELLO that waits -/

/-- The HELLO that the router composes. -/
def composedHello (r : Router F) (now : Time) : Message F where
  validity := .ofDuration r.params.neighbourHoldTime
  originator := r.address
  ttl := 1
  hops := 0
  seqno := r.messageSeqno.next
  body := .hello (.ofDuration r.params.helloInterval) r.params.willingness (r.helloBlocks now)

theorem foldl_note_eq {α : Type} (n : α → Notice F) (l : List α) (r : Router F) :
    l.foldl (fun r x => r.note (n x)) r =
      { r with journal := l.foldl (fun j x => j.note (n x)) r.journal } := by
  induction l generalizing r with
  | nil => rfl
  | cons x l ih => rw [List.foldl_cons, ih, List.foldl_cons]; rfl

theorem queued_hello (hr : r.running = true) (now : Time) :
    Operation.queued now r (.timer .hello) = [r.composedHello now] := by
  refine Operation.queued_of_outbound ?_
  have hsend : (r.sendHello now).outbound = r.outbound ++ [r.composedHello now] := by
    unfold sendHello
    rw [foldl_note_eq]
    exact originate_outbound _ _ _ _
  rw [apply, handleTimer, if_pos hr]
  exact hsend

/-! ## What waits -/

theorem mem_outbound_apply {m : Message F} {op : Operation F} (h : m ∈ (r.apply now op).outbound) :
    m ∈ r.outbound ∨ m ∈ op.queued now r := by
  rcases op.outbound_apply now r with hnil | happend
  · rw [hnil] at h
    cases h
  · rw [happend] at h
    exact List.mem_append.mp h

end Router

/-- What an operation lets wait was composed by the router, or is the copy of a message in the packet
that it brings. -/
theorem Operation.mem_queued_cases {now : Time} {r : Router F} {op : Operation F} {m : Message F}
    (h : m ∈ op.queued now r) :
    op.Composes r m ∨ ∃ id sender datagram p, op = .packet id sender datagram ∧
      Packet.decode datagram = .ok p ∧ ∃ m' ∈ p.messages, m.Relays m' := by
  cases hop : op.isPacket with
  | false => exact .inl (Operation.composes_of_mem_queued hop h)
  | true =>
    cases op with
    | packet id sender datagram =>
      obtain ⟨-, x, hx, hrelays⟩ := (r.packet_floods now id sender datagram).relays m h
      rcases r.apply_packet_cases now id sender datagram with
        ⟨-, hnone⟩ | ⟨receiver, p, -, -, hp, -, hreceptions⟩
      · rw [hnone] at hx
        cases hx
      · rw [hreceptions] at hx
        exact .inr ⟨id, sender, datagram, p, rfl, hp, x.message, Router.message_mem_of_mem_receive hx,
          hrelays⟩
    | _ => cases hop

theorem Packet.kindFits_of_decode {d : Octets} {p : Packet F} (h : Packet.decode d = .ok p) :
    ∀ m ∈ p.messages, m.body.KindFits := by
  obtain ⟨w, -, -, hw, rfl⟩ := Packet.exists_of_decode h
  exact List.forall_mem_map.mpr hw.kindFits

namespace Router

variable {now : Time} {r : Router F}

theorem kindFits_of_mem_queued {op : Operation F} {m : Message F} (h : m ∈ op.queued now r) :
    m.body.KindFits := by
  rcases op.mem_queued_cases h with ⟨-, hc⟩ | ⟨_, _, _, p, -, hp, m', hm', hrelays⟩
  · rcases hc with ⟨-, hhello⟩ | ⟨-, -, htc⟩ | ⟨-, hmid⟩
    · cases hbody : m.body with
      | hello => trivial
      | _ =>
        rw [hbody] at hhello
        cases hhello
    · rw [htc]
      trivial
    · rw [hmid]
      trivial
  · rw [hrelays.same]
    exact Packet.kindFits_of_decode hp m' hm'

/-- The messages that wait have bodies of their types. -/
theorem Reachable.kindFits {t : Time} (h : r.Reachable t) : ∀ m ∈ r.outbound, m.body.KindFits := by
  induction h with
  | create => exact nofun
  | apply op _ _ ih =>
    intro m hm
    rcases mem_outbound_apply hm with hold | hnew
    · exact ih m hold
    · exact kindFits_of_mem_queued hnew

/-- A packet of messages that wait is read as it was written. -/
theorem Reachable.decode_encode {t : Time} (h : r.Reachable t) {p : Packet F} {octets : Octets}
    (hne : p.messages ≠ []) (hp : ∀ m ∈ p.messages, m ∈ r.outbound) (he : p.encode = .ok octets) :
    Packet.decode octets = .ok p := by
  have hsize : p.size ≤ Packet.maxSize := by
    by_contra hlarge
    rw [Packet.encode, if_neg hlarge] at he
    cases he
  obtain ⟨octets', he', -, hread⟩ :=
    p.decode_encode_append hne hsize fun m hm => h.kindFits m (hp m hm)
  obtain rfl : octets' = octets := Except.ok.inj (he'.symm.trans he)
  simpa using hread []

end Router

/-! ## What is sent -/

/-- A packet was sent out of an interface. -/
def Journal.Sends (j : Journal F) (id : InterfaceId) (packet : Octets) : Prop :=
  .broadcast id packet ∈ j.calls

instance (j : Journal F) (id : InterfaceId) (packet : Octets) : Decidable (j.Sends id packet) :=
  inferInstanceAs (Decidable (_ ∈ j.calls))

namespace Journal

variable {j : Journal F} {id : InterfaceId} {packet : Octets}

theorem sends_call {c : Call F} :
    (j.call c).Sends id packet ↔ j.Sends id packet ∨ .broadcast id packet = c :=
  Array.mem_push

theorem sends_foldl_call {α : Type} {c : α → Call F} {l : List α} :
    (l.foldl (fun j a => j.call (c a)) j).Sends id packet ↔
      j.Sends id packet ∨ ∃ a ∈ l, .broadcast id packet = c a := by
  induction l generalizing j with
  | nil => simp
  | cons a l ih =>
    rw [List.foldl_cons, ih, sends_call, or_assoc]
    simp only [List.mem_cons, exists_eq_or_imp]

theorem sends_iff_read :
    j.Sends id packet ↔ .broadcast id packet ∈ j.read (Option.guard (· = Call.broadcast id packet)) := by
  simp [Sends, read]

end Journal

/-- What is read off calls that concern sending changes only when a running router flushes. -/
theorem Router.read_apply {α : Type} {f : Call F → Option α} (hf : ∀ c : Call F, c.part ≠ .sending → f c = none)
    (r : Router F) (now : Time) (op : Operation F) :
    (r.apply now op).journal.read f = r.journal.read f ∨ r.running = true ∧ op = .timer .flush := by
  have ht (j : Journal F) (delay : Time) (timer : Timer F) :
      (j.schedule delay timer).read f = j.read f :=
    Journal.read_of_none (hf (.schedule _ delay timer) nofun)
  have hs := r.apply_step now op
  generalize r.apply now op = r' at hs
  cases hs with
  | idle => exact .inl rfl
  | start _ _ _ h =>
    have hd := h.read_eq hf (by decide) (by decide)
    exact .inl ((ht ..).trans ((ht ..).trans ((ht ..).trans hd)))
  | stop =>
    refine .inl ((Journal.read_foldl_of_none (fun route => hf (.routeRemoved route) nofun) ..).trans ?_)
    refine (Journal.read_foldl_of_none (fun handle => hf (.cancel handle) nofun) ..).trans ?_
    exact Journal.read_foldl_of_none (fun handle => hf (.cancel handle) nofun) ..
  | packet _ _ _ _ h | linkFailed _ _ h | refresh _ h =>
    have hd := h.read_eq hf (by decide) (by decide)
    exact .inl hd
  | hello _ _ _ h | tc _ _ _ h | mid _ _ _ h =>
    have hd := h.read_eq hf (by decide) (by decide)
    exact .inl ((ht ..).trans hd)
  | flush hr => exact .inr ⟨hr, rfl⟩
  | expiry key generation _ h =>
    have hd := h.read_eq hf (by decide) (by decide)
    exact .inl (hd.trans ((Journal.isTimeless_read hf (by decide) _).expire rfl key generation now))

theorem Packet.ne_nil_of_mem_batches {limit : Nat} {ms b : List (Message F)} (h : b ∈ batches limit ms) :
    b ≠ [] := by
  fun_induction batches limit ms with
  | case1 => cases h
  | case2 m ms cut ih =>
    rcases List.mem_cons.mp h with rfl | h
    · exact List.cons_ne_nil _ _
    · exact ih h

namespace Router

variable {now : Time} {r : Router F} {id : InterfaceId} {packet : Octets}

/-- The octets are a packet of messages from the list. -/
def Carries (packet : Octets) (ms : List (Message F)) : Prop :=
  ∃ p : Packet F, p.messages ≠ [] ∧ (∀ m ∈ p.messages, m ∈ ms) ∧ p.encode = .ok packet

theorem sends_sendPacket {ms : List (Message F)}
    (h : (r.sendPacket ms).journal.Sends id packet) :
    r.journal.Sends id packet ∨ ∃ p : Packet F, p.messages = ms ∧ p.encode = .ok packet := by
  unfold sendPacket at h
  dsimp only at h
  split at h
  · rename_i octets he
    rw [foldl_call_eq] at h
    rcases Journal.sends_foldl_call.mp h with h | ⟨i, -, hi⟩
    · exact .inl h
    · obtain ⟨-, rfl⟩ := Call.broadcast.inj hi
      exact .inr ⟨_, rfl, he⟩
  · rcases Journal.sends_call.mp h with h | h
    · exact .inl h
    · cases h

theorem sends_flush (h : r.flush.journal.Sends id packet) :
    r.journal.Sends id packet ∨ Carries packet r.outbound := by
  have hbatch : ∀ ms ∈ Packet.batches r.params.maxMessages r.outbound,
      ms ≠ [] ∧ ∀ m ∈ ms, m ∈ r.outbound := fun ms hms =>
    ⟨Packet.ne_nil_of_mem_batches hms, fun m hm => by
      rw [← Packet.flatten_batches r.params.maxMessages r.outbound]
      exact List.mem_flatten.mpr ⟨ms, hms, hm⟩⟩
  refine List.foldlRecOn (motive := fun r' : Router F =>
    r'.journal.Sends id packet → r.journal.Sends id packet ∨ Carries packet r.outbound)
    (Packet.batches r.params.maxMessages r.outbound) sendPacket (b := { r with outbound := [] }) .inl
    (fun r' hr ms hms h => ?_) h
  rcases sends_sendPacket h with h | ⟨p, rfl, he⟩
  · exact hr h
  · exact .inr ⟨p, (hbatch _ hms).1, (hbatch _ hms).2, he⟩

/-- An operation sends packets of messages that waited, and nothing else. -/
theorem sends_apply {op : Operation F}
    (h : (r.apply now op).journal.Sends id packet) :
    r.journal.Sends id packet ∨ Carries packet r.outbound := by
  have hf (c : Call F) (hc : c.part ≠ .sending) :
      Option.guard (· = Call.broadcast id packet) c = none := by
    cases c <;> first | rfl | exact absurd rfl hc
  rcases r.read_apply hf now op with he | ⟨hr, rfl⟩
  · rw [Journal.sends_iff_read, he, ← Journal.sends_iff_read] at h
    exact .inl h
  · rw [apply, handleTimer, if_pos hr] at h
    exact sends_flush (r := { r with flushTimer := none }) h

end Router

end Manet
