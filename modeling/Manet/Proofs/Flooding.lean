import Manet.Proofs.LinkEnds
import Manet.Proofs.Reception

/-!
# Flooded messages

The tuple of a seen message says whether it was relayed and on which interfaces it came in. While it
is stored, the message changes no other table, waits to be relayed at most once, and is not forgotten
to have been relayed (`Reachable.flooded_once`). What is relayed is the message with one hop less to
go and one more behind it (`packet_floods`).
-/

namespace Manet

variable {F : Family}

/-- What tells the messages that are flooded apart. -/
def Message.key (m : Message F) : Address F × SeqNum := (m.originator, m.seqno)

/-- `c` is the message one hop further on. -/
structure Message.Relays (c m : Message F) : Prop where
  same : c = { m with ttl := c.ttl, hops := c.hops }
  ttl : c.ttl.toNat + 1 = m.ttl.toNat
  ttl_pos : 1 ≤ c.ttl.toNat
  hops : c.hops.toNat = min 255 (m.hops.toNat + 1)
  notHello : m.body.isHello = false

@[simp] theorem Router.relayedCopy_key (m : Message F) : (relayedCopy m).key = m.key := rfl

theorem Router.relayedCopy_relays {m : Message F} (httl : 1 < m.ttl) (hhello : m.body.isHello = false) :
    (relayedCopy m).Relays m := by
  have hlt : 1 < m.ttl.toNat := UInt8.lt_iff_toNat_lt.mp httl
  have hsub : (m.ttl - 1).toNat = m.ttl.toNat - 1 := UInt8.toNat_sub_of_le _ _ (UInt8.le_of_lt httl)
  refine ⟨rfl, ?_, ?_, ?_, hhello⟩
  · show (m.ttl - 1).toNat + 1 = m.ttl.toNat
    omega
  · show 1 ≤ (m.ttl - 1).toNat
    omega
  · show (if m.hops = 255 then (255 : UInt8) else m.hops + 1).toNat = min 255 (m.hops.toNat + 1)
    have hbound := m.hops.toNat_lt
    split
    · rename_i h
      rw [h]
      rfl
    · rename_i h
      have hne : m.hops.toNat ≠ 255 := fun he => h (UInt8.toNat_inj.mp he)
      rw [UInt8.toNat_add]
      have hone : (1 : UInt8).toNat = 1 := rfl
      omega

namespace Router

variable {now : Time} {r r' : Router F} {k : Address F × SeqNum}

/-- Whether a message with the given key was seen, and its tuple is stored. -/
def hasSeen (r : Router F) (k : Address F × SeqNum) : Bool := r.tables.duplicates.contains k

/-- Whether a stored tuple says that the message with the given key was relayed. -/
def hasRelayed (r : Router F) (k : Address F × SeqNum) : Bool :=
  (r.tables.duplicates.get? k).any (·.retransmitted)

/-! ## Taking in and relaying -/

/-- The tuple of a seen message once it was received on an interface. -/
def seenTuple (r : Router F) (m : Message F) (receiver : Address F) (retransmitted : Bool) (now : Time) :
    DuplicateTuple F :=
  { originator := m.originator
    seqno := m.seqno
    retransmitted
    interfaces := ((r.tables.duplicates.get? m.key).elim [] (·.interfaces)) ++ [receiver]
    time := now + r.params.dupHoldTime }

theorem recordSeen_tables (r : Router F) (m : Message F) (receiver : Address F) (retransmitted : Bool)
    (now : Time) :
    (r.recordSeen m receiver retransmitted now).tables =
      { r.tables with
        duplicates := r.tables.duplicates.insert (r.seenTuple m receiver retransmitted now) } := by
  unfold recordSeen seenTuple Message.key
  dsimp only
  cases ht : r.tables.duplicates.get? (m.originator, m.seqno) with
  | none =>
    simp only [onStore, Store.tables_insert]
    rfl
  | some t =>
    have hkey : (t.originator, t.seqno) = (m.originator, m.seqno) := (Table.get?_eq_some_iff.mp ht).2
    obtain ⟨ho, hs⟩ := Prod.mk.inj hkey
    simp only [onStore, Store.overwrite, Tables.write, ho, hs]
    rfl

/-- A message is not relayed, and then nothing happens; or it is recorded whether it is relayed, and
then it waits. -/
inductive Forwards (r : Router F) (m : Message F) (receiver sender : Address F) (now : Time) :
    Router F → Prop where
  | nothing : (r.hears sender now = true → r.hasRelayed m.key = true) → Forwards r m receiver sender now r
  | recorded {r' : Router F} (copies : List (Message F)) : r.hears sender now = true →
      r.hasRelayed m.key = false → r'.outbound = r.outbound ++ copies →
      (copies = [] ∨ copies = [relayedCopy m] ∧ 1 < m.ttl) → r'.tables =
        { r.tables with
          duplicates := r.tables.duplicates.insert (r.seenTuple m receiver (copies ≠ []) now) } →
      Forwards r m receiver sender now r'

theorem recordSeen_outbound (r : Router F) (m : Message F) (receiver : Address F) (retransmitted : Bool)
    (now : Time) : (r.recordSeen m receiver retransmitted now).outbound = r.outbound :=
  (recordSeen_does r m receiver retransmitted).outbound_eq (by decide)

theorem forward_forwards (r : Router F) (m : Message F) (receiver sender : Address F) (now : Time) :
    Forwards r m receiver sender now (r.forward m receiver sender now) := by
  unfold forward
  split
  · rename_i h
    obtain ⟨hhears, hrelayed⟩ := h
    have hrelayed : r.hasRelayed m.key = false := by
      rw [Bool.not_eq_true'] at hrelayed
      exact hrelayed
    split
    · rename_i h'
      let queued := (r.note (.forwarded m.seqno m.originator)).enqueue (relayedCopy m)
      obtain ⟨hout, htables, hparams⟩ : queued.outbound = r.outbound ++ [relayedCopy m] ∧
          queued.tables = r.tables ∧ queued.params = r.params := by
        rcases enqueue_cases (r.note (.forwarded m.seqno m.originator)) (relayedCopy m) with
          ⟨-, he⟩ | ⟨-, _, _, he⟩ <;> simp only [queued, he] <;> exact ⟨rfl, rfl, rfl⟩
      refine .recorded [relayedCopy m] hhears hrelayed ?_ (.inr ⟨rfl, h'.1⟩) ?_
      · rw [recordSeen_outbound, hout]
      · rw [recordSeen_tables, seenTuple, htables, hparams]
        rfl
    · refine .recorded [] hhears hrelayed ?_ (.inl rfl) ?_
      · rw [recordSeen_outbound, List.append_nil]
      · rw [recordSeen_tables]
        rfl
  · rename_i h
    refine .nothing fun hhears => ?_
    cases hrelayed : r.hasRelayed m.key with
    | true => rfl
    | false =>
      refine absurd ⟨hhears, ?_⟩ h
      rw [Bool.not_eq_true']
      exact hrelayed

/-- What becomes of a message: it is ignored, or relayed if it was taken in before, or taken in and, if
it is no HELLO, relayed. -/
inductive Handles (r : Router F) (m : Message F) (receiver sender : Address F) (now : Time) :
    Router F → Prop where
  | ignored : (m.ttl = 0 ∨ r.isLocal m.originator = true ∨ r.hasSeen m.key = true) →
      Handles r m receiver sender now r
  | again {r' : Router F} {t : DuplicateTuple F} : r.isLocal m.originator = false →
      r.tables.duplicates.get? m.key = some t → receiver ∉ t.interfaces → m.body.isHello = false →
      Forwards r m receiver sender now r' → Handles r m receiver sender now r'
  | greeted : m.ttl ≠ 0 → r.isLocal m.originator = false → r.tables.duplicates.get? m.key = none →
      m.body.isHello = true → Handles r m receiver sender now (r.process m receiver sender now)
  | first {r' : Router F} : r.isLocal m.originator = false → r.tables.duplicates.get? m.key = none →
      m.body.isHello = false → Forwards (r.process m receiver sender now) m receiver sender now r' →
      Handles r m receiver sender now r'

theorem hasSeen_of_get? {t : DuplicateTuple F} (h : r.tables.duplicates.get? k = some t) :
    r.hasSeen k = true := by
  rw [hasSeen, Table.contains_eq_isSome, h]
  rfl

theorem hasSeen_of_none (h : r.tables.duplicates.get? k = none) : r.hasSeen k = false := by
  rw [hasSeen, Table.contains_eq_isSome, h]
  rfl

theorem handleMessage_handles (r : Router F) (m : Message F) (receiver sender : Address F) (now : Time) :
    Handles r m receiver sender now (handleMessage receiver sender now r m) := by
  unfold handleMessage
  split
  · rename_i h
    exact .ignored (h.imp_right .inl)
  · rename_i h
    have hlocal : r.isLocal m.originator = false := Bool.eq_false_iff.mpr fun hl => h (.inr hl)
    split
    · rename_i t ht
      split
      · exact .ignored (.inr (.inr (hasSeen_of_get? ht)))
      · rename_i hnew
        refine .again hlocal ht (fun hmem => hnew (.inl hmem)) ?_ (forward_forwards ..)
        exact Bool.eq_false_iff.mpr fun hhello => hnew (.inr hhello)
    · rename_i ht
      dsimp only
      split
      · rename_i hhello
        exact .greeted (fun hz => h (.inl hz)) hlocal ht hhello
      · rename_i hhello
        exact .first hlocal ht (Bool.eq_false_iff.mpr hhello) (forward_forwards ..)

section Process

variable {m : Message F} {receiver sender : Address F}

theorem process_duplicates (h : r.isLocal m.originator = false) :
    (r.process m receiver sender now).tables.duplicates = r.tables.duplicates :=
  (process_does r m (ne_address_of_isLocal h) receiver sender).duplicates_eq (by decide)

theorem process_outbound (h : r.isLocal m.originator = false) :
    (r.process m receiver sender now).outbound = r.outbound :=
  (process_does r m (ne_address_of_isLocal h) receiver sender).outbound_eq (by decide)

/-- Only a HELLO changes the links. -/
theorem process_links (h : r.isLocal m.originator = false) (hhello : m.body.isHello = false) :
    (r.process m receiver sender now).tables.links = r.tables.links := by
  unfold process
  split
  · rename_i hbody
    rw [hbody] at hhello
    cases hhello
  · exact Does.links_of_leavesLinks (processTc_does _ _ _ _ _ _) (by decide)
  · exact Does.links_of_leavesLinks
      (processMid_does _ (ne_address_of_isLocal h) _ _ _) (by decide)
  · rfl

end Process

/-! ## What a message does -/

section Message

variable {m : Message F} {receiver sender : Address F}

theorem Forwards.tables (h : Forwards r m receiver sender now r') :
    r'.tables = { r.tables with duplicates := r'.tables.duplicates } := by
  cases h with
  | nothing => rfl
  | recorded copies _ _ _ _ ht => rw [ht]

/-- A message that was seen changes no table but that of the seen messages. -/
theorem handleMessage_tables_of_hasSeen (h : r.hasSeen m.key = true) :
    (handleMessage receiver sender now r m).tables =
      { r.tables with duplicates := (handleMessage receiver sender now r m).tables.duplicates } := by
  have hh := r.handleMessage_handles m receiver sender now
  generalize handleMessage receiver sender now r m = r' at hh
  cases hh with
  | ignored => rfl
  | again _ _ _ _ hf => exact hf.tables
  | greeted _ _ hnone | first _ hnone =>
    rw [hasSeen_of_none hnone] at h
    cases h

/-- What a message makes of the queue and of the tuples of seen messages: nothing, or it is recorded
whether a copy waits. -/
inductive Records (r : Router F) (m : Message F) (receiver : Address F) (now : Time) (r' : Router F) :
    Prop where
  | nothing : r'.outbound = r.outbound → r'.tables.duplicates = r.tables.duplicates →
      Records r m receiver now r'
  | seen (copies : List (Message F)) : r.isLocal m.originator = false → m.body.isHello = false →
      r.hasRelayed m.key = false →
      (∀ t, r.tables.duplicates.get? m.key = some t → receiver ∉ t.interfaces) →
      r'.outbound = r.outbound ++ copies → (copies = [] ∨ copies = [relayedCopy m] ∧ 1 < m.ttl) →
      r'.tables.duplicates = r.tables.duplicates.insert (r.seenTuple m receiver (copies ≠ []) now) →
      Records r m receiver now r'

theorem Forwards.records {r₁ : Router F} (h : Forwards r₁ m receiver sender now r')
    (hd : r₁.tables.duplicates = r.tables.duplicates) (hout : r₁.outbound = r.outbound)
    (hparams : r₁.params = r.params) (hlocal : r.isLocal m.originator = false)
    (hhello : m.body.isHello = false)
    (hnew : ∀ t, r.tables.duplicates.get? m.key = some t → receiver ∉ t.interfaces) :
    Records r m receiver now r' := by
  cases h with
  | nothing => exact .nothing hout hd
  | recorded copies _ hrelayed hout' hcopies ht =>
    rw [hasRelayed, hd] at hrelayed
    refine .seen copies hlocal hhello hrelayed hnew (hout ▸ hout') hcopies ?_
    rw [ht, seenTuple, hd, hparams]
    rfl

theorem handleMessage_records (r : Router F) (m : Message F) (receiver sender : Address F) (now : Time) :
    Records r m receiver now (handleMessage receiver sender now r m) := by
  have hh := r.handleMessage_handles m receiver sender now
  generalize handleMessage receiver sender now r m = r' at hh
  cases hh with
  | ignored => exact .nothing rfl rfl
  | again hlocal ht hnew hhello hf =>
    exact hf.records rfl rfl rfl hlocal hhello fun u hu => Option.some.inj (ht.symm.trans hu) ▸ hnew
  | greeted _ hlocal => exact .nothing (process_outbound hlocal) (process_duplicates hlocal)
  | first hlocal hnone hhello hf =>
    have hd : Does intake now r (r.process m receiver sender now) :=
      process_does r m (ne_address_of_isLocal hlocal) receiver sender
    have hparams : (r.process m receiver sender now).params = r.params := hd.sameNode.params
    refine hf.records (process_duplicates hlocal) (process_outbound hlocal) hparams hlocal hhello
      fun u hu => ?_
    cases hnone.symm.trans hu

theorem get?_insert_seenTuple (T : Table (DuplicateTuple F)) (retransmitted : Bool)
    (k : Address F × SeqNum) :
    (T.insert (r.seenTuple m receiver retransmitted now)).get? k =
      if m.key = k then some (r.seenTuple m receiver retransmitted now) else T.get? k :=
  Table.get?_insert ..

namespace Records

variable (h : Records r m receiver now r')
include h

theorem hasSeen_mono (hk : r.hasSeen k = true) : r'.hasSeen k = true := by
  rw [hasSeen, Table.contains_eq_isSome] at hk ⊢
  cases h with
  | nothing _ hd => rwa [hd]
  | seen copies _ _ _ _ _ _ hd =>
    rw [hd, get?_insert_seenTuple]
    split
    · rfl
    · exact hk

/-- It is not forgotten that a message was relayed. -/
theorem hasRelayed_mono (hk : r.hasRelayed k = true) : r'.hasRelayed k = true := by
  cases h with
  | nothing _ hd => rwa [hasRelayed, hd]
  | seen copies _ _ hno _ _ _ hd =>
    have hne : m.key ≠ k := fun he => by
      rw [he, hk] at hno
      cases hno
    rw [hasRelayed, hd, get?_insert_seenTuple, if_neg hne]
    exact hk

end Records

end Message

/-- What the messages `xs` let wait between `r` and `r'` are copies of messages of other nodes, at most
one of each, and none of a message that was relayed before. -/
structure Floods (r r' : Router F) (xs : List (Reception F)) (copies : List (Message F)) : Prop where
  outbound : r'.outbound = r.outbound ++ copies
  relays : ∀ c ∈ copies, c.originator ≠ r.address ∧ ∃ x ∈ xs, c.Relays x.message
  relayed : ∀ k, (r.hasRelayed k).toNat + copies.countP (fun c => c.key = k) ≤ (r'.hasRelayed k).toNat

theorem Floods.append {r'' : Router F} {xs xs' : List (Reception F)} {copies copies' : List (Message F)}
    (h : Floods r r' xs copies) (h' : Floods r' r'' xs' copies') (ha : r'.address = r.address) :
    Floods r r'' (xs ++ xs') (copies ++ copies') where
  outbound := by rw [h'.outbound, h.outbound, List.append_assoc]
  relays c hc := by
    rcases List.mem_append.mp hc with hc | hc
    · obtain ⟨hne, x, hx, hrelays⟩ := h.relays c hc
      exact ⟨hne, x, List.mem_append_left _ hx, hrelays⟩
    · obtain ⟨hne, x, hx, hrelays⟩ := h'.relays c hc
      exact ⟨ha ▸ hne, x, List.mem_append_right _ hx, hrelays⟩
  relayed k := by
    have hk := h.relayed k
    have hk' := h'.relayed k
    rw [List.countP_append]
    omega

/-- Of a message that is not known to have been relayed one copy may wait, and then it is known. -/
theorem Records.floods {m : Message F} {receiver : Address F} (h : Records r m receiver now r')
    (sender : Address F) : ∃ copies, Floods r r' [⟨r, m, receiver, sender⟩] copies := by
  have hmono (k : Address F × SeqNum) : (r.hasRelayed k).toNat ≤ (r'.hasRelayed k).toNat := by
    cases hk : r.hasRelayed k with
    | false => exact Nat.zero_le _
    | true => exact Nat.le_of_eq (congrArg Bool.toNat (h.hasRelayed_mono hk)).symm
  cases h with
  | nothing hout => exact ⟨[], hout.trans (List.append_nil _).symm, nofun, hmono⟩
  | seen copies hlocal hhello hno _ hout hcopies hd =>
    refine ⟨copies, hout, fun c hc => ?_, fun k => ?_⟩
    all_goals rcases hcopies with rfl | ⟨rfl, httl⟩
    · cases hc
    · rw [List.mem_singleton.mp hc]
      exact ⟨ne_address_of_isLocal hlocal, _, List.mem_cons_self,
        relayedCopy_relays httl hhello⟩
    · exact hmono k
    · rw [List.countP_singleton, relayedCopy_key]
      by_cases hk : m.key = k
      · have hafter : r'.hasRelayed k = true := by
          rw [hasRelayed, hd, get?_insert_seenTuple, if_pos hk]
          rfl
        rw [← hk] at hafter ⊢
        rw [hno, hafter, if_pos (decide_eq_true rfl)]
        exact Nat.le_refl _
      · rw [if_neg fun he => hk (of_decide_eq_true he)]
        exact hmono k

/-- Seen messages are those of other nodes, and no interface is listed twice. -/
def SeenWell (r : Router F) : Prop :=
  ∀ t ∈ r.tables.duplicates, t.originator ≠ r.address ∧ t.interfaces.Nodup

theorem Records.seenWell {m : Message F} {receiver : Address F} (h : Records r m receiver now r')
    (ha : r'.address = r.address) (hr : r.SeenWell) :
    r'.SeenWell := by
  intro t ht
  rw [ha]
  cases h with
  | nothing _ hd => exact hr t (hd ▸ ht)
  | seen copies hlocal _ _ hnew _ _ hd =>
    rw [hd] at ht
    rcases Table.mem_insert.mp ht with rfl | ⟨ht, -⟩
    · refine ⟨ne_address_of_isLocal hlocal, ?_⟩
      rw [seenTuple]
      cases hget : r.tables.duplicates.get? m.key with
      | none => simp
      | some u =>
        have hu : u.interfaces.Nodup := (hr u (Table.get?_eq_some_iff.mp hget).1).2
        show (u.interfaces ++ [receiver]).Nodup
        rw [List.nodup_append]
        refine ⟨hu, by simp, fun a ha b hb => ?_⟩
        rw [List.mem_singleton.mp hb]
        rintro rfl
        exact hnew u hget ha
    · exact hr t ht

/-! ## Operations -/

theorem apply_address (r : Router F) (now : Time) (op : Operation F) :
    (r.apply now op).address = r.address := by
  have hs := r.apply_step now op
  generalize r.apply now op = r' at hs
  cases hs with
  | idle | stop => rfl
  | start _ _ _ hd | refresh _ hd | packet _ _ _ _ hd | linkFailed _ _ hd | expiry _ _ _ hd =>
    exact hd.sameNode.address
  | hello _ _ _ hd | tc _ _ _ hd | mid _ _ _ hd => exact hd.sameNode.address
  | flush _ hd => exact hd.sameNode.address

/-- An operation other than a packet only forgets messages. -/
theorem apply_duplicates (r : Router F) (now : Time) {op : Operation F} (hop : op.isPacket = false)
    (k : Address F × SeqNum) :
    (r.apply now op).tables.duplicates.get? k = r.tables.duplicates.get? k ∨
      (r.apply now op).tables.duplicates.get? k = none := by
  have hs := r.apply_step now op
  generalize r.apply now op = r' at hs
  cases hs with
  | idle => exact .inl rfl
  | stop => exact .inr rfl
  | packet => cases hop
  | start _ _ _ hd | refresh _ hd | linkFailed _ _ hd =>
    exact .inl (congrArg (Table.get? · k) (hd.duplicates_eq (by decide)))
  | hello _ _ _ hd | tc _ _ _ hd | mid _ _ _ hd =>
    exact .inl (congrArg (Table.get? · k) (hd.duplicates_eq (by decide)))
  | flush _ hd => exact .inl (congrArg (Table.get? · k) (hd.duplicates_eq (by decide)))
  | expiry key generation _ hd =>
    rw [hd.duplicates_eq (by decide)]
    have ht := r.toStore.tables_expire key generation now
    split at ht
    · dsimp only
      rw [ht.2]
      cases key with
      | duplicate a s =>
        have hget : (r.tables.drop (.duplicate a s)).duplicates.get? k =
            if k = (a, s) then none else r.tables.duplicates.get? k := Table.get?_erase ..
        rw [hget]
        split
        · exact .inr rfl
        · exact .inl rfl
      | _ => exact .inl rfl
    all_goals
      dsimp only
      rw [ht]
      exact .inl rfl

theorem handleMessage_address (r : Router F) (m : Message F) (receiver sender : Address F) (now : Time) :
    (handleMessage receiver sender now r m).address = r.address :=
  Router.SameNode.address (Does.sameNode (handleMessage_does r m receiver sender))

theorem foldl_handleMessage_floods (r : Router F) (ms : List (Message F)) (receiver sender : Address F)
    (now : Time) :
    ∃ copies, Floods r (ms.foldl (handleMessage receiver sender now) r)
      (r.receive receiver sender now ms) copies := by
  induction ms generalizing r with
  | nil => exact ⟨[], (List.append_nil _).symm, nofun, fun _ => Nat.le_refl _⟩
  | cons m ms ih =>
    obtain ⟨copies, h⟩ := (r.handleMessage_records m receiver sender now).floods sender
    obtain ⟨copies', h'⟩ := ih (handleMessage receiver sender now r m)
    exact ⟨copies ++ copies', h.append h' (r.handleMessage_address m receiver sender now)⟩

/-- What a packet lets wait are copies of its messages. -/
theorem packet_floods (r : Router F) (now : Time) (id : InterfaceId) (sender : Address F)
    (datagram : Octets) :
    Floods r (r.apply now (.packet id sender datagram))
      (Operation.receptions now r (.packet id sender datagram))
      (Operation.queued now r (.packet id sender datagram)) := by
  rcases r.apply_packet_cases now id sender datagram with
    ⟨he, hnone⟩ | ⟨receiver, p, -, -, -, he, hreceptions⟩
  · have hq : Operation.queued now r (.packet id sender datagram) = [] :=
      Operation.queued_of_outbound (by rw [he, List.append_nil])
    rw [he, hnone, hq]
    exact ⟨(List.append_nil _).symm, nofun, fun _ => Nat.le_refl _⟩
  · obtain ⟨copies, h⟩ := foldl_handleMessage_floods
      (r.note (.packetReceived p.seqno p.messages.length sender)) p.messages receiver sender now
    have hout : (r.apply now (.packet id sender datagram)).outbound = r.outbound ++ copies := by
      rw [he, updateRoutes_outbound]
      exact h.outbound
    rw [hreceptions, Operation.queued_of_outbound hout]
    refine ⟨hout, h.relays, fun k => ?_⟩
    rw [he, hasRelayed, hasRelayed, updateRoutes_tables]
    exact h.relayed k

theorem apply_seenWell (h : r.SeenWell) (now : Time) (op : Operation F) : (r.apply now op).SeenWell := by
  cases hop : op.isPacket with
  | false =>
    intro t ht
    have hget : (r.apply now op).tables.duplicates.get? (t.originator, t.seqno) = some t :=
      Table.get?_eq_some_iff.mpr ⟨ht, rfl⟩
    rcases r.apply_duplicates now hop (t.originator, t.seqno) with hsame | hnone
    · rw [r.apply_address]
      exact h t (Table.get?_eq_some_iff.mp (hsame.symm.trans hget)).1
    · cases hnone.symm.trans hget
  | true =>
    cases op with
    | packet id sender d =>
      refine apply_packet_induction h (fun _ _ hr => hr) (fun r m receiver sender hr => ?_) (fun r hr => ?_)
        id sender d
      · exact (r.handleMessage_records m receiver sender now).seenWell
          (r.handleMessage_address m receiver sender now) hr
      · obtain ⟨j, hj, -⟩ := r.updateRoutes_eq now
        rw [hj]
        exact hr
    | _ => cases hop

/-- As long as the tuple of a message is stored, at most one copy waits, and none once it was
relayed. -/
theorem apply_relayed_add_le (h : r.SeenWell) {op : Operation F} (hseen : (r.apply now op).hasSeen k = true) :
    (r.hasRelayed k).toNat + (op.queued now r).countP (fun c => c.key = k) ≤
      ((r.apply now op).hasRelayed k).toNat := by
  cases hop : op.isPacket with
  | false =>
    obtain ⟨t, ht, hkey⟩ := Table.contains_iff.mp hseen
    have hforeign : k.1 ≠ r.address := by
      rw [← hkey, ← r.apply_address now op]
      exact (apply_seenWell h now op t ht).1
    have hnone : (op.queued now r).countP (fun c => c.key = k) = 0 := by
      rw [List.countP_eq_zero]
      intro c hc
      rw [decide_eq_true_eq]
      rintro rfl
      exact hforeign (Operation.composes_of_mem_queued hop hc).1
    rcases r.apply_duplicates now hop k with hsame | hgone
    · rw [hnone, hasRelayed, hasRelayed, hsame]
      exact Nat.le_refl _
    · rw [hasSeen_of_none hgone] at hseen
      cases hseen
  | true =>
    cases op with
    | packet id sender d => exact (r.packet_floods now id sender d).relayed k
    | _ => cases hop

/-! ## Runs -/

/-- The tuple of a message is stored after each of the operations. -/
def StaysSeen (k : Address F × SeqNum) : Router F → List (Time × Operation F) → Prop
  | _, [] => True
  | r, (now, op) :: ops => (r.apply now op).hasSeen k = true ∧ StaysSeen k (r.apply now op) ops

/-- How many messages with the given key the operations let wait. -/
def copiesQueued (k : Address F × SeqNum) : Router F → List (Time × Operation F) → Nat
  | _, [] => 0
  | r, (now, op) :: ops =>
    (op.queued now r).countP (fun m => m.key = k) + copiesQueued k (r.apply now op) ops

theorem run_relayed_add_le (h : r.SeenWell) {ops : List (Time × Operation F)} (hs : r.StaysSeen k ops) :
    (r.hasRelayed k).toNat + r.copiesQueued k ops ≤ ((r.run ops).hasRelayed k).toNat := by
  induction ops generalizing r with
  | nil => exact Nat.le_refl _
  | cons op ops ih =>
    obtain ⟨now, op⟩ := op
    have hop := apply_relayed_add_le h hs.1
    have hrest := ih (apply_seenWell h now op) hs.2
    rw [copiesQueued, run_cons]
    omega

/-- A message other than a HELLO that comes over a symmetric link is recorded. -/
theorem handleMessage_hasSeen {m : Message F} {receiver sender : Address F} (hhello : m.body.isHello = false)
    (httl : m.ttl ≠ 0) (hlocal : r.isLocal m.originator = false) (hhears : r.hears sender now = true) :
    (handleMessage receiver sender now r m).hasSeen m.key = true := by
  have hh := r.handleMessage_handles m receiver sender now
  have hrecords := r.handleMessage_records m receiver sender now
  generalize handleMessage receiver sender now r m = r' at hh hrecords
  cases hh with
  | ignored h =>
    rcases h with h | h | h
    · exact absurd h httl
    · rw [hlocal] at h
      cases h
    · exact h
  | again _ ht => exact hrecords.hasSeen_mono (hasSeen_of_get? ht)
  | greeted _ _ _ h =>
    rw [hhello] at h
    cases h
  | first _ hnone _ hf =>
    have hhears' : (r.process m receiver sender now).hears sender now = true := by
      rw [hears, symmetricLink?, process_links hlocal hhello]
      exact hhears
    cases hf with
    | nothing h =>
      have hrelayed := h hhears'
      rw [hasRelayed, process_duplicates hlocal, hnone] at hrelayed
      cases hrelayed
    | recorded copies _ _ _ _ ht =>
      rw [hasSeen, Table.contains_eq_isSome, ht, get?_insert_seenTuple, if_pos rfl]
      rfl

theorem hasSeen_apply_of_mem_receptions {op : Operation F} {x : Reception F} (hx : x ∈ op.receptions now r)
    {k : Address F × SeqNum} (hk : (x.after now).hasSeen k = true) : (r.apply now op).hasSeen k = true := by
  cases op with
  | packet id sender datagram =>
    rcases r.apply_packet_cases now id sender datagram with
      ⟨-, hnone⟩ | ⟨receiver, p, -, -, -, he, hreceptions⟩
    · rw [hnone] at hx
      cases hx
    · rw [hreceptions] at hx
      have hseen := of_mem_receive (P := fun r => r.hasSeen k = true)
        (fun r m hr => (r.handleMessage_records m receiver sender now).hasSeen_mono hr) hx hk
      rw [he, hasSeen, updateRoutes_tables]
      exact hseen
  | _ => cases hx

theorem Reachable.seenWell {time : Time} (h : r.Reachable time) : r.SeenWell := by
  induction h with
  | create => exact fun t ht => absurd ht (Table.not_mem_empty t)
  | apply op _ _ ih => exact apply_seenWell ih _ op

/-- While its tuple is stored, a message waits to be relayed once at most, is not forgotten to have
been relayed, and changes no other table. Every message but a HELLO that comes over a symmetric link is
recorded by the packet that brings it. What waits after a packet are copies of its messages one hop
further on. -/
theorem Reachable.flooded_once {time : Time} (h : r.Reachable time) :
    (∀ k ops, r.StaysSeen k ops →
      (r.hasRelayed k).toNat + r.copiesQueued k ops ≤ 1 ∧
        (r.hasRelayed k = true → (r.run ops).hasRelayed k = true)) ∧
    (∀ t ∈ r.tables.duplicates, t.interfaces.Nodup) ∧
    (∀ (now : Time) (op : Operation F), ∀ x ∈ op.receptions now r,
      (∀ k, x.router.hasRelayed k = true → (x.after now).hasRelayed k = true) ∧
      (x.router.hasSeen x.message.key = true →
        (x.after now).tables = { x.router.tables with duplicates := (x.after now).tables.duplicates }) ∧
      (x.message.body.isHello = false → x.message.ttl ≠ 0 →
        x.router.isLocal x.message.originator = false → x.router.hears x.sender now = true →
          (x.after now).hasSeen x.message.key = true ∧ (r.apply now op).hasSeen x.message.key = true)) ∧
    (∀ (now : Time) (op : Operation F), ∀ c ∈ op.queued now r,
      op.isPacket = false ∧ c.originator = r.address ∨ ∃ x ∈ op.receptions now r, c.Relays x.message) := by
  refine ⟨fun k ops hs => ?_, fun t ht => (h.seenWell t ht).2,
    fun now op x hx => ⟨fun k => ?_, ?_, ?_⟩, ?_⟩
  · have hle := run_relayed_add_le h.seenWell hs
    have hone := Bool.toNat_le ((r.run ops).hasRelayed k)
    refine ⟨Nat.le_trans hle hone, fun hk => ?_⟩
    rw [hk, Bool.toNat_true] at hle
    cases hafter : (r.run ops).hasRelayed k with
    | true => rfl
    | false =>
      rw [hafter, Bool.toNat_false] at hle
      omega
  · exact (x.router.handleMessage_records x.message x.receiver x.sender now).hasRelayed_mono
  · exact handleMessage_tables_of_hasSeen
  · intro hhello httl hlocal hhears
    have hseen : (x.after now).hasSeen x.message.key = true := handleMessage_hasSeen hhello httl hlocal hhears
    exact ⟨hseen, hasSeen_apply_of_mem_receptions hx hseen⟩
  · intro now op c hc
    cases hop : op.isPacket with
    | false => exact .inl ⟨rfl, (Operation.composes_of_mem_queued hop hc).1⟩
    | true =>
      cases op with
      | packet id sender datagram => exact .inr ((r.packet_floods now id sender datagram).relays c hc).2
      | _ => cases hop

/-- A packet of 10.0.0.2, which selects this node as relay and passes on a TC message of 10.0.0.9 twice. -/
def repeatedTc : Operation .ipv4 :=
  .packet (.number 0) (.ofNat 0x0a000002)
    [0, 68, 0, 1, 1, 0x8a, 0, 24, 10, 0, 0, 2, 1, 0, 0, 2, 0, 0, 5, 3, 10, 0, 0, 8, 10, 0, 0, 1,
      2, 0x8a, 0, 20, 10, 0, 0, 9, 5, 2, 0, 7, 0, 1, 0, 0, 10, 0, 0, 8,
      2, 0x8a, 0, 20, 10, 0, 0, 9, 5, 2, 0, 7, 0, 1, 0, 0, 10, 0, 0, 8]

theorem flooded_once_repeatedTc :
    sample.Reachable 0 ∧ sample.StaysSeen (.ofNat 0x0a000009, 7) [(0, repeatedTc), (1, repeatedTc)] ∧
      sample.copiesQueued (.ofNat 0x0a000009, 7) [(0, repeatedTc), (1, repeatedTc)] = 1 ∧
      (sample.hasRelayed (.ofNat 0x0a000009, 7)).toNat +
        sample.copiesQueued (.ofNat 0x0a000009, 7) [(0, repeatedTc), (1, repeatedTc)] ≤ 1 := by
  have hs : sample.StaysSeen (.ofNat 0x0a000009, 7) [(0, repeatedTc), (1, repeatedTc)] :=
    ⟨by decide +kernel, by decide +kernel, trivial⟩
  exact ⟨sample_reachable, hs, by decide +kernel, ((sample_reachable.flooded_once).1 _ _ hs).1⟩

end Router

end Manet
